/-
Draws on an account, and the book kept about them.

Whoever draws on an account in several steps and may have to return all of it keeps a
book of what is held.  A draw is booked in one of two ways: added to what the book
says, or written over it.  `total` is what has really been drawn, `book` what the book
ends up saying, and the question is when the two agree.

The answer does not depend on the amounts, as long as they are positive: a draw may be
written over the book exactly when nothing was held before it (`book_eq_total_iff`).
Otherwise the book falls short, and no later draw makes up for it (`book_lt_total`).
-/
import Mathlib.Algebra.Order.Group.Defs
import Mathlib.Algebra.BigOperators.Group.List.Basic

namespace Escrow

variable {G : Type} [AddCommGroup G]

/-- One draw: whether it is written over the book, and the amount. -/
structure Draw (G : Type) where
  overwrites : Bool
  amount : G

/-- What has been drawn in the end, `held` being there at the start. -/
def total (held : G) (draws : List (Draw G)) : G := held + (draws.map (·.amount)).sum

/-- What the book says in the end, `booked` being its first entry. -/
def book (booked : G) : List (Draw G) → G
  | [] => booked
  | d :: rest => book (if d.overwrites then d.amount else booked + d.amount) rest

/-- No draw is written over the book while something is held. -/
def NoOverwrite (held : G) : List (Draw G) → Prop
  | [] => True
  | d :: rest => (d.overwrites = true → held = 0) ∧ NoOverwrite (held + d.amount) rest

@[simp] theorem total_nil (held : G) : total held [] = held := by simp [total]

@[simp] theorem total_cons (held : G) (d : Draw G) (rest : List (Draw G)) :
    total held (d :: rest) = total (held + d.amount) rest := by
  simp [total, add_assoc]

variable [LinearOrder G] [IsOrderedAddMonoid G]

theorem book_lt_total : ∀ {draws : List (Draw G)} {booked held : G}, 0 ≤ booked →
    booked < held → (∀ d ∈ draws, 0 < d.amount) → book booked draws < total held draws := by
  intro draws
  induction draws with
  | nil =>
    intro booked held _ hlt _
    simpa [book] using hlt
  | cons d rest ih =>
    intro booked held hbooked hlt hpos
    have hd : 0 < d.amount := hpos d (by simp)
    rw [book, total_cons]
    refine ih ?_ ?_ fun e he => hpos e (List.mem_cons_of_mem _ he)
    · split
      · exact hd.le
      · exact add_nonneg hbooked hd.le
    · split
      · exact lt_add_of_pos_left _ (hbooked.trans_lt hlt)
      · exact add_lt_add_left hlt d.amount

/-- **The book is right exactly when no draw was written over a holding.** -/
theorem book_eq_total_iff : ∀ {draws : List (Draw G)} {held : G}, 0 ≤ held →
    (∀ d ∈ draws, 0 < d.amount) →
    (book held draws = total held draws ↔ NoOverwrite held draws) := by
  intro draws
  induction draws with
  | nil =>
    intro held _ _
    simp [book, NoOverwrite]
  | cons d rest ih =>
    intro held hheld hpos
    have hd : 0 < d.amount := hpos d (by simp)
    have hrest : ∀ e ∈ rest, 0 < e.amount := fun e he => hpos e (List.mem_cons_of_mem _ he)
    have hnext : 0 ≤ held + d.amount := add_nonneg hheld hd.le
    rw [book, total_cons, NoOverwrite]
    by_cases hover : d.overwrites = true
    · rw [if_pos hover]
      by_cases hzero : held = 0
      · rw [hzero, zero_add]
        rw [hzero, zero_add] at hnext
        rw [ih hnext hrest]
        simp
      · -- overwritten while held: short from here on
        have hheld' : 0 < held := lt_of_le_of_ne hheld (Ne.symm hzero)
        have hshort : book d.amount rest < total (held + d.amount) rest :=
          book_lt_total hd.le (lt_add_of_pos_left _ hheld') hrest
        constructor
        · intro heq
          exact absurd heq hshort.ne
        · intro hno
          exact absurd (hno.1 hover) hzero
    · rw [if_neg hover, ih hnext hrest]
      simp [hover]

end Escrow

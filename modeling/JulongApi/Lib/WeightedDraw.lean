/-
A choice by weight: a number is drawn, and every candidate in turn takes off its weight.

Where the walk stops as soon as the number falls below zero, a candidate is chosen by as many
draws as it has weight, and every draw below the total stops somewhere.  A walk that stops at zero
already is the same walk for the draw one lower: the first candidate gains the draw zero and the
last one loses the highest.
-/
import Mathlib

namespace WeightedDraw

variable {α : Type} (weight : α → Nat)

def draw : List α → Nat → Option α
  | [], _ => none
  | a :: rest, r => if r < weight a then some a else draw rest (r - weight a)

/-- The walk that stops at zero already. -/
def drawEarly : List α → Nat → Option α
  | [], _ => none
  | a :: rest, r => if r ≤ weight a then some a else drawEarly rest (r - weight a)

def total (l : List α) : Nat := (l.map weight).sum

/-- The draws below `bound` for which `choice` gives an element with the property. -/
def draws (choice : Nat → Option α) (p : α → Bool) (bound : Nat) : Nat :=
  (List.range bound).countP fun r => (choice r).any p

variable {weight}

@[simp] theorem total_nil : total weight [] = 0 := rfl

@[simp] theorem total_cons (a : α) (rest : List α) :
    total weight (a :: rest) = weight a + total weight rest := by
  simp [total]

theorem draw_of_lt {a : α} {rest : List α} {r : Nat} (h : r < weight a) :
    draw weight (a :: rest) r = some a := by
  rw [draw, if_pos h]

theorem draw_add (a : α) (rest : List α) (r : Nat) :
    draw weight (a :: rest) (weight a + r) = draw weight rest r := by
  rw [draw, if_neg (by omega), Nat.add_sub_cancel_left]

theorem draws_add (choice : Nat → Option α) (p : α → Bool) (m n : Nat) :
    draws choice p (m + n) = draws choice p m + draws (fun r => choice (m + r)) p n := by
  rw [draws, List.range_add, List.countP_append, List.countP_map]
  rfl

theorem draws_congr {choice choice' : Nat → Option α} {p : α → Bool} {bound : Nat}
    (h : ∀ r < bound, choice r = choice' r) : draws choice p bound = draws choice' p bound := by
  unfold draws
  refine List.countP_congr ?_
  intro r hr
  rw [h r (List.mem_range.mp hr)]

theorem draws_const (a : α) (p : α → Bool) (bound : Nat) :
    draws (fun _ => some a) p bound = if p a = true then bound else 0 := by
  unfold draws
  by_cases hp : p a = true
  · simp [hp]
  · simp [hp]

theorem draw_of_lt_total : ∀ {l : List α} {r : Nat}, r < total weight l →
    ∃ a ∈ l, draw weight l r = some a := by
  intro l
  induction l with
  | nil => intro r hr; simp at hr
  | cons a rest ih =>
    intro r hr
    rw [total_cons] at hr
    by_cases h : r < weight a
    · exact ⟨a, by simp, draw_of_lt h⟩
    · have hbelow : r - weight a < total weight rest := by omega
      obtain ⟨b, hb, hdraw⟩ := ih hbelow
      refine ⟨b, by simp [hb], ?_⟩
      rw [draw, if_neg h, hdraw]

/-- **A candidate is chosen by as many draws as it has weight.** -/
theorem draws_draw (p : α → Bool) : ∀ l : List α,
    draws (draw weight l) p (total weight l) = total weight (l.filter p) := by
  intro l
  induction l with
  | nil => rfl
  | cons a rest ih =>
    have hhead : draws (draw weight (a :: rest)) p (weight a)
        = if p a = true then weight a else 0 := by
      rw [draws_congr fun r hr => draw_of_lt hr]
      exact draws_const a p (weight a)
    have hrest : draws (fun r => draw weight (a :: rest) (weight a + r)) p (total weight rest)
        = total weight (rest.filter p) := by
      rw [draws_congr fun r _ => draw_add a rest r, ih]
    rw [total_cons, draws_add, hhead, hrest]
    by_cases hp : p a = true
    · rw [if_pos hp, List.filter_cons_of_pos hp, total_cons]
    · rw [if_neg hp, List.filter_cons_of_neg hp, Nat.zero_add]

/-! ### The walk that stops at zero -/

theorem drawEarly_zero (a : α) (rest : List α) : drawEarly weight (a :: rest) 0 = some a := by
  rw [drawEarly, if_pos (Nat.zero_le _)]

theorem drawEarly_succ : ∀ (l : List α) (r : Nat), drawEarly weight l (r + 1) = draw weight l r := by
  intro l
  induction l with
  | nil => intro r; rfl
  | cons a rest ih =>
    intro r
    by_cases h : r < weight a
    · rw [draw_of_lt h, drawEarly, if_pos (by omega)]
    · have hsub : r + 1 - weight a = r - weight a + 1 := by omega
      rw [drawEarly, if_neg (by omega), draw, if_neg h, hsub, ih]

theorem draw_last {last : α} (hlast : 0 < weight last) : ∀ before : List α,
    draw weight (before ++ [last]) (total weight (before ++ [last]) - 1) = some last := by
  intro before
  induction before with
  | nil =>
    have h : total weight ([] ++ [last]) - 1 < weight last := by simp; omega
    exact draw_of_lt h
  | cons a rest ih =>
    have hpos : 0 < total weight (rest ++ [last]) := by
      simp [total]; omega
    have hsub : total weight (a :: (rest ++ [last])) - 1
        = weight a + (total weight (rest ++ [last]) - 1) := by
      rw [total_cons]; omega
    rw [List.cons_append, hsub, draw_add, ih]

/-- **One draw goes from the last candidate to the first.** -/
theorem draws_drawEarly (p : α → Bool) {l : List α} {first last : α}
    (hfirst : l.head? = some first) (hlast : l.getLast? = some last) (hweight : 0 < weight last) :
    draws (drawEarly weight l) p (total weight l) + (if p last = true then 1 else 0)
      = total weight (l.filter p) + (if p first = true then 1 else 0) := by
  obtain ⟨before, rfl⟩ : ∃ before, l = before ++ [last] := by
    obtain ⟨before, h⟩ := List.getLast?_eq_some_iff.mp hlast
    exact ⟨before, h⟩
  obtain ⟨rest, hl⟩ : ∃ rest, before ++ [last] = first :: rest := by
    cases hcons : before ++ [last] with
    | nil => simp at hcons
    | cons a rest =>
      rw [hcons] at hfirst
      exact ⟨rest, by rw [Option.some.inj hfirst]⟩
  obtain ⟨n, hn⟩ : ∃ n, total weight (before ++ [last]) = n + 1 := by
    refine ⟨total weight (before ++ [last]) - 1, ?_⟩
    have hpos : 0 < total weight (before ++ [last]) := by
      simp [total]; omega
    omega
  have hzero : draws (drawEarly weight (before ++ [last])) p 1 = if p first = true then 1 else 0 := by
    rw [hl, draws_congr , draws_const]
    intro r hr
    have hr0 : r = 0 := by omega
    rw [hr0, drawEarly_zero]
  have hlower : draws (fun r => drawEarly weight (before ++ [last]) (1 + r)) p n
      = draws (draw weight (before ++ [last])) p n := by
    refine draws_congr ?_
    intro r _
    rw [Nat.add_comm, drawEarly_succ]
  have htop : draws (fun r => draw weight (before ++ [last]) (n + r)) p 1
      = if p last = true then 1 else 0 := by
    rw [draws_congr , draws_const]
    intro r hr
    have hr0 : n + r = total weight (before ++ [last]) - 1 := by omega
    rw [hr0, draw_last hweight]
  have hall : draws (draw weight (before ++ [last])) p (total weight (before ++ [last]))
      = total weight ((before ++ [last]).filter p) := draws_draw p (before ++ [last])
  rw [hn, draws_add, htop] at hall
  rw [hn, Nat.add_comm n 1, draws_add, hzero, hlower]
  omega

theorem drawEarly_of_lt_total {l : List α} {r : Nat} (hl : l ≠ []) (hr : r < total weight l) :
    ∃ a ∈ l, drawEarly weight l r = some a := by
  cases r with
  | zero =>
    cases l with
    | nil => exact absurd rfl hl
    | cons a rest => exact ⟨a, by simp, drawEarly_zero a rest⟩
  | succ r =>
    have hlower : r < total weight l := by omega
    obtain ⟨a, ha, hdraw⟩ := draw_of_lt_total hlower
    exact ⟨a, ha, by rw [drawEarly_succ, hdraw]⟩

end WeightedDraw

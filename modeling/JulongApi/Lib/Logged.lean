/-
Computations that may fail and keep a log of what they do.

One computation refines another if it does the same wherever the other returns something: the same
value, and the same log.  Where the other fails nothing is asked of it.  Refinement goes through a
sequence of computations, and so does what holds of every entry of their logs.
-/
import Mathlib.Init

/-- A result, or what ended the computation, and the log up to there. -/
structure Logged (κ ε α : Type) where
  result : Except ε α
  log : List κ

namespace Logged

variable {κ ε α β : Type}

def ok (a : α) : Logged κ ε α := ⟨.ok a, []⟩

def error (e : ε) : Logged κ ε α := ⟨.error e, []⟩

def of (result : Except ε α) : Logged κ ε α := ⟨result, []⟩

/-- `entries` are logged before the computation. -/
def after (entries : List κ) (x : Logged κ ε α) : Logged κ ε α := ⟨x.result, entries ++ x.log⟩

def bind (x : Logged κ ε α) (f : α → Logged κ ε β) : Logged κ ε β :=
  match x.result with
  | .ok a => (f a).after x.log
  | .error e => ⟨.error e, x.log⟩

@[simp] theorem log_ok (a : α) : (ok a : Logged κ ε α).log = [] := rfl

@[simp] theorem after_nil (x : Logged κ ε α) : x.after [] = x := rfl

@[simp] theorem ok_bind (a : α) (f : α → Logged κ ε β) : (ok a).bind f = f a := rfl

@[simp] theorem error_bind (e : ε) (f : α → Logged κ ε β) : (error e).bind f = error e := rfl

@[simp] theorem of_ok (a : α) : (of (.ok a) : Logged κ ε α) = ok a := rfl

@[simp] theorem of_error (e : ε) : (of (.error e) : Logged κ ε α) = error e := rfl

theorem after_bind (x : Logged κ ε α) (entries : List κ) (f : α → Logged κ ε β) :
    (x.after entries).bind f = (x.bind f).after entries := by
  unfold bind
  cases hresult : x.result with
  | error e => simp [after, hresult]
  | ok a => simp [after, hresult]

theorem bind_assoc {γ : Type} (x : Logged κ ε α) (f : α → Logged κ ε β) (g : β → Logged κ ε γ) :
    (x.bind f).bind g = x.bind fun a => (f a).bind g := by
  cases hresult : x.result with
  | error e => simp [bind, hresult]
  | ok a =>
    have hleft : x.bind f = (f a).after x.log := by simp [bind, hresult]
    have hright : (x.bind fun a => (f a).bind g) = ((f a).bind g).after x.log := by
      simp [bind, hresult]
    rw [hleft, hright, after_bind]

def Returns (x : Logged κ ε α) (a : α) (entries : List κ) : Prop :=
  x.result = .ok a ∧ x.log = entries

theorem returns_ok (a : α) : (ok a : Logged κ ε α).Returns a [] := ⟨rfl, rfl⟩

variable {x : Logged κ ε α} {f : α → Logged κ ε β} {a : α} {entries : List κ}

theorem Returns.bind {b : β} {others : List κ} (hx : x.Returns a entries)
    (hf : (f a).Returns b others) : (x.bind f).Returns b (entries ++ others) := by
  obtain ⟨hresult, hlog⟩ := hx
  unfold Logged.bind Returns
  rw [hresult]
  exact ⟨hf.1, by simp [after, hlog, hf.2]⟩

theorem Returns.of_bind {b : β} (h : (x.bind f).Returns b entries) :
    ∃ a first second, x.Returns a first ∧ (f a).Returns b second ∧ entries = first ++ second := by
  unfold Logged.bind Returns at h
  cases hresult : x.result with
  | error e =>
    rw [hresult] at h
    cases h.1
  | ok a =>
    rw [hresult] at h
    exact ⟨a, x.log, (f a).log, ⟨hresult, rfl⟩, ⟨h.1, rfl⟩, h.2.symm⟩

theorem Returns.unique {b : α} {others : List κ} (h : x.Returns a entries)
    (h' : x.Returns b others) : a = b ∧ entries = others := by
  have hab : (Except.ok a : Except ε α) = .ok b := h.1.symm.trans h'.1
  exact ⟨by injection hab, h.2.symm.trans h'.2⟩

theorem returns_of {result : Except ε α} :
    (of result : Logged κ ε α).Returns a entries ↔ result = .ok a ∧ entries = [] := by
  simp [of, Returns, eq_comm]

theorem returns_after {before : List κ} :
    (x.after before).Returns a entries ↔ ∃ rest, x.Returns a rest ∧ entries = before ++ rest := by
  simp [after, Returns, eq_comm, and_assoc]

/-! ### Refinement -/

/-- `y` does what `x` does, wherever `x` returns something. -/
def Refines (x y : Logged κ ε α) : Prop :=
  ∀ a entries, x.Returns a entries → y.Returns a entries

theorem Refines.refl (x : Logged κ ε α) : x.Refines x := fun _ _ h => h

theorem Refines.bind {y : Logged κ ε α} {g : α → Logged κ ε β} (hxy : x.Refines y)
    (hfg : ∀ a, (f a).Refines (g a)) : (x.bind f).Refines (y.bind g) := by
  intro b entries h
  obtain ⟨a, first, second, hx, hf, rfl⟩ := h.of_bind
  exact (hxy a first hx).bind (hfg a b second hf)

/-! ### Entries -/

/-- Every entry of the log is as `p` says. -/
def Logs (p : κ → Prop) (x : Logged κ ε α) : Prop := ∀ entry ∈ x.log, p entry

variable {p : κ → Prop}

theorem logs_ok (a : α) : (ok a : Logged κ ε α).Logs p := by simp [Logs, ok]

theorem logs_error (e : ε) : (error e : Logged κ ε α).Logs p := by simp [Logs, error]

theorem logs_of (result : Except ε α) : (of result : Logged κ ε α).Logs p := by simp [Logs, of]

theorem Logs.after (hx : x.Logs p) (hentries : ∀ entry ∈ entries, p entry) :
    (x.after entries).Logs p := by
  intro entry hentry
  rcases List.mem_append.mp hentry with hbefore | hafter
  · exact hentries entry hbefore
  · exact hx entry hafter

theorem Logs.bind (hx : x.Logs p) (hf : ∀ a, (f a).Logs p) : (x.bind f).Logs p := by
  unfold Logged.bind
  cases x.result with
  | error e => exact hx
  | ok a => exact (hf a).after hx

end Logged

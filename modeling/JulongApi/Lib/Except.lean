/-
Programs that may fail, as `Except`: what a sequence of steps and a loop over a list return.
-/
import Mathlib.Init

namespace JulongApi

variable {ε α β : Type}

@[simp] theorem ok_bind (a : α) (f : α → Except ε β) : (Except.ok a >>= f) = f a := rfl

@[simp] theorem error_bind (e : ε) (f : α → Except ε β) :
    (Except.error e >>= f) = Except.error e := rfl

@[simp] theorem pure_eq_ok (a : α) : (pure a : Except ε α) = .ok a := rfl

variable {x : Except ε α} {xs : List α} {P : α → Prop}

theorem bind_eq_ok {f : α → Except ε β} {b : β} :
    (x >>= f) = .ok b ↔ ∃ a, x = .ok a ∧ f a = .ok b := by
  cases x with
  | error e => simp
  | ok a => simp

theorem guard_eq_ok {p : Prop} [Decidable p] {e : ε} {a : α} :
    (if p then .error e else x) = .ok a ↔ ¬p ∧ x = .ok a := by
  split <;> simp [*]

theorem eq_ok_get (h : x.toOption.isSome = true) : x = .ok (x.toOption.get h) := by
  cases x with
  | error e => cases h
  | ok a => rfl

theorem eq_some_ok_get {x : Option (Except ε α)} (h : (x.bind (·.toOption)).isSome = true) :
    x = some (.ok ((x.bind (·.toOption)).get h)) := by
  cases x with
  | none => cases h
  | some result =>
    cases result with
    | error e => cases h
    | ok a => rfl

theorem forM_eq_ok {f : α → Except ε Unit} : xs.forM f = .ok () ↔ ∀ x ∈ xs, f x = .ok () := by
  induction xs with
  | nil => simp
  | cons x xs ih =>
    show (f x >>= fun _ => xs.forM f) = .ok () ↔ _
    rw [bind_eq_ok, List.forall_mem_cons, ← ih]
    exact ⟨fun ⟨_, hx, hxs⟩ => ⟨hx, hxs⟩, fun ⟨hx, hxs⟩ => ⟨(), hx, hxs⟩⟩

theorem mapM_eq_ok {f : α → Except ε β} (h : ∀ x ∈ xs, ∃ y, f x = .ok y) :
    ∃ ys, xs.mapM f = .ok ys ∧ ∀ y, y ∈ ys ↔ ∃ x ∈ xs, f x = .ok y := by
  induction xs with
  | nil => exact ⟨[], rfl, by simp⟩
  | cons x xs ih =>
    obtain ⟨y, hy⟩ := h x (by simp)
    obtain ⟨ys, hys, hmem⟩ := ih fun x hx => h x (List.mem_cons_of_mem _ hx)
    refine ⟨y :: ys, by simp [List.mapM_cons, hy, hys], fun z => ?_⟩
    simp [hmem, hy, eq_comm]

theorem mapM_ok_imp {f : α → Except ε β} : ∀ {ys}, xs.mapM f = .ok ys →
    (∀ x ∈ xs, ∃ y ∈ ys, f x = .ok y) ∧ ∀ y ∈ ys, ∃ x ∈ xs, f x = .ok y := by
  induction xs with
  | nil =>
    intro ys h
    cases h
    simp
  | cons x xs ih =>
    intro ys h
    rw [List.mapM_cons] at h
    obtain ⟨y, hy, h⟩ := bind_eq_ok.mp h
    obtain ⟨rest, hrest, h⟩ := bind_eq_ok.mp h
    cases h
    obtain ⟨hall, hfrom⟩ := ih hrest
    constructor
    · intro z hz
      rcases List.mem_cons.mp hz with rfl | hz
      · exact ⟨y, by simp, hy⟩
      · obtain ⟨w, hw, hzw⟩ := hall z hz
        exact ⟨w, List.mem_cons_of_mem _ hw, hzw⟩
    · intro w hw
      rcases List.mem_cons.mp hw with rfl | hw
      · exact ⟨x, by simp, hy⟩
      · obtain ⟨z, hz, hzw⟩ := hfrom w hw
        exact ⟨z, List.mem_cons_of_mem _ hz, hzw⟩

theorem foldl_induct {σ : Type} {f : σ → α → σ} (Inv : σ → List α → Prop)
    (hstep : ∀ s l a, P a → a ∉ l → Inv s l → Inv (f s a) (l ++ [a])) :
    ∀ {xs : List α} {s : σ} {l : List α}, (∀ a ∈ xs, P a) → (l ++ xs).Nodup → Inv s l →
      Inv (xs.foldl f s) (l ++ xs) := by
  intro xs
  induction xs with
  | nil =>
    intro s l _ _ hinv
    rw [List.append_nil]
    exact hinv
  | cons a rest ih =>
    intro s l hP hnodup hinv
    obtain ⟨ha, hrest⟩ := List.forall_mem_cons.mp hP
    have hfresh : a ∉ l := fun hmem => (List.nodup_append.mp hnodup).2.2 a hmem a (by simp) rfl
    rw [List.append_cons] at hnodup ⊢
    exact ih hrest hnodup (hstep s l a ha hfresh hinv)

section Fold

variable {σ : Type} {f : σ → α → Except ε σ}

theorem foldlM_ok_induct (Inv : σ → List α → Prop)
    (hstep : ∀ s l a t, Inv s l → f s a = .ok t → Inv t (l ++ [a])) :
    ∀ {xs : List α} {s t : σ} {l : List α}, Inv s l → xs.foldlM f s = .ok t → Inv t (l ++ xs) := by
  intro xs
  induction xs with
  | nil =>
    intro s t l hinv h
    rw [List.append_nil, ← Except.ok.inj h]
    exact hinv
  | cons a rest ih =>
    intro s t l hinv h
    rw [List.foldlM_cons] at h
    obtain ⟨middle, hmiddle, h⟩ := bind_eq_ok.mp h
    have hrest := ih (hstep s l a middle hinv hmiddle) h
    rw [List.append_assoc] at hrest
    exact hrest

/-- A loop whose turns fail only for what was taken in before: it goes through if no two elements
are at odds, and none with an earlier one. -/
theorem foldlM_ok_iff (Inv : σ → List α → Prop) {R : α → α → Prop}
    (hstep : ∀ s l a t, Inv s l → f s a = .ok t → Inv t (l ++ [a]))
    (hok : ∀ s l a, P a → Inv s l → ((∃ t, f s a = .ok t) ↔ ∀ x ∈ l, R x a)) :
    ∀ {xs : List α} {s : σ} {l : List α}, (∀ a ∈ xs, P a) → Inv s l →
      ((∃ t, xs.foldlM f s = .ok t) ↔ xs.Pairwise R ∧ ∀ x ∈ l, ∀ a ∈ xs, R x a) := by
  intro xs
  induction xs with
  | nil =>
    intro s l _ _
    exact ⟨fun _ => ⟨.nil, by simp⟩, fun _ => ⟨s, rfl⟩⟩
  | cons a rest ih =>
    intro s l hP hinv
    obtain ⟨ha, hrest⟩ := List.forall_mem_cons.mp hP
    rw [List.foldlM_cons, List.pairwise_cons]
    constructor
    · rintro ⟨t, h⟩
      obtain ⟨middle, hmiddle, h⟩ := bind_eq_ok.mp h
      have hfirst := (hok s l a ha hinv).mp ⟨middle, hmiddle⟩
      obtain ⟨hpairwise, hlater⟩ := (ih hrest (hstep s l a middle hinv hmiddle)).mp ⟨t, h⟩
      refine ⟨⟨fun b hb => hlater a (by simp) b hb, hpairwise⟩, fun x hx => ?_⟩
      exact List.forall_mem_cons.mpr
        ⟨hfirst x hx, hlater x (List.mem_append_left _ hx)⟩
    · rintro ⟨⟨hfirst, hpairwise⟩, hearlier⟩
      obtain ⟨middle, hmiddle⟩ :=
        (hok s l a ha hinv).mpr fun x hx => hearlier x hx a List.mem_cons_self
      have hlater : ∀ x ∈ l ++ [a], ∀ b ∈ rest, R x b := by
        intro x hx b hb
        obtain hx | hx := List.mem_append.mp hx
        · exact hearlier x hx b (List.mem_cons_of_mem _ hb)
        · obtain rfl := List.mem_singleton.mp hx
          exact hfirst b hb
      obtain ⟨t, ht⟩ :=
        (ih hrest (hstep s l a middle hinv hmiddle)).mpr ⟨hpairwise, hlater⟩
      exact ⟨t, bind_eq_ok.mpr ⟨middle, hmiddle, ht⟩⟩

end Fold

end JulongApi

/-
Machines that take one atomic step at a time, and what their runs preserve.

A machine is a partial step function: `step s a = some t` when action `a` is
enabled in `s` and leads to `t`.  Whatever the environment decides (a reply, a
failure, which party moves next) is part of the action, so a run is a list of
actions and every interleaving is one of them.

Two rules are used of it.  `run_invariant` carries a predicate along every run whose
actions meet a side condition in the state they are taken from; `run_preserves` is
the case of no condition, plain reachability, and `meets_iff_always` the case of a
condition that is exact; `run_verdict` is for a condition that a run fails once and for all;
`meets_of_invariant` trades one condition for another.  `run_sum`
carries a quantity that every action moves by an amount of its own.
-/
import Mathlib

namespace Machine

variable {σ α : Type} (step : σ → α → Option σ)

/-- The state a run ends in, when every action is enabled as its turn comes. -/
def run : σ → List α → Option σ
  | s, [] => some s
  | s, a :: rest =>
    match step s a with
    | none => none
    | some t => run t rest

/-- Every action of the run meets `cond` in the state it is taken from. -/
def Meets (cond : σ → α → Prop) : σ → List α → Prop
  | _, [] => True
  | s, a :: rest => cond s a ∧ ∀ t, step s a = some t → Meets cond t rest

/-- Whether a run meets a condition that can be tested can be tested. -/
instance decidableMeets {cond : σ → α → Prop} [∀ s a, Decidable (cond s a)] :
    ∀ (acts : List α) (s : σ), Decidable (Meets step cond s acts)
  | [], _ => isTrue trivial
  | a :: rest, s =>
    have : ∀ t, Decidable (Meets step cond t rest) := decidableMeets rest
    inferInstanceAs (Decidable (cond s a ∧ ∀ t ∈ step s a, Meets step cond t rest))

@[simp] theorem run_nil (s : σ) : run step s [] = some s := rfl

theorem run_cons {s t : σ} {a : α} {rest : List α} (h : run step s (a :: rest) = some t) :
    ∃ mid, step s a = some mid ∧ run step mid rest = some t := by
  cases hstep : step s a with
  | none => simp [run, hstep] at h
  | some mid => exact ⟨mid, rfl, by simpa [run, hstep] using h⟩

theorem run_some (f : σ → α → σ) : ∀ (acts : List α) (s : σ),
    run (fun s a => some (f s a)) s acts = some (acts.foldl f s) := by
  intro acts
  induction acts with
  | nil => exact fun s => rfl
  | cons a rest ih => exact fun s => ih (f s a)

variable {step}

theorem run_append {acts more : List α} : ∀ {s mid : σ}, run step s acts = some mid →
    run step s (acts ++ more) = run step mid more := by
  induction acts with
  | nil =>
    intro s mid h
    obtain rfl : s = mid := by simpa using h
    rfl
  | cons a rest ih =>
    intro s mid h
    obtain ⟨next, hnext, hrest⟩ := run_cons step h
    rw [List.cons_append, run, hnext]
    exact ih hrest

variable {cond : σ → α → Prop}

theorem run_invariant (Inv : σ → Prop)
    (hstep : ∀ s a t, Inv s → cond s a → step s a = some t → Inv t) :
    ∀ (acts : List α) (s t : σ), Inv s → Meets step cond s acts →
      run step s acts = some t → Inv t := by
  intro acts
  induction acts with
  | nil =>
    intro s t hinv _ hrun
    simp only [run_nil, Option.some.injEq] at hrun
    exact hrun ▸ hinv
  | cons a rest ih =>
    intro s t hinv hmeets hrun
    obtain ⟨mid, hmid, hrest⟩ := run_cons step hrun
    exact ih mid t (hstep s a mid hinv hmeets.1 hmid) (hmeets.2 mid hmid) hrest

/-- Actions that meet the condition in whatever state make up a run that does. -/
theorem meets_of_forall : ∀ {acts : List α} (s : σ),
    (∀ a ∈ acts, ∀ s, cond s a) → Meets step cond s acts := by
  intro acts
  induction acts with
  | nil => intro _ _; trivial
  | cons a rest ih =>
    intro s h
    exact ⟨h a (by simp) s, fun t _ => ih t fun b hb => h b (List.mem_cons_of_mem _ hb)⟩

theorem meets_append : ∀ {acts more : List α} {s : σ},
    Meets step cond s acts → (∀ t, run step s acts = some t → Meets step cond t more) →
      Meets step cond s (acts ++ more) := by
  intro acts
  induction acts with
  | nil =>
    intro more s _ hmore
    exact hmore s rfl
  | cons a rest ih =>
    intro more s hmeets hmore
    refine ⟨hmeets.1, fun mid hmid => ih (hmeets.2 mid hmid) fun t ht => hmore t ?_⟩
    simpa only [run, hmid] using ht

/-- Along an invariant of the runs that meet one condition, another one may follow from it. -/
theorem meets_of_invariant (Inv : σ → Prop) {cond' : σ → α → Prop}
    (hstep : ∀ s a t, Inv s → cond s a → step s a = some t → Inv t)
    (hcond : ∀ s a, Inv s → cond s a → cond' s a) :
    ∀ (acts : List α) (s : σ), Inv s → Meets step cond s acts → Meets step cond' s acts := by
  intro acts
  induction acts with
  | nil => intro _ _ _; trivial
  | cons a rest ih =>
    intro s hinv hmeets
    exact ⟨hcond s a hinv hmeets.1, fun t ht =>
      ih t (hstep s a t hinv hmeets.1 ht) (hmeets.2 t ht)⟩

theorem meets_true (acts : List α) (s : σ) : Meets step (fun _ _ => True) s acts :=
  meets_of_forall s fun _ _ _ => trivial

theorem run_preserves (Inv : σ → Prop) (hstep : ∀ s a t, Inv s → step s a = some t → Inv t)
    {acts : List α} {s t : σ} (hinv : Inv s) (hrun : run step s acts = some t) : Inv t := by
  have hstep' : ∀ s a t, Inv s → True → step s a = some t → Inv t :=
    fun s a t hi _ ht => hstep s a t hi ht
  exact run_invariant Inv hstep' acts s t hinv (meets_true acts s) hrun

/--
If, along an invariant `Base` of the steps of the kind `P`, such a step keeps `Inv` exactly when
it meets `cond`, and one that is not enabled meets it, then of the runs of such steps those that
meet `cond` are those in which `Inv` holds all the way.
-/
theorem meets_iff_always_of (Base Inv : σ → Prop) {P : α → Prop}
    (hbase : ∀ s a t, Base s → P a → step s a = some t → Base t)
    (hstep : ∀ s a t, Base s → Inv s → P a → step s a = some t → (Inv t ↔ cond s a))
    (hstuck : ∀ s a, step s a = none → cond s a) :
    ∀ (acts : List α) (s : σ), Base s → Inv s → (∀ a ∈ acts, P a) →
      (Meets step cond s acts ↔ ∀ pre, pre <+: acts → ∀ t, run step s pre = some t → Inv t) := by
  intro acts
  induction acts with
  | nil =>
    intro s _ hinv _
    refine ⟨fun _ pre hpre t hrun => ?_, fun _ => trivial⟩
    obtain rfl := List.prefix_nil.mp hpre
    simp only [run_nil, Option.some.injEq] at hrun
    exact hrun ▸ hinv
  | cons a rest ih =>
    intro s hs hinv hP
    have hPa : P a := hP a (by simp)
    have hPrest : ∀ b ∈ rest, P b := fun b hb => hP b (List.mem_cons_of_mem _ hb)
    constructor
    · intro hmeets pre hpre t hrun
      cases pre with
      | nil =>
        simp only [run_nil, Option.some.injEq] at hrun
        exact hrun ▸ hinv
      | cons b pre =>
        obtain ⟨rfl, hpre'⟩ := List.cons_prefix_cons.mp hpre
        obtain ⟨mid, hmid, hrest⟩ := run_cons step hrun
        have hmidInv : Inv mid := (hstep s b mid hs hinv hPa hmid).mpr hmeets.1
        have hmidBase : Base mid := hbase s b mid hs hPa hmid
        exact (ih mid hmidBase hmidInv hPrest).mp (hmeets.2 mid hmid) pre hpre' t hrest
    · intro halways
      cases hnext : step s a with
      | none => exact ⟨hstuck s a hnext, fun t ht => absurd (hnext.symm.trans ht) (by simp)⟩
      | some mid =>
        have hmid : Inv mid := halways [a] (by simp) mid (by simp [run, hnext])
        refine ⟨(hstep s a mid hs hinv hPa hnext).mp hmid, ?_⟩
        intro t ht
        cases hnext.symm.trans ht
        have hmidBase : Base mid := hbase s a mid hs hPa hnext
        refine (ih mid hmidBase hmid hPrest).mpr fun pre hpre t hrun => ?_
        exact halways (a :: pre) (by simpa using hpre) t (by simpa [run, hnext] using hrun)

theorem meets_iff_always (Inv : σ → Prop)
    (hstep : ∀ s a t, Inv s → step s a = some t → (Inv t ↔ cond s a))
    (hstuck : ∀ s a, step s a = none → cond s a) (acts : List α) (s : σ) (hinv : Inv s) :
    Meets step cond s acts ↔ ∀ pre, pre <+: acts → ∀ t, run step s pre = some t → Inv t :=
  meets_iff_always_of (fun _ => True) Inv (P := fun _ => True) (fun _ _ _ _ _ _ => trivial)
    (fun s a t _ hi _ ht => hstep s a t hi ht) hstuck acts s trivial hinv fun _ _ => trivial

/--
If a good state stays good under a step that meets `cond` and goes bad under one that does not, and
a bad state stays bad, then where a run leads tells whether its steps have met `cond`.
-/
theorem run_verdict (Good Bad : σ → Prop)
    (hgood : ∀ s a t, Good s → step s a = some t → (cond s a → Good t) ∧ (¬cond s a → Bad t))
    (hbad : ∀ s a t, Bad s → step s a = some t → Bad t) :
    ∀ (acts : List α) (s t : σ), Good s → run step s acts = some t →
      (Meets step cond s acts → Good t) ∧ (¬Meets step cond s acts → Bad t) := by
  have hbadRun : ∀ (acts : List α) (s t : σ), Bad s → run step s acts = some t → Bad t :=
    fun acts s t hs hrun => run_preserves Bad hbad hs hrun
  intro acts
  induction acts with
  | nil =>
    intro s t hs hrun
    simp only [run_nil, Option.some.injEq] at hrun
    exact ⟨fun _ => hrun ▸ hs, fun hnot => absurd trivial hnot⟩
  | cons a rest ih =>
    intro s t hs hrun
    obtain ⟨mid, hmid, hrest⟩ := run_cons step hrun
    by_cases hcond : cond s a
    · have hverdict := ih mid t ((hgood s a mid hs hmid).1 hcond) hrest
      constructor
      · intro hmeets
        exact hverdict.1 (hmeets.2 mid hmid)
      · intro hnot
        refine hverdict.2 fun hmeets => hnot ⟨hcond, fun u hu => ?_⟩
        cases hmid.symm.trans hu
        exact hmeets
    · refine ⟨fun hmeets => absurd hmeets.1 hcond, fun _ => ?_⟩
      exact hbadRun rest mid t ((hgood s a mid hs hmid).2 hcond) hrest

theorem run_sum {G : Type} [AddMonoid G] (Inv : σ → Prop) (m : σ → G) (w : α → G)
    (hstep : ∀ s a t, Inv s → cond s a → step s a = some t → Inv t ∧ m t = m s + w a) :
    ∀ (acts : List α) (s t : σ), Inv s → Meets step cond s acts →
      run step s acts = some t → m t = m s + (acts.map w).sum := by
  intro acts
  induction acts with
  | nil =>
    intro s t _ _ hrun
    simp only [run_nil, Option.some.injEq] at hrun
    rw [List.map_nil, List.sum_nil, add_zero, hrun]
  | cons a rest ih =>
    intro s t hinv hmeets hrun
    obtain ⟨mid, hmid, hrest⟩ := run_cons step hrun
    obtain ⟨hinv', hmoved⟩ := hstep s a mid hinv hmeets.1 hmid
    rw [ih mid t hinv' (hmeets.2 mid hmid) hrest, hmoved, List.map_cons, List.sum_cons,
      add_assoc]

end Machine

/-
When `UsedVarsByHash` tells the truth.

Whatever the calls do, an entry of the cache is the compiled expression whose digest it is
under, as long as callers pass the digest of their expression and no two expressions share
one (`Consistent`).  So an answer that comes from the cache is right.  What can go wrong is
the last lookup: the call has stored the entry and looks for it again, and if the cache has
been emptied in between it answers that the expression uses nothing.  That the entry is
still there, or there again, is exactly what is needed (`used_vars_exact_iff`).
-/
import JulongApi.Lib.Pool
import JulongApi.ExprCache
import JulongApi.Proofs.BillingExpr

namespace JulongApi

open BillingExpr

/-! ### Lookups and stores -/

variable {hash : String}

variable {row : String × CachedEntry}

namespace ExprCache

theorem find_empty (hash : String) : empty.find hash = none := rfl

theorem find_store {cache : ExprCache} {hash' : String} {entry : CachedEntry}
    (h : (cache.store hash entry).find hash' = some row) :
    row = (hash, entry) ∧ hash' = hash ∨ cache.find hash' = some row := by
  have hput : ∀ base : ExprCache, (base.put (hash, entry)).find hash' = some row →
      row = (hash, entry) ∧ hash' = hash ∨ base.find hash' = some row := by
    intro base hbase
    by_cases hkey : hash = hash'
    · subst hkey
      have hself : (base.put (hash, entry)).find hash = some (hash, entry) :=
        Table.find_put_self base (hash, entry)
      exact .inl ⟨Option.some.inj (hbase.symm.trans hself), rfl⟩
    · rw [Table.find_put_ne hkey] at hbase
      exact .inr hbase
  unfold store at h
  split at h
  · rcases hput empty h with hnew | hold
    · exact .inl hnew
    · cases hold
  · exact hput cache h

end ExprCache

namespace ExprCacheSystem

variable {lib : ExprLib} {exprs : Set String}

/-! ### Calls and what they may ask for -/

/-- The caller passes the digest of an expression among `exprs`. -/
def Honest (lib : ExprLib) (exprs : Set String) : ExprCacheAct → Prop
  | .usedVars exprStr hash => exprStr ∈ exprs ∧ hash = lib.exprHashString exprStr
  | .compile exprStr hash => exprStr ∈ exprs ∧ hash = lib.exprHashString exprStr
  | .advance _ => True
  | .invalidate => True

/-- The last lookup of a call finds an entry where the call has stored or found one. -/
def Kept (s : ExprCacheSystem) : ExprCacheAct → Prop
  | .advance i => ∀ exprStr hash, s.calls[i]? = some (.lookingUp exprStr hash) →
      s.cache.find hash ≠ none
  | _ => True

/-- An answer to a compilable expression is the set of its identifiers. -/
def RightCall (lib : ExprLib) : ExprCall → Prop
  | .returned exprStr _ vars => ∀ entry, compileEntry lib exprStr = .ok entry →
      ∃ used, vars = some used ∧ ∀ name, name ∈ used ↔ entry.prog.Mentions name ∧
        name ∉ [requestRuleTraceFunction, requestRuleTraceIntFunction]
  | _ => True

def Right (lib : ExprLib) (s : ExprCacheSystem) : Prop := ∀ call ∈ s.calls, RightCall lib call

/-! ### The cache and the calls agree with the compiler -/

def CallOK (lib : ExprLib) (exprs : Set String) : ExprCall → Prop
  | .usedVars exprStr hash => exprStr ∈ exprs ∧ hash = lib.exprHashString exprStr
  | .compiling _ exprStr hash => exprStr ∈ exprs ∧ hash = lib.exprHashString exprStr
  | .storing _ exprStr hash entry => exprStr ∈ exprs ∧ hash = lib.exprHashString exprStr ∧
      compileEntry lib exprStr = .ok entry
  | .lookingUp exprStr hash => exprStr ∈ exprs ∧ hash = lib.exprHashString exprStr ∧
      ∃ entry, compileEntry lib exprStr = .ok entry
  | .returned _ _ _ => True
  | .done => True

structure Consistent (lib : ExprLib) (exprs : Set String) (s : ExprCacheSystem) : Prop where
  /-- An entry is the compiled expression whose digest it is under. -/
  entries : ∀ hash row, s.cache.find hash = some row →
    ∃ exprStr ∈ exprs, lib.exprHashString exprStr = hash ∧ compileEntry lib exprStr = .ok row.2
  calls : ∀ call ∈ s.calls, CallOK lib exprs call

theorem consistent_idle : Consistent lib exprs idle where
  entries := by
    intro hash row h
    cases h
  calls := by simp [idle]

variable {exprStr : String}

namespace Consistent

variable {s : ExprCacheSystem} {i : Nat} {call : ExprCall}

theorem entry (ok : Consistent lib exprs s) (hdigest : Set.InjOn lib.exprHashString exprs)
    (hexpr : exprStr ∈ exprs) (hfind : s.cache.find (lib.exprHashString exprStr) = some row) :
    compileEntry lib exprStr = .ok row.2 := by
  obtain ⟨other, hother, hhash, hcompile⟩ := ok.entries _ _ hfind
  exact hdigest hother hexpr hhash ▸ hcompile

theorem start (ok : Consistent lib exprs s) (hcall : CallOK lib exprs call) :
    Consistent lib exprs (s.start call) where
  entries := ok.entries
  calls := by
    intro other hother
    rcases List.mem_append.mp hother with hold | hnew
    · exact ok.calls other hold
    · obtain rfl := List.mem_singleton.mp hnew
      exact hcall

theorem goOn (ok : Consistent lib exprs s) (hcall : CallOK lib exprs call) :
    Consistent lib exprs (s.goOn i call) where
  entries := ok.entries
  calls := by
    intro other hother
    rcases Pool.mem_set_cases hother with rfl | ⟨k, -, hk⟩
    · exact hcall
    · exact ok.calls other (List.mem_of_getElem? hk)

theorem store (ok : Consistent lib exprs s) {entry : CachedEntry} (hexpr : exprStr ∈ exprs)
    (hhash : hash = lib.exprHashString exprStr) (hcompile : compileEntry lib exprStr = .ok entry) :
    Consistent lib exprs { s with cache := s.cache.store hash entry } where
  entries := by
    intro hash' row hfind
    rcases ExprCache.find_store hfind with ⟨rfl, rfl⟩ | hold
    · exact ⟨exprStr, hexpr, hhash.symm, hcompile⟩
    · exact ok.entries hash' row hold
  calls := ok.calls

theorem invalidate (ok : Consistent lib exprs s) :
    Consistent lib exprs { s with cache := ExprCache.empty } where
  entries := by
    intro hash row h
    cases h
  calls := ok.calls

end Consistent

theorem callOK_compiled {entry : CachedEntry} (forVars : Bool) (hexpr : exprStr ∈ exprs)
    (hhash : hash = lib.exprHashString exprStr) (hcompile : compileEntry lib exprStr = .ok entry) :
    CallOK lib exprs (compiled forVars exprStr hash) := by
  cases forVars with
  | true => exact ⟨hexpr, hhash, entry, hcompile⟩
  | false => trivial

theorem callOK_failed (forVars : Bool) (exprStr hash : String) :
    CallOK lib exprs (failed forVars exprStr hash) := by
  cases forVars <;> trivial

theorem rightCall_compiled (forVars : Bool) : RightCall lib (compiled forVars exprStr hash) := by
  cases forVars <;> trivial

theorem rightCall_failed (forVars : Bool) {e : CompileError}
    (hcompile : compileEntry lib exprStr = .error e) :
    RightCall lib (failed forVars exprStr hash) := by
  cases forVars with
  | true => exact fun entry hentry => absurd (hcompile.symm.trans hentry) (by simp)
  | false => trivial

theorem compile_right {s : ExprCacheSystem} (hdigest : Set.InjOn lib.exprHashString exprs)
    (ok : Consistent lib exprs s) (forVars : Bool)
    (hcall : exprStr ∈ exprs ∧ hash = lib.exprHashString exprStr) :
    CallOK lib exprs (compileEntryFromCacheByHash lib s.cache forVars exprStr hash) ∧
      RightCall lib (compileEntryFromCacheByHash lib s.cache forVars exprStr hash) := by
  obtain ⟨hexpr, hhash⟩ := hcall
  unfold compileEntryFromCacheByHash
  cases hfind : s.cache.find hash with
  | some row =>
    have hcompile : compileEntry lib exprStr = .ok row.2 :=
      ok.entry hdigest hexpr (hhash ▸ hfind)
    exact ⟨callOK_compiled forVars hexpr hhash hcompile, rightCall_compiled forVars⟩
  | none =>
    cases hcompile : compileEntry lib exprStr with
    | error e => exact ⟨callOK_failed forVars exprStr hash, rightCall_failed forVars hcompile⟩
    | ok entry => exact ⟨⟨hexpr, hhash, hcompile⟩, trivial⟩

/-! ### What a step does to the answers -/

variable {s t : ExprCacheSystem} {i : Nat} {call call' : ExprCall}

theorem rightCall_of_entry {entry : CachedEntry} (hcompile : compileEntry lib exprStr = .ok entry) :
    RightCall lib (.returned exprStr hash (some entry.usedVars)) := by
  intro entry' hcompile'
  cases hcompile.symm.trans hcompile'
  refine ⟨entry.usedVars, rfl, fun name => ?_⟩
  rw [compileEntry_usedVars hcompile, mem_extractUsedVars]

theorem right_start (hright : Right lib s) (hcall : RightCall lib call) :
    Right lib (s.start call) := by
  intro other hother
  rcases List.mem_append.mp hother with hold | hnew
  · exact hright other hold
  · obtain rfl := List.mem_singleton.mp hnew
    exact hcall

theorem right_goOn_iff (hright : Right lib s) (hi : s.calls[i]? = some call) :
    Right lib (s.goOn i call') ↔ RightCall lib call' := by
  constructor
  · intro h
    have hlt : i < s.calls.length := (List.getElem?_eq_some_iff.mp hi).1
    exact h call' (List.mem_set hlt call')
  · intro h other hother
    rcases Pool.mem_set_cases hother with rfl | ⟨k, -, hk⟩
    · exact h
    · exact hright other (List.mem_of_getElem? hk)

theorem kept_advance (hi : s.calls[i]? = some call)
    (hcall : ∀ exprStr hash, call ≠ .lookingUp exprStr hash) : Kept s (.advance i) := by
  intro exprStr hash hlook
  exact absurd (Option.some.inj (hi.symm.trans hlook)) (hcall exprStr hash)

theorem rightCall_lookup_iff (ok : Consistent lib exprs s)
    (hdigest : Set.InjOn lib.exprHashString exprs)
    (hi : s.calls[i]? = some (.lookingUp exprStr hash)) :
    RightCall lib (.returned exprStr hash ((s.cache.find hash).map fun row => row.2.usedVars)) ↔
      Kept s (.advance i) := by
  obtain ⟨hexpr, hhash, entry, hcompile⟩ := ok.calls _ (List.mem_of_getElem? hi)
  cases hfind : s.cache.find hash with
  | none =>
    constructor
    · intro h
      obtain ⟨used, hused, -⟩ := h entry hcompile
      cases hused
    · intro h
      exact absurd hfind (h exprStr hash hi)
  | some row =>
    refine iff_of_true ?_ ?_
    · exact rightCall_of_entry (ok.entry hdigest hexpr (hhash ▸ hfind))
    · intro exprStr' hash' hlook
      cases hi.symm.trans hlook
      simp [hfind]

variable {a : ExprCacheAct}

theorem step_right (hdigest : Set.InjOn lib.exprHashString exprs) (ok : Consistent lib exprs s)
    (ha : Honest lib exprs a) (hstep : step lib s a = some t) :
    Consistent lib exprs t ∧ (Right lib s → (Right lib t ↔ Kept s a)) := by
  cases a with
  | usedVars exprStr hash =>
    cases hstep
    by_cases hempty : exprStr = ""
    · rw [if_pos hempty]
      subst hempty
      have hnone : RightCall lib (.returned "" hash none) :=
        fun entry hentry => absurd hentry (compileEntry_empty lib)
      exact ⟨ok.start trivial, fun hright => iff_of_true (right_start hright hnone) trivial⟩
    · rw [if_neg hempty]
      exact ⟨ok.start ha, fun hright => iff_of_true (right_start hright trivial) trivial⟩
  | compile exprStr hash =>
    cases hstep
    exact ⟨ok.start ha, fun hright => iff_of_true (right_start hright trivial) trivial⟩
  | invalidate =>
    cases hstep
    exact ⟨ok.invalidate, fun hright => iff_of_true hright trivial⟩
  | advance i =>
    simp only [step] at hstep
    cases hi : s.calls[i]? with
    | none => simp [hi] at hstep
    | some call =>
      simp only [hi] at hstep
      have hcall := ok.calls call (List.mem_of_getElem? hi)
      cases call with
      | usedVars exprStr hash =>
        have hkept : Kept s (.advance i) := kept_advance hi (by simp)
        simp only [advance] at hstep
        cases hfind : s.cache.find hash with
        | none =>
          simp only [hfind] at hstep
          cases hstep
          refine ⟨ok.goOn hcall, fun hright => iff_of_true ?_ hkept⟩
          exact (right_goOn_iff hright hi).mpr trivial
        | some row =>
          simp only [hfind] at hstep
          cases hstep
          have hentry : compileEntry lib exprStr = .ok row.2 :=
            ok.entry hdigest hcall.1 (hcall.2 ▸ hfind)
          refine ⟨ok.goOn trivial, fun hright => iff_of_true ?_ hkept⟩
          exact (right_goOn_iff hright hi).mpr (rightCall_of_entry hentry)
      | compiling forVars exprStr hash =>
        have hkept : Kept s (.advance i) := kept_advance hi (by simp)
        cases hstep
        obtain ⟨hok, hanswer⟩ := compile_right hdigest ok forVars hcall
        refine ⟨ok.goOn hok, fun hright => iff_of_true ?_ hkept⟩
        exact (right_goOn_iff hright hi).mpr hanswer
      | storing forVars exprStr hash entry =>
        have hkept : Kept s (.advance i) := kept_advance hi (by simp)
        cases hstep
        obtain ⟨hexpr, hhash, hcompile⟩ := hcall
        have hnext := callOK_compiled forVars hexpr hhash hcompile
        refine ⟨(ok.store hexpr hhash hcompile).goOn hnext, fun hright => iff_of_true ?_ hkept⟩
        have hsame : Right lib { s with cache := s.cache.store hash entry } := hright
        exact (right_goOn_iff hsame hi).mpr (rightCall_compiled forVars)
      | lookingUp exprStr hash =>
        cases hstep
        refine ⟨ok.goOn trivial, fun hright => ?_⟩
        rw [right_goOn_iff hright hi, rightCall_lookup_iff ok hdigest hi]
      | returned _ _ _ => cases hstep
      | done => cases hstep

/-! ### Runs -/

theorem kept_of_stuck (hstuck : step lib s a = none) : Kept s a := by
  cases a with
  | advance i =>
    intro exprStr hash hi
    simp [step, hi, advance] at hstuck
  | usedVars _ _ => trivial
  | compile _ _ => trivial
  | invalidate => trivial

/--
**`UsedVarsByHash` answers with the identifiers of the compiled expression, whatever else runs,
exactly as long as the last lookup of a call still finds the entry it compiled.**
-/
theorem used_vars_exact_iff (lib : ExprLib) {exprs : Set String}
    (hdigest : Set.InjOn lib.exprHashString exprs) {acts : List ExprCacheAct}
    (hcalls : ∀ a ∈ acts, Honest lib exprs a) :
    Machine.Meets (step lib) Kept idle acts ↔
      ∀ pre, pre <+: acts → ∀ s, Machine.run (step lib) idle pre = some s → Right lib s := by
  have hidle : Right lib idle := by
    intro call hcall
    cases hcall
  exact Machine.meets_iff_always_of (Consistent lib exprs) (Right lib)
    (fun s a t ok ha ht => (step_right hdigest ok ha ht).1)
    (fun s a t ok hright ha ht => (step_right hdigest ok ha ht).2 hright)
    (fun s a h => kept_of_stuck h) acts idle consistent_idle hidle hcalls

def sampleLib : ExprLib where
  parse := fun text => if text = "p" then .ok (.identifier "p") else .error "unexpected token"
  read := fun _ text => if text = "p" then .ok (.identifier "p") else .error "unexpected token"
  build := fun _ tree => .ok tree
  print := fun _ => "p"
  exprHashString := fun text =>
    if text = "p" then "148de9c5a7a44d19e56cd9ae1a554bf67847afb0c58f6e12fa29ac7ddfca9940" else text
  parse_empty := ⟨"unexpected token", rfl⟩

def sampleHash : String := "148de9c5a7a44d19e56cd9ae1a554bf67847afb0c58f6e12fa29ac7ddfca9940"

def sampleEntry : CachedEntry where
  prog := .identifier "p"
  usedVars := ["p"]
  usedUsageKeys := []
  requestRules := []
  version := 1
  fixedPricing := false

theorem sample_digest : Set.InjOn sampleLib.exprHashString {"p"} := by
  intro a ha b hb _
  rw [Set.mem_singleton_iff.mp ha, Set.mem_singleton_iff.mp hb]

/-- The cache is emptied while no call is about to look its entry up again. -/
def calmRun : List ExprCacheAct :=
  [.usedVars "p" sampleHash, .advance 0, .advance 0, .advance 0, .advance 0, .invalidate]

theorem used_vars_sample :
    ∃ s, Machine.run (step sampleLib) idle calmRun = some s ∧ Right sampleLib s ∧
      s.calls[0]? = some (.returned "p" sampleHash (some ["p"])) := by
  have hcalls : ∀ a ∈ calmRun, Honest sampleLib {"p"} a := by
    simp [calmRun, Honest, sampleHash, sampleLib]
  have hmeets : Machine.Meets (step sampleLib) Kept idle calmRun := by
    refine ⟨trivial, fun s₁ h₁ => ?_⟩
    cases h₁
    refine ⟨kept_advance (show _ = some (ExprCall.usedVars "p" sampleHash) from rfl) (by simp),
      fun s₂ h₂ => ?_⟩
    cases h₂
    refine ⟨kept_advance (show _ = some (ExprCall.compiling true "p" sampleHash) from rfl) (by simp),
      fun s₃ h₃ => ?_⟩
    cases h₃
    refine ⟨kept_advance
      (show _ = some (ExprCall.storing true "p" sampleHash sampleEntry) from rfl) (by simp),
      fun s₄ h₄ => ?_⟩
    cases h₄
    refine ⟨fun exprStr hash hi => ?_, fun s₅ h₅ => ⟨trivial, fun _ _ => trivial⟩⟩
    obtain ⟨rfl, rfl⟩ := ExprCall.lookingUp.inj (Option.some.inj hi)
    exact Option.ne_none_iff_exists'.mpr ⟨(sampleHash, sampleEntry), rfl⟩
  have hright := (used_vars_exact_iff sampleLib sample_digest hcalls).mp hmeets calmRun
    (List.prefix_refl _)
  exact ⟨_, rfl, hright _ rfl, rfl⟩

/-- The cache is emptied between the store of a call and its last lookup. -/
def emptiedRun : List ExprCacheAct :=
  [.usedVars "p" sampleHash, .advance 0, .advance 0, .advance 0, .invalidate, .advance 0]

theorem emptied_cache_answers_nil :
    ∃ s entry, Machine.run (step sampleLib) idle emptiedRun = some s ∧
      compileEntry sampleLib "p" = .ok entry ∧ entry.prog.Mentions "p" ∧
      s.calls[0]? = some (.returned "p" sampleHash none) ∧ ¬Right sampleLib s := by
  refine ⟨_, sampleEntry, rfl, rfl, .identifier, rfl, fun hright => ?_⟩
  obtain ⟨used, hused, -⟩ := hright (.returned "p" sampleHash none)
    (List.mem_of_getElem? (i := 0) rfl) sampleEntry rfl
  cases hused

end ExprCacheSystem

end JulongApi

/-
A traced expression does what the expression does.

The patcher puts a call in the place of a request rule, and the call returns what the conditional
would have: its integer multiplier if both of its numbers are integers, and otherwise the multiplier
as a float.  So a patched tree is compared with the tree in which the integer of a rule with one
integer and one float is written as a float (`Node.floatRules`), and does the same as that one
wherever it returns something (`patch_alike`).  The tree itself may do something else: its integers
are exact where a float is not.
-/
import JulongApi.Proofs.RequestRulePatch

namespace JulongApi.BillingExpr

open FloatingPoint

variable {lib : ExprLib}

/-! ### Evaluations that do the same -/

variable {vm : Vm}

/-- `y` does what `x` does wherever `x` returns something. -/
def Vm.Refines (vm : Vm) (x y : vm.Computation) : Prop := ∀ scope, (x scope).Refines (y scope)

/-- A node of the language returns something on account of what its children return: an error ends
the evaluation. -/
structure Vm.Propagates (vm : Vm) : Prop where
  unary : ∀ op {x y : vm.Computation}, vm.Refines x y → vm.Refines (vm.unary op x) (vm.unary op y)
  binary : ∀ op {x y x' y' : vm.Computation}, vm.Refines x y → vm.Refines x' y' →
    vm.Refines (vm.binary op x x') (vm.binary op y y')
  builtin : ∀ name {xs ys : List vm.Computation}, List.Forall₂ vm.Refines xs ys →
    vm.Refines (vm.builtin name xs) (vm.builtin name ys)
  other : ∀ kind {xs ys : List vm.Computation}, List.Forall₂ vm.Refines xs ys →
    vm.Refines (vm.other kind xs) (vm.other kind ys)

def Vm.StrictBools (vm : Vm) : Prop := ∀ value b, vm.passBool value ≠ .ok b

/-- `y` does what `x` does, and where parameters are strict nothing else. -/
def Vm.Alike (vm : Vm) (x y : vm.Computation) : Prop :=
  vm.Refines x y ∧ (vm.StrictBools → vm.Refines y x)

theorem Vm.Alike.refl (x : vm.Computation) : vm.Alike x x :=
  ⟨fun _ => .refl _, fun _ _ => .refl _⟩

theorem Vm.Alike.bind {α : Type} {x y : vm.Scope → Logged HostCall String α}
    {f g : α → vm.Computation}
    (hxy : (∀ scope, (x scope).Refines (y scope)) ∧
      (vm.StrictBools → ∀ scope, (y scope).Refines (x scope)))
    (hfg : ∀ a, vm.Alike (f a) (g a)) :
    vm.Alike (fun scope => (x scope).bind fun a => f a scope)
      (fun scope => (y scope).bind fun a => g a scope) :=
  ⟨fun scope => (hxy.1 scope).bind fun a => (hfg a).1 scope,
    fun hstrict scope => (hxy.2 hstrict scope).bind fun a => (hfg a).2 hstrict scope⟩

variable {xs ys : List vm.Computation} {y : vm.Computation} {exp1 : Node} {number : Float64}

theorem Vm.Alike.all (h : List.Forall₂ vm.Alike xs ys) :
    List.Forall₂ vm.Refines xs ys ∧ (vm.StrictBools → List.Forall₂ vm.Refines ys xs) :=
  ⟨h.imp fun _ _ h => h.1, fun hstrict => (h.imp fun _ _ h => h.2 hstrict).flip⟩

theorem evaluateAll_alike (h : List.Forall₂ vm.Alike xs ys) :
    (∀ scope, (vm.evaluateAll xs scope).Refines (vm.evaluateAll ys scope)) ∧
      (vm.StrictBools → ∀ scope, (vm.evaluateAll ys scope).Refines (vm.evaluateAll xs scope)) := by
  induction h with
  | nil => exact ⟨fun _ => .refl _, fun _ _ => .refl _⟩
  | cons hhead _ ih =>
    constructor
    · intro scope
      exact (hhead.1 scope).bind fun a => (ih.1 scope).bind fun as => .refl _
    · intro hstrict scope
      exact (hhead.2 hstrict scope).bind fun a => (ih.2 hstrict scope).bind fun as => .refl _

/-! ### Rules -/

theorem eq_one_of_float64OfInt {n : Int} (h : float64OfInt n = 1) : n = 1 := by
  unfold float64OfInt at h
  dsimp only at h
  by_cases hlog : Nat.log 2 n.natAbs - 52 = 0
  · rw [hlog, pow_zero, Nat.mod_one, Nat.div_one, if_neg (by omega)] at h
    have hcast : ((n.sign * n.natAbs : Int) : ℚ) = 1 := by
      rw [Int.cast_mul, Int.cast_natCast, ← h]
      simp
    have hone : n.sign * n.natAbs = 1 := by exact_mod_cast hcast
    rwa [Int.sign_mul_natAbs] at hone
  · -- What is past 53 bits is converted to an even number.
    obtain ⟨j, hj⟩ := Nat.exists_eq_succ_of_ne_zero hlog
    rw [hj, pow_succ] at h
    have hsteps : ∃ steps : Nat, 
        (n.sign : ℚ) * ((steps : ℚ) * ((2 ^ j * 2 : Nat) : ℚ)) = 1 := ⟨_, h⟩
    obtain ⟨steps, h⟩ := hsteps
    have hcast : ((n.sign * (steps * 2 ^ j) * 2 : Int) : ℚ) = 1 := by
      push_cast
      push_cast at h
      linarith
    have heven : n.sign * (steps * 2 ^ j) * 2 = 1 := by exact_mod_cast hcast
    omega

theorem asFloat_of_number {node : Node} {value : ℚ} (h : requestRuleNumber node = some value) :
    node.asFloat = .float value := by
  cases node with
  | integer n =>
    cases h
    rfl
  | float q =>
    cases h
    rfl
  | _ => cases h

variable {x : vm.Computation} {exp2 : Node} {i : Nat} {calls : List HostCall}

theorem choice_alike (hxy : vm.Alike x y) (ruleIndex : Int) (value1 value2 : vm.Value) :
    vm.Alike
      (fun scope => (x scope).bind fun
        | .bool true => (Logged.ok value1).after (ruleCalls true ruleIndex true)
        | .bool false => .ok value2
        | _ => .error "the condition is not a bool")
      (fun scope => (y scope).bind fun matched =>
        (Logged.of (vm.boolArgument matched)).bind fun matched =>
        (Logged.ok (if matched then value1 else value2)).after
          (ruleCalls true ruleIndex matched)) := by
  refine Vm.Alike.bind hxy fun value => ?_
  cases value with
  | bool b => cases b <;> exact .refl _
  | _ =>
    constructor
    · intro scope a entries h
      cases h.1
    · intro hstrict scope a entries h
      obtain ⟨b, _, _, hb, _, _⟩ := h.of_bind
      exact absurd (Logged.returns_of.mp hb).1 (hstrict _ b)

theorem lookup_traceFunction (env : Env vm) :
    env.lookup requestRuleTraceFunction = some (.function requestRuleTraceFunction) ∧
      env.lookup requestRuleTraceIntFunction = some (.function requestRuleTraceIntFunction) :=
  ⟨rfl, rfl⟩

theorem apply_named (env : Env vm) (name : String) (arguments : List (ArgumentKind × vm.Value)) :
    env.apply (some name) (.function name) arguments = env.callFunction true name arguments := by
  simp [Env.apply]

theorem eval_traceCall_int (env : Env vm) (ruleIndex : Nat) (cond : Node) (n : Int)
    (h2 : exp2.isInteger = true) :
    (traceCall ruleIndex cond (.integer n) exp2).eval env none = fun scope =>
      (cond.eval env none scope).bind fun matched =>
      (Logged.of (vm.boolArgument matched)).bind fun matched =>
      (Logged.ok (if matched then .int n else .int 1)).after
        (ruleCalls true ruleIndex matched) := by
  have hname : requestRuleTraceIntFunction ≠ "$env" := by decide
  have hargument : ∀ a, vm.intArgument (.int a) = .ok a := fun _ => rfl
  have htier : requestRuleTraceIntFunction ≠ "tier" := by decide
  have hfixed : requestRuleTraceIntFunction ≠ "fixed" := by decide
  have htrace : requestRuleTraceIntFunction ≠ requestRuleTraceFunction := by decide
  unfold traceCall
  rw [if_pos (by rw [h2]; rfl)]
  funext scope
  simp only [Node.eval, Node.evalAll, Vm.evaluateAll, Option.map_none, if_neg hname,
    (lookup_traceFunction env).2, Logged.ok_bind, Logged.bind_assoc, List.map_cons, List.map_nil,
    List.zip_cons_cons, List.zip_nil_right, apply_named, Node.identifier?, Env.callFunction,
    if_neg htier, if_neg hfixed, if_neg htrace, if_pos, callTraceInt, hargument, Logged.of_ok]
  congr 1
  funext matched
  congr 1
  funext b
  cases b <;> rfl

theorem eval_traceCall_float (env : Env vm) (ruleIndex : Nat) (cond : Node) {multiplier : ℚ}
    (h1 : requestRuleNumber exp1 = some multiplier)
    (hmixed : (exp1.isInteger && exp2.isInteger) = false) :
    (traceCall ruleIndex cond exp1 exp2).eval env none = fun scope =>
      (cond.eval env none scope).bind fun matched =>
      (Logged.of (vm.boolArgument matched)).bind fun matched =>
      (Logged.ok (if matched then .float (.exact multiplier) else .float (.exact 1))).after
        (ruleCalls true ruleIndex matched) := by
  have hname : requestRuleTraceFunction ≠ "$env" := by decide
  have hargument : ∀ kind a, vm.floatArgument (kind, .float a) = .ok a := fun kind _ => by
    cases kind <;> rfl
  have hindex : ∀ a, vm.intArgument (.int a) = .ok a := fun _ => rfl
  have htier : requestRuleTraceFunction ≠ "tier" := by decide
  have hfixed : requestRuleTraceFunction ≠ "fixed" := by decide
  have hone : float64 1 = .exact 1 := by decide +kernel
  unfold traceCall
  rw [hmixed, asFloat_of_number h1]
  funext scope
  simp only [Bool.false_eq_true, if_false, Node.eval, Node.evalAll, Vm.evaluateAll,
    Option.map_none, if_neg hname, (lookup_traceFunction env).1, Logged.ok_bind,
    Logged.bind_assoc, List.map_cons, List.map_nil, List.zip_cons_cons, List.zip_nil_right,
    apply_named, Node.identifier?,
    Env.callFunction, if_neg htier, if_neg hfixed, if_pos, callTrace, hargument, hindex,
    Logged.of_ok, hone]
  congr 1
  funext matched
  congr 1
  funext b
  cases b <;> rfl

theorem eval_literals (env : Env vm) (first : Nat) (ternary : Bool) (cond exp1 exp2 : Node)
    {value1 value2 : vm.Value}
    (h1 : ∀ rules scope, exp1.eval env rules scope = .ok value1)
    (h2 : ∀ rules scope, exp2.eval env rules scope = .ok value2)
    (hrule : isRequestRule ternary cond exp1 exp2 = true) :
    (Node.conditional ternary cond exp1 exp2).eval env (some first) = fun scope =>
      (cond.eval env (some first) scope).bind fun
        | .bool true => (Logged.ok value1).after
            (ruleCalls true (first + cond.ruleCount + exp1.ruleCount + exp2.ruleCount : Nat) true)
        | .bool false => .ok value2
        | _ => .error "the condition is not a bool" := by
  funext scope
  simp only [Node.eval, hrule]
  refine congrArg (Logged.bind _) (funext fun value => ?_)
  cases value with
  | bool value =>
    cases value with
    | false => exact h2 _ scope
    | true => exact congrArg (Logged.after _) (h1 _ scope)
  | _ => rfl

/-- **A rule that is patched does what it does with its numbers written alike.** -/
theorem rule_alike (env : Env vm) (first : Nat) {ternary : Bool} {cond cond' : Node}
    (hrule : isRequestRule ternary cond exp1 exp2 = true)
    (hcond : vm.Alike (cond.floatRules.eval env (some first)) (cond'.eval env none)) :
    vm.Alike ((Node.conditional ternary cond exp1 exp2).floatRules.eval env (some first))
      ((traceCall (first + cond.ruleCount + exp1.ruleCount + exp2.ruleCount) cond' exp1 exp2).eval
        env none) := by
  obtain ⟨-, -, multiplier, h1, h2⟩ := number_of_rule hrule
  have hprobe := findIdentifier_floatRules requestProbes cond
  by_cases hintegers : (exp1.isInteger && exp2.isInteger) = true
  · cases exp1 with
    | integer n =>
      cases exp2 with
      | integer m =>
        have hm : m = 1 := eq_one_of_float64OfInt (Option.some.inj h2)
        subst hm
        have hrule' := (@isRequestRule_congr _ _ ternary _ _ _ _ hprobe
          (rfl : requestRuleNumber (.integer n) = _) (rfl : requestRuleNumber (.integer 1) = _)).trans
          hrule
        have hfloat : (Node.conditional ternary cond (.integer n) (.integer 1)).floatRules =
            .conditional ternary cond.floatRules (.integer n) (.integer 1) := by
          simp [Node.floatRules, Node.isInteger]
        rw [hfloat, eval_traceCall_int env _ cond' n rfl,
          eval_literals env first ternary _ _ _ (fun _ _ => rfl) (fun _ _ => rfl) hrule',
          ruleCount_floatRules]
        exact choice_alike hcond _ (.int n) (.int 1)
      | _ => cases hintegers
    | _ => cases hintegers
  · have hmixed : (exp1.isInteger && exp2.isInteger) = false := by simpa using hintegers
    have hrule' := (@isRequestRule_congr _ _ ternary _ _ _ _ hprobe
      (requestRuleNumber_asFloat exp1) (requestRuleNumber_asFloat exp2)).trans hrule
    have hfloat : (Node.conditional ternary cond exp1 exp2).floatRules =
        .conditional ternary cond.floatRules exp1.asFloat exp2.asFloat := by
      simp [Node.floatRules, hrule, hmixed]
    have hvalue1 : ∀ rules scope, exp1.asFloat.eval env rules scope =
        .ok (.float (.exact multiplier)) := by
      rw [asFloat_of_number h1]
      exact fun _ _ => rfl
    have hvalue2 : ∀ rules scope, exp2.asFloat.eval env rules scope =
        .ok (.float (.exact 1)) := by
      rw [asFloat_of_number h2]
      exact fun _ _ => rfl
    rw [hfloat, eval_traceCall_float env _ cond' h1 hmixed,
      eval_literals env first ternary _ _ _ hvalue1 hvalue2 hrule', ruleCount_floatRules,
      ruleCount_asFloat, ruleCount_asFloat]
    exact choice_alike hcond _ _ _

/-! ### Whole trees -/

theorem argumentKind_floatRules (node : Node) : node.floatRules.argumentKind = node.argumentKind := by
  cases node with
  | conditional ternary cond exp1 exp2 =>
    unfold Node.floatRules
    split <;> rfl
  | unary op operand => cases op <;> rfl
  | _ => rfl

theorem argumentKinds_floatRulesAll (nodes : List Node) :
    (Node.floatRulesAll nodes).map Node.argumentKind = nodes.map Node.argumentKind := by
  induction nodes with
  | nil => rfl
  | cons node rest ih => simp [Node.floatRulesAll, argumentKind_floatRules, ih]

theorem argumentKinds_patchAll (nodes : List Node) : ∀ p : RequestRulePatcher,
    (p.patchAll lib nodes).2.map Node.argumentKind = nodes.map Node.argumentKind := by
  induction nodes with
  | nil =>
    intro p
    rfl
  | cons node rest ih =>
    intro p
    simp [RequestRulePatcher.patchAll, patch_reads, ih]

theorem identifier_floatRules (node : Node) :
    node.floatRules.identifier? = node.identifier? := by
  cases node with
  | conditional ternary cond exp1 exp2 =>
    unfold Node.floatRules
    split <;> rfl
  | _ => rfl

mutual

/-- **A patched tree does what the tree does with the numbers of each rule written alike.** -/
theorem patch_alike (hvm : vm.Propagates) (env : Env vm) :
    ∀ (node : Node) (p : RequestRulePatcher),
    vm.Alike (node.floatRules.eval env (some p.requestRules.length))
      ((p.patch lib node).2.eval env none)
  | .identifier name, p => by
      unfold RequestRulePatcher.patch
      rw [(visit_identifier p name).1]
      exact .refl _
  | .unary op operand, p => by
      have ih := patch_alike hvm env operand p
      exact ⟨hvm.unary op ih.1, fun hstrict => hvm.unary op (ih.2 hstrict)⟩
  | .binary op left right, p => by
      have ihleft := patch_alike hvm env left p
      have ihright := patch_alike hvm env right (p.patch lib left).1
      rw [patch_length left p] at ihright
      by_cases hop : op = .times
      · subst hop
        simp only [Node.floatRules, RequestRulePatcher.patch, RequestRulePatcher.visit, Node.eval,
          if_pos, Option.map_some, Option.map_none, ruleCount_floatRules]
        exact Vm.Alike.bind ihleft fun a => Vm.Alike.bind ihright fun b => .refl _
      · simp only [Node.floatRules, RequestRulePatcher.patch, RequestRulePatcher.visit, Node.eval,
          if_neg hop, Option.map_some, Option.map_none, ruleCount_floatRules]
        exact ⟨hvm.binary op ihleft.1 ihright.1,
          fun hstrict => hvm.binary op (ihleft.2 hstrict) (ihright.2 hstrict)⟩
  | .conditional ternary cond exp1 exp2, p => by
      have ihcond := patch_alike hvm env cond p
      have ih1 := patch_alike hvm env exp1 (p.patch lib cond).1
      have ih2 := patch_alike hvm env exp2 ((p.patch lib cond).1.patch lib exp1).1
      rw [patch_length cond p] at ih1
      rw [patch_length exp1, patch_length cond p] at ih2
      unfold RequestRulePatcher.patch
      dsimp only
      rw [(visit_conditional _ ternary _ _ _).1, isRequestRule_patch, patch_length exp2,
        patch_length exp1, patch_length cond p]
      by_cases hrule : isRequestRule ternary cond exp1 exp2 = true
      · obtain ⟨-, -, multiplier, h1, h2⟩ := number_of_rule hrule
        rw [if_pos hrule, patch_of_number h1, patch_of_number h2]
        exact rule_alike env _ hrule ihcond
      · have hfloat : (Node.conditional ternary cond exp1 exp2).floatRules =
            .conditional ternary cond.floatRules exp1.floatRules exp2.floatRules := by
          simp [Node.floatRules, hrule]
        have hrule' : isRequestRule ternary cond.floatRules exp1.floatRules exp2.floatRules =
            false := by
          rw [isRequestRule_congr (findIdentifier_floatRules requestProbes cond)
            (requestRuleNumber_floatRules exp1) (requestRuleNumber_floatRules exp2)]
          simpa using hrule
        rw [if_neg hrule, hfloat]
        simp only [Node.eval, Option.map_some, Option.map_none, ruleCount_floatRules, hrule']
        refine Vm.Alike.bind ihcond fun value => ?_
        cases value with
        | bool b =>
          cases b with
          | true => exact ih1
          | false => exact ih2
        | _ => exact .refl _
  | .call callee arguments, p => by
      have ihcallee := patch_alike hvm env callee p
      have iharguments := patchAll_alike hvm env arguments (p.patch lib callee).1
      rw [patch_length callee p] at iharguments
      simp only [Node.floatRules, RequestRulePatcher.patch, RequestRulePatcher.visit, Node.eval,
        Option.map_some, Option.map_none, ruleCount_floatRules, argumentKinds_floatRulesAll,
        argumentKinds_patchAll, identifier_floatRules, patch_reads]
      exact Vm.Alike.bind (evaluateAll_alike iharguments) fun values =>
        Vm.Alike.bind ihcallee fun function => .refl _
  | .builtin name arguments, p => by
      have ih := Vm.Alike.all (patchAll_alike hvm env arguments p)
      exact ⟨hvm.builtin name ih.1, fun hstrict => hvm.builtin name (ih.2 hstrict)⟩
  | .other kind children, p => by
      have ih := Vm.Alike.all (patchAll_alike hvm env children p)
      exact ⟨hvm.other kind ih.1, fun hstrict => hvm.other kind (ih.2 hstrict)⟩
  | .nil, _ | .integer _, _ | .float _, _ | .bool _, _ | .string _, _ => .refl _

theorem patchAll_alike (hvm : vm.Propagates) (env : Env vm) :
    ∀ (nodes : List Node) (p : RequestRulePatcher),
    List.Forall₂ vm.Alike (Node.evalAll env (some p.requestRules.length) (Node.floatRulesAll nodes))
      (Node.evalAll env none (p.patchAll lib nodes).2)
  | [], _ => .nil
  | node :: rest, p => by
      have ihnode := patch_alike hvm env node p
      have ihrest := patchAll_alike hvm env rest (p.patch lib node).1
      rw [patch_length node p] at ihrest
      simp only [Node.floatRulesAll, RequestRulePatcher.patchAll, Node.evalAll, Option.map_some,
        Option.map_none, ruleCount_floatRules]
      exact .cons ihnode ihrest

end

/-! ### Traces -/

/-- The entry of a trace says that the rule held. -/
def TraceResult.Marked (trace : TraceResult) (i : Nat) : Prop :=
  ∃ rule, trace.requestRules[i]? = some rule ∧ rule.matched = true

theorem record_length (trace : TraceResult) (call : HostCall) :
    (trace.record call).requestRules.length = trace.requestRules.length := by
  cases call with
  | rule named ruleIndex =>
    unfold TraceResult.record
    dsimp only
    split <;> simp
  | _ => rfl

theorem record_marked {trace : TraceResult} (hi : i < trace.requestRules.length) (call : HostCall) :
    (trace.record call).Marked i ↔ trace.Marked i ∨ ∃ named, call = .rule named i := by
  cases call with
  | rule named ruleIndex =>
    have hcall : (∃ other, HostCall.rule named ruleIndex = .rule other i) ↔ ruleIndex = i := by
      simp
    rw [hcall]
    unfold TraceResult.record TraceResult.Marked
    dsimp only
    by_cases hbounds : 0 ≤ ruleIndex ∧ ruleIndex < trace.requestRules.length
    · rw [if_pos hbounds]
      dsimp only
      obtain ⟨n, rfl⟩ := Int.eq_ofNat_of_zero_le hbounds.1
      rw [List.getElem?_modify, List.getElem?_eq_getElem hi]
      by_cases hn : n = i
      · simp [hn]
      · simp [hn]
    · rw [if_neg hbounds]
      have hne : ruleIndex ≠ i := by
        intro heq
        exact hbounds (by omega)
      simp [hne]
  | _ => simp [TraceResult.record, TraceResult.Marked]

theorem recordAll_marked (calls : List HostCall) : ∀ {trace : TraceResult},
    i < trace.requestRules.length →
    ((trace.recordAll calls).Marked i ↔ trace.Marked i ∨ ∃ named, .rule named i ∈ calls) := by
  induction calls with
  | nil =>
    intro trace _
    simp [TraceResult.recordAll]
  | cons call rest ih =>
    intro trace hi
    have hrest := ih (by rwa [record_length trace call])
    have hall : trace.recordAll (call :: rest) = (trace.record call).recordAll rest := rfl
    rw [hall, hrest, record_marked hi]
    simp only [List.mem_cons, exists_or, or_assoc]
    simp only [eq_comm]

theorem start_marked {rules : List RequestRuleTrace} (hi : i < rules.length)
    (calls : List HostCall) :
    ((TraceResult.start rules).recordAll calls).Marked i ↔ ∃ named, .rule named i ∈ calls := by
  have hlength : i < (TraceResult.start rules).requestRules.length := by
    simpa [TraceResult.start] using hi
  have hnone : ¬ (TraceResult.start rules).Marked i := by
    rintro ⟨rule, hrule, hmatched⟩
    simp only [TraceResult.start, List.getElem?_map, Option.map_eq_some_iff] at hrule
    obtain ⟨_, _, rfl⟩ := hrule
    cases hmatched
  rw [recordAll_marked calls hlength]
  exact or_iff_right hnone

/-! ### The traced expression -/

/-- A computation returns a number, and makes the calls. -/
def Vm.EvaluatesTo (vm : Vm) (computation : vm.Computation) (x : Float64)
    (calls : List HostCall) : Prop :=
  ∃ value, (computation vm.empty).Returns value calls ∧ vm.asFloat64 value = .ok x

theorem Vm.Refines.evaluatesTo (h : vm.Refines x y) (hx : vm.EvaluatesTo x number calls) :
    vm.EvaluatesTo y number calls := by
  obtain ⟨value, hvalue, hnumber⟩ := hx
  exact ⟨value, h _ value calls hvalue, hnumber⟩

theorem Vm.EvaluatesTo.unique {other : Float64} {others : List HostCall}
    (h : vm.EvaluatesTo x number calls) (h' : vm.EvaluatesTo x other others) :
    number = other ∧ calls = others := by
  obtain ⟨value, hvalue, hnumber⟩ := h
  obtain ⟨value', hvalue', hnumber'⟩ := h'
  obtain ⟨rfl, rfl⟩ := hvalue.unique hvalue'
  have heq : (Except.ok number : Except String Float64) = .ok other := hnumber.symm.trans hnumber'
  exact ⟨by injection heq, rfl⟩

/-- The patched tree evaluates to `x`, and the rules marked in its trace are those of `calls`: a
rule is in `calls` if its conditional is evaluated with a condition that holds. -/
def TracesAs (env : Env vm) (patched : RequestRulePatcher × Node) (x : Float64)
    (calls : List HostCall) : Prop :=
  ∃ others, vm.EvaluatesTo (patched.2.eval env none) x others ∧
    ∀ i < patched.1.requestRules.length,
      ((TraceResult.start patched.1.requestRules).recordAll others).Marked i ↔
        .rule true i ∈ calls

/-- With its rules written with floats the tree evaluates to `x` all the same, under the same rules,
and no trace function is called for another. -/
def KeepsWithFloats (env : Env vm) (tree : Node) (x : Float64) (calls : List HostCall) : Prop :=
  ∃ others, vm.EvaluatesTo (tree.floatRules.eval env (some 0)) x others ∧
    ∀ i < tree.ruleCount, (∃ named, .rule named i ∈ others) ↔ .rule true i ∈ calls

/-- **An expression is traced as it is evaluated if it may be written with floats.**  Without a
mixed rule that is to say that no trace function is called for a rule that does not hold. -/
theorem traced_as_evaluated_iff (lib : ExprLib) (hvm : vm.Propagates) (env : Env vm) (tree : Node)
    {x : Float64} {calls : List HostCall}
    (htree : vm.EvaluatesTo (tree.eval env (some 0)) x calls) :
    ((⟨[], ""⟩ : RequestRulePatcher).patch lib tree).1.requestRules.length = tree.ruleCount ∧
      (KeepsWithFloats env tree x calls →
        TracesAs env ((⟨[], ""⟩ : RequestRulePatcher).patch lib tree) x calls) ∧
      (vm.StrictBools ∨ (∃ y others,
          vm.EvaluatesTo (tree.floatRules.eval env (some 0)) y others) →
        TracesAs env ((⟨[], ""⟩ : RequestRulePatcher).patch lib tree) x calls →
        KeepsWithFloats env tree x calls) ∧
      (tree.mixed = false →
        (TracesAs env ((⟨[], ""⟩ : RequestRulePatcher).patch lib tree) x calls ↔
          ∀ i < tree.ruleCount, HostCall.rule false i ∈ calls → HostCall.rule true i ∈ calls)) := by
  have hlength := @patch_length lib tree ⟨[], ""⟩
  have halike := @patch_alike lib _ hvm env tree ⟨[], ""⟩
  rw [List.length_nil, Nat.zero_add] at hlength
  have htraced : KeepsWithFloats env tree x calls →
      TracesAs env ((⟨[], ""⟩ : RequestRulePatcher).patch lib tree) x calls := by
    rintro ⟨others, hothers, hrules⟩
    refine ⟨others, halike.1.evaluatesTo hothers, fun i hi => ?_⟩
    rw [start_marked hi]
    exact hrules i (hlength ▸ hi)
  have hkeeps : vm.StrictBools ∨ (∃ y others,
        vm.EvaluatesTo (tree.floatRules.eval env (some 0)) y others) →
      TracesAs env ((⟨[], ""⟩ : RequestRulePatcher).patch lib tree) x calls →
      KeepsWithFloats env tree x calls := by
    rintro hdecided ⟨others, hothers, hrules⟩
    have hfloat : vm.EvaluatesTo (tree.floatRules.eval env (some 0)) x others := by
      rcases hdecided with hstrict | ⟨y, calls', hy⟩
      · exact (halike.2 hstrict).evaluatesTo hothers
      · obtain ⟨rfl, rfl⟩ := (halike.1.evaluatesTo hy).unique hothers
        exact hy
    refine ⟨others, hfloat, fun i hi => ?_⟩
    rw [← start_marked (hlength ▸ hi) others]
    exact hrules i (hlength ▸ hi)
  refine ⟨hlength, htraced, hkeeps, fun hmixed => ?_⟩
  have htree' : vm.EvaluatesTo (tree.floatRules.eval env (some 0)) x calls := by
    rwa [floatRules_eq hmixed]
  constructor
  · intro h i hi hcall
    obtain ⟨others, hothers, hrules⟩ := hkeeps (.inr ⟨x, calls, htree'⟩) h
    obtain ⟨-, rfl⟩ := htree'.unique hothers
    exact (hrules i hi).mp ⟨false, hcall⟩
  · intro h
    refine htraced ⟨calls, htree', fun i hi => ⟨?_, fun hcall => ⟨true, hcall⟩⟩⟩
    rintro ⟨named, hcall⟩
    cases named with
    | true => exact hcall
    | false => exact h i hi hcall

/-! ### A small language -/

def smallMember : List (Computation Empty Unit) → Computation Empty Unit
  | [object, property] => fun scope =>
    (object scope).bind fun a =>
    (property scope).bind fun b =>
    match a, b with
    | .env, .string name =>
      if name ∈ traceFunctions ++ plainFunctions then .ok (.function name)
      else .error "unknown name"
    | _, _ => .error "unknown member"
  | _ => fun _ => .error "unknown member"

def smallEqual (left right : Computation Empty Unit) : Computation Empty Unit := fun scope =>
  (left scope).bind fun a =>
  (right scope).bind fun b =>
  match a, b with
  | .string s, .string t => .ok (.bool (decide (s = t)))
  | _, _ => .error "unknown operands"

/-- Equality of texts, products of integers, and members of the environment. -/
abbrev smallVm : Vm where
  Data := Empty
  Scope := Unit
  empty := ()
  declared _ _ := .error "unknown name"
  unary _ _ := fun _ => .error "unknown operator"
  binary op left right :=
    if op = .equal then smallEqual left right else fun _ => .error "unknown operator"
  multiply
    | .int m, .int n => .ok (.int (Int.bmod (m * n) (2 ^ 64)))
    | _, _ => .error "invalid operation"
  builtin _ _ := fun _ => .error "unknown function"
  other kind children :=
    if kind = "member" then smallMember children else fun _ => .error "unknown node"
  invoke _ _ := .error "cannot call"
  passString _ := .error "cannot use as string"
  passBool _ := .error "cannot use as bool"
  passInt _ := .error "cannot use as int"
  passFloat _ _ := .error "cannot use as float64"
  castFloat _ := .error "cannot cast"

theorem smallVm_propagates : smallVm.Propagates where
  unary _ _ _ _ _ := .refl _
  binary op x y x' y' hxy hxy' scope := by
    by_cases hop : op = .equal
    · simp only [smallVm, if_pos hop]
      exact (hxy scope).bind fun a => (hxy' scope).bind fun b => .refl _
    · simp only [smallVm, if_neg hop]
      exact .refl _
  builtin _ _ _ _ _ := .refl _
  other kind xs ys h scope := by
    by_cases hkind : kind = "member"
    · simp only [smallVm, if_pos hkind]
      match h with
      | .cons hobject (.cons hproperty .nil) =>
        exact (hobject scope).bind fun a => (hproperty scope).bind fun b => .refl _
      | .nil | .cons _ .nil | .cons _ (.cons _ (.cons _ _)) => exact .refl _
    · simp only [smallVm, if_neg hkind]
      exact .refl _

def smallLib : ExprLib where
  parse _ := .error "nothing to parse"
  read _ _ := .error "nothing to read"
  build _ node := .ok node
  print _ := "header(\"x\") == \"1\""
  exprHashString := id
  parse_empty := ⟨_, rfl⟩

def smallEnv : Env smallVm where
  imageCount := 1
  params := ⟨.exact 0, .exact 0, .exact 0, .exact 0, .exact 0, .exact 0, .exact 0, .exact 0, .exact 0,
    .exact 0, .exact 0⟩
  function name _ := if name = "header" then .ok (.string "1") else .error "unknown function"

def headerIs (text : String) : Node :=
  .binary .equal (.call (.identifier "header") [.string "x"]) (.string text)

/-- `(header("x") == "2" ? 3 : 1) * (header("x") == "1" ? 2 : 1)` -/
def twoRules : Node :=
  .binary .times (.conditional true (headerIs "2") (.integer 3) (.integer 1))
    (.conditional true (headerIs "1") (.integer 2) (.integer 1))

/-- The second of two rules holds, and is marked. -/
theorem second_rule_traced :
    TracesAs smallEnv ((⟨[], ""⟩ : RequestRulePatcher).patch smallLib twoRules) (.exact 2)
      [.rule true 1] := by
  have htree : smallVm.EvaluatesTo (twoRules.eval smallEnv (some 0)) (.exact 2) [.rule true 1] :=
    ⟨.int 2, ⟨by decide +kernel, by decide +kernel⟩, by decide +kernel⟩
  have hmixed : twoRules.mixed = false := by decide +kernel
  have htraced := (traced_as_evaluated_iff smallLib smallVm_propagates smallEnv _ htree).2.2.2 hmixed
  refine htraced.mpr ?_
  intro i _ hcall
  simp at hcall

/-- `(header("x") == "1" ? 4 : 1.0) * 4611686018427387904` -/
def mixedRule : Node :=
  .binary .times (.conditional true (headerIs "1") (.integer 4) (.float 1))
    (.integer (2 ^ 62))

/-- `(header("x") == "2" ? 3 : 1) * $env._trace(0, true, 1.0)` -/
def tracedByHand : Node :=
  .binary .times (.conditional true (headerIs "2") (.integer 3) (.integer 1))
    (.call (.other "member" [.identifier "$env", .string requestRuleTraceFunction])
      [.integer 0, .bool true, .float 1])

theorem patched_evaluatesTo {tree : Node} {x : Float64}
    (h : smallVm.EvaluatesTo (tree.floatRules.eval smallEnv (some 0)) x calls) :
    smallVm.EvaluatesTo (((⟨[], ""⟩ : RequestRulePatcher).patch smallLib tree).2.eval smallEnv none)
      x calls :=
  (patch_alike smallVm_propagates smallEnv tree ⟨[], ""⟩).1.evaluatesTo h

/-- The product of the integers is zero, past the end of an int, and of the floats it is `2 ^ 64`.
A trace function that is called through `$env` marks a rule that does not hold. -/
theorem mixed_rule_changes :
    (smallVm.EvaluatesTo (mixedRule.eval smallEnv (some 0)) (.exact 0) [.rule true 0] ∧
      ¬ TracesAs smallEnv ((⟨[], ""⟩ : RequestRulePatcher).patch smallLib mixedRule) (.exact 0)
        [.rule true 0]) ∧
    (smallVm.EvaluatesTo (tracedByHand.eval smallEnv (some 0)) (.exact 1) [.rule false 0] ∧
      ¬ TracesAs smallEnv ((⟨[], ""⟩ : RequestRulePatcher).patch smallLib tracedByHand) (.exact 1)
        [.rule false 0]) := by
  refine ⟨⟨⟨.int 0, ⟨by decide +kernel, by decide +kernel⟩, by decide +kernel⟩, ?_⟩,
    ⟨⟨.float (.exact 1), ⟨by decide +kernel, by decide +kernel⟩, by decide +kernel⟩, ?_⟩⟩
  · rintro ⟨others, hothers, -⟩
    have hfloat : smallVm.EvaluatesTo (mixedRule.floatRules.eval smallEnv (some 0))
        (.exact (2 ^ 64)) [.rule true 0] :=
      ⟨.float (.exact (2 ^ 64)), ⟨by decide +kernel, by decide +kernel⟩, by decide +kernel⟩
    have hzero : Float64.exact 0 = .exact (2 ^ 64) :=
      (hothers.unique (patched_evaluatesTo hfloat)).1
    exact absurd hzero (by decide +kernel)
  · rintro ⟨others, hothers, hrules⟩
    have hfloat : smallVm.EvaluatesTo (tracedByHand.floatRules.eval smallEnv (some 0)) (.exact 1)
        [.rule false 0] :=
      ⟨.float (.exact 1), ⟨by decide +kernel, by decide +kernel⟩, by decide +kernel⟩
    obtain ⟨-, rfl⟩ := (patched_evaluatesTo hfloat).unique hothers
    have hzero :
        0 < ((⟨[], ""⟩ : RequestRulePatcher).patch smallLib tracedByHand).1.requestRules.length := by
      rw [patch_length]
      decide +kernel
    have hmarked := (hrules 0 hzero).mp ((start_marked hzero _).mpr ⟨false, by simp⟩)
    simp at hmarked

end JulongApi.BillingExpr

/-
What the patcher does to a tree, node by node.

A request rule with two integers becomes a call of `_trace_int`, and any other rule a call of
`_trace` with its multiplier as a float.  `Node.floatRules` writes the numbers of the latter rules
as floats and leaves the conditionals in place.  Neither changes the identifiers of a tree, or which
of its conditionals are rules; a tree whose rules do not mix their numbers is not changed by it at
all (`floatRules_eq`).
-/
import JulongApi.BillingRun
import JulongApi.Proofs.BillingExpr

namespace JulongApi.BillingExpr

open RequestRulePatcher

/-! ### Rules written with floats -/

def Node.isInteger : Node → Bool
  | .integer _ => true
  | _ => false

/-- An integer literal as the float it is converted to. -/
def Node.asFloat : Node → Node
  | .integer value => .float (float64OfInt value)
  | node => node

mutual

/-- The tree with a float for the integer of every rule that has one integer and one float. -/
def Node.floatRules : Node → Node
  | .unary op operand => .unary op operand.floatRules
  | .binary op left right => .binary op left.floatRules right.floatRules
  | .conditional ternary cond exp1 exp2 =>
    if isRequestRule ternary cond exp1 exp2 && !(exp1.isInteger && exp2.isInteger) then
      .conditional ternary cond.floatRules exp1.asFloat exp2.asFloat
    else .conditional ternary cond.floatRules exp1.floatRules exp2.floatRules
  | .call callee arguments => .call callee.floatRules (Node.floatRulesAll arguments)
  | .builtin name arguments => .builtin name (Node.floatRulesAll arguments)
  | .other kind children => .other kind (Node.floatRulesAll children)
  | leaf => leaf

def Node.floatRulesAll : List Node → List Node
  | [] => []
  | node :: rest => node.floatRules :: Node.floatRulesAll rest

end

variable {exp1 exp2 : Node}

variable {ternary : Bool} {cond node : Node} {multiplier : ℚ}

theorem number_of_rule (h : isRequestRule ternary cond exp1 exp2 = true) :
    ternary = true ∧ usesRequestProbe cond = true ∧ ∃ multiplier,
      requestRuleNumber exp1 = some multiplier ∧ requestRuleNumber exp2 = some 1 := by
  unfold isRequestRule at h
  simp only [Bool.and_eq_true] at h
  obtain ⟨⟨hternary, hprobe⟩, hnumbers⟩ := h
  cases h1 : requestRuleNumber exp1 with
  | none => simp [h1] at hnumbers
  | some multiplier =>
    cases h2 : requestRuleNumber exp2 with
    | none => simp [h1, h2] at hnumbers
    | some fallback =>
      have hone : fallback = 1 := by simpa [h1, h2] using hnumbers
      exact ⟨hternary, hprobe, multiplier, rfl, by rw [hone]⟩

@[simp] theorem requestRuleNumber_asFloat (node : Node) :
    requestRuleNumber node.asFloat = requestRuleNumber node := by
  cases node <;> rfl

theorem findIdentifier_asFloat (names : List String) (node : Node) :
    node.asFloat.findIdentifier names = node.findIdentifier names := by
  cases node <;> rfl

theorem requestRuleNumber_floatRules (node : Node) :
    requestRuleNumber node.floatRules = requestRuleNumber node := by
  cases node with
  | conditional ternary cond exp1 exp2 =>
    unfold Node.floatRules
    by_cases h : (isRequestRule ternary cond exp1 exp2 &&
        !(exp1.isInteger && exp2.isInteger)) = true
    · rw [if_pos h]
      rfl
    · rw [if_neg h]
      rfl
  | _ => rfl

mutual

theorem findIdentifier_floatRules (names : List String) : ∀ node : Node,
    node.floatRules.findIdentifier names = node.findIdentifier names
  | .unary _ operand => by simp [Node.floatRules, findIdentifier_floatRules names operand]
  | .binary _ left right => by
      simp [Node.floatRules, findIdentifier_floatRules names left,
        findIdentifier_floatRules names right]
  | .conditional ternary cond exp1 exp2 => by
      unfold Node.floatRules
      split
      · simp [findIdentifier_asFloat, findIdentifier_floatRules names cond]
      · simp [findIdentifier_floatRules names cond, findIdentifier_floatRules names exp1,
          findIdentifier_floatRules names exp2]
  | .call callee arguments => by
      simp [Node.floatRules, findIdentifier_floatRules names callee,
        findIdentifierAll_floatRulesAll names arguments]
  | .builtin _ arguments => by
      simp [Node.floatRules, findIdentifierAll_floatRulesAll names arguments]
  | .other _ children => by
      simp [Node.floatRules, findIdentifierAll_floatRulesAll names children]
  | .nil | .identifier _ | .integer _ | .float _ | .bool _ | .string _ => rfl

theorem findIdentifierAll_floatRulesAll (names : List String) : ∀ nodes : List Node,
    Node.findIdentifierAll names (Node.floatRulesAll nodes) = Node.findIdentifierAll names nodes
  | [] => rfl
  | node :: rest => by
      simp [Node.floatRulesAll, findIdentifier_floatRules names node,
        findIdentifierAll_floatRulesAll names rest]

end

theorem isRequestRule_congr {cond' exp1' exp2' : Node}
    (hcond : cond'.findIdentifier requestProbes = cond.findIdentifier requestProbes)
    (h1 : requestRuleNumber exp1' = requestRuleNumber exp1)
    (h2 : requestRuleNumber exp2' = requestRuleNumber exp2) :
    isRequestRule ternary cond' exp1' exp2' = isRequestRule ternary cond exp1 exp2 := by
  unfold isRequestRule usesRequestProbe
  rw [hcond, h1, h2]

theorem ruleCount_asFloat (node : Node) : node.asFloat.ruleCount = node.ruleCount := by
  cases node <;> rfl

mutual

theorem ruleCount_floatRules : ∀ node : Node, node.floatRules.ruleCount = node.ruleCount
  | .unary _ operand => by
      simp only [Node.floatRules, Node.ruleCount]
      exact ruleCount_floatRules operand
  | .binary _ left right => by
      simp only [Node.floatRules, Node.ruleCount]
      rw [ruleCount_floatRules left, ruleCount_floatRules right]
  | .conditional ternary cond exp1 exp2 => by
      have hcond := findIdentifier_floatRules requestProbes cond
      unfold Node.floatRules
      split
      · have hrule : isRequestRule ternary cond.floatRules exp1.asFloat exp2.asFloat =
            isRequestRule ternary cond exp1 exp2 :=
          isRequestRule_congr hcond (requestRuleNumber_asFloat exp1)
            (requestRuleNumber_asFloat exp2)
        simp only [Node.ruleCount]
        rw [hrule, ruleCount_floatRules cond, ruleCount_asFloat, ruleCount_asFloat]
      · have hrule : isRequestRule ternary cond.floatRules exp1.floatRules exp2.floatRules =
            isRequestRule ternary cond exp1 exp2 :=
          isRequestRule_congr hcond (requestRuleNumber_floatRules exp1)
            (requestRuleNumber_floatRules exp2)
        simp only [Node.ruleCount]
        rw [hrule, ruleCount_floatRules cond, ruleCount_floatRules exp1, ruleCount_floatRules exp2]
  | .call callee arguments => by
      simp only [Node.floatRules, Node.ruleCount]
      rw [ruleCount_floatRules callee, ruleCountAll_floatRulesAll arguments]
  | .builtin _ arguments => by
      simp only [Node.floatRules, Node.ruleCount]
      exact ruleCountAll_floatRulesAll arguments
  | .other _ children => by
      simp only [Node.floatRules, Node.ruleCount]
      exact ruleCountAll_floatRulesAll children
  | .nil | .identifier _ | .integer _ | .float _ | .bool _ | .string _ => rfl

theorem ruleCountAll_floatRulesAll : ∀ nodes : List Node,
    Node.ruleCountAll (Node.floatRulesAll nodes) = Node.ruleCountAll nodes
  | [] => rfl
  | node :: rest => by
      simp only [Node.floatRulesAll, Node.ruleCountAll]
      rw [ruleCount_floatRules node, ruleCountAll_floatRulesAll rest]

end

mutual

def Node.mixed : Node → Bool
  | .unary _ operand => operand.mixed
  | .binary _ left right => left.mixed || right.mixed
  | .conditional ternary cond exp1 exp2 =>
    (isRequestRule ternary cond exp1 exp2 && exp1.isInteger != exp2.isInteger) ||
      (cond.mixed || exp1.mixed || exp2.mixed)
  | .call callee arguments => callee.mixed || Node.mixedAny arguments
  | .builtin _ arguments => Node.mixedAny arguments
  | .other _ children => Node.mixedAny children
  | _ => false

def Node.mixedAny : List Node → Bool
  | [] => false
  | node :: rest => node.mixed || Node.mixedAny rest

end

theorem asFloat_of_not_integer (h : node.isInteger = false) : node.asFloat = node := by
  cases node with
  | integer n => cases h
  | _ => rfl

mutual

theorem floatRules_eq : ∀ {node : Node}, node.mixed = false → node.floatRules = node
  | .unary _ operand, h => by
      have h : operand.mixed = false := h
      unfold Node.floatRules
      rw [floatRules_eq h]
  | .binary _ left right, h => by
      have h : left.mixed = false ∧ right.mixed = false := by simpa [Node.mixed] using h
      unfold Node.floatRules
      rw [floatRules_eq h.1, floatRules_eq h.2]
  | .conditional ternary cond exp1 exp2, h => by
      unfold Node.mixed at h
      simp only [Bool.or_eq_false_iff] at h
      obtain ⟨hrule, ⟨hcond, h1⟩, h2⟩ := h
      unfold Node.floatRules
      rw [floatRules_eq hcond, floatRules_eq h1, floatRules_eq h2]
      split
      next hmixed =>
        have hmixed' : isRequestRule ternary cond exp1 exp2 = true ∧
            (exp1.isInteger && exp2.isInteger) = false := by
          simpa only [Bool.and_eq_true, Bool.not_eq_true'] using hmixed
        have hsame : exp1.isInteger = exp2.isInteger := by simpa [hmixed'.1] using hrule
        have hfloats : exp1.isInteger = false ∧ exp2.isInteger = false := by
          have h := hmixed'.2
          rw [hsame, Bool.and_self] at h
          exact ⟨hsame.trans h, h⟩
        rw [asFloat_of_not_integer hfloats.1, asFloat_of_not_integer hfloats.2]
      · rfl
  | .call callee arguments, h => by
      have h : callee.mixed = false ∧ Node.mixedAny arguments = false := by
        simpa [Node.mixed] using h
      unfold Node.floatRules
      rw [floatRules_eq h.1, floatRulesAll_eq h.2]
  | .builtin _ arguments, h => by
      unfold Node.floatRules
      rw [floatRulesAll_eq h]
  | .other _ children, h => by
      unfold Node.floatRules
      rw [floatRulesAll_eq h]
  | .nil, _ | .identifier _, _ | .integer _, _ | .float _, _ | .bool _, _ | .string _, _ => rfl

theorem floatRulesAll_eq : ∀ {nodes : List Node}, Node.mixedAny nodes = false →
    Node.floatRulesAll nodes = nodes
  | [], _ => rfl
  | node :: rest, h => by
      have h : node.mixed = false ∧ Node.mixedAny rest = false := by
        simpa [Node.mixedAny] using h
      unfold Node.floatRulesAll
      rw [floatRules_eq h.1, floatRulesAll_eq h.2]

end

/-! ### What the patcher leaves as it is -/

variable {lib : ExprLib}

/-- The call that a rule becomes. -/
def traceCall (ruleIndex : Nat) (cond exp1 exp2 : Node) : Node :=
  if exp1.isInteger && exp2.isInteger then
    .call (.identifier requestRuleTraceIntFunction) [.integer ruleIndex, cond, exp1]
  else .call (.identifier requestRuleTraceFunction) [.integer ruleIndex, cond, exp1.asFloat]

theorem tracedMultiplier_eq (h1 : requestRuleNumber exp1 = some multiplier)
    (h2 : requestRuleNumber exp2 = some 1) (ruleIndex : Nat) (cond : Node) :
    .call (.identifier (tracedMultiplier exp1 exp2 multiplier).1)
      [.integer ruleIndex, cond, (tracedMultiplier exp1 exp2 multiplier).2] =
      traceCall ruleIndex cond exp1 exp2 := by
  cases exp1 with
  | integer n =>
    cases exp2 with
    | integer _ => rfl
    | float _ =>
      cases h1
      rfl
    | _ => cases h2
  | float q =>
    cases h1
    cases exp2 <;> rfl
  | _ => cases h1

theorem visit_conditional (p : RequestRulePatcher) (ternary : Bool) (cond exp1 exp2 : Node) :
    (p.visit lib (.conditional ternary cond exp1 exp2)).2 =
        (if isRequestRule ternary cond exp1 exp2 then
          traceCall p.requestRules.length cond exp1 exp2
        else .conditional ternary cond exp1 exp2) ∧
      (p.visit lib (.conditional ternary cond exp1 exp2)).1.requestRules.length =
        p.requestRules.length + if isRequestRule ternary cond exp1 exp2 then 1 else 0 := by
  by_cases hrule : isRequestRule ternary cond exp1 exp2 = true
  · obtain ⟨hternary, hprobe, multiplier, h1, h2⟩ := number_of_rule hrule
    rw [if_pos hrule, if_pos hrule, ← tracedMultiplier_eq h1 h2]
    simp [visit, hternary, hprobe, h1, h2]
  · rw [if_neg hrule, if_neg hrule]
    unfold visit
    dsimp only
    by_cases hprobe : (!ternary || !usesRequestProbe cond) = true
    · rw [if_pos hprobe]
      exact ⟨rfl, rfl⟩
    · rw [if_neg hprobe]
      have hprobe' : ternary = true ∧ usesRequestProbe cond = true := by simpa using hprobe
      cases h1 : requestRuleNumber exp1 with
      | none => exact ⟨rfl, rfl⟩
      | some multiplier =>
        cases h2 : requestRuleNumber exp2 with
        | none => exact ⟨rfl, rfl⟩
        | some fallback =>
          have hone : fallback ≠ 1 := by
            intro hone
            exact hrule (by simp [isRequestRule, hprobe', h1, h2, hone])
          dsimp only
          rw [if_pos hone]
          exact ⟨rfl, rfl⟩

theorem visit_identifier (p : RequestRulePatcher) (name : String) :
    (p.visit lib (.identifier name)).2 = .identifier name ∧
      (p.visit lib (.identifier name)).1.requestRules = p.requestRules := by
  unfold visit
  dsimp only
  split <;> exact ⟨rfl, rfl⟩

theorem patch_of_number {value : ℚ} (h : requestRuleNumber node = some value)
    (p : RequestRulePatcher) : p.patch lib node = (p, node) := by
  cases node with
  | integer n => rfl
  | float q => rfl
  | _ => cases h

/-- What is read of a node at its head: a rule that is traced is a call, and reads as little. -/
theorem patch_reads (p : RequestRulePatcher) (node : Node) :
    requestRuleNumber (p.patch lib node).2 = requestRuleNumber node ∧
      (p.patch lib node).2.argumentKind = node.argumentKind ∧
      (p.patch lib node).2.identifier? = node.identifier? := by
  cases node with
  | identifier name =>
    unfold patch
    rw [(visit_identifier p name).1]
    exact ⟨rfl, rfl, rfl⟩
  | conditional ternary cond exp1 exp2 =>
    unfold patch
    dsimp only
    rw [(visit_conditional _ ternary _ _ _).1]
    unfold traceCall
    split
    · split <;> exact ⟨rfl, rfl, rfl⟩
    · exact ⟨rfl, rfl, rfl⟩
  | unary op operand => cases op <;> exact ⟨rfl, rfl, rfl⟩
  | _ => exact ⟨rfl, rfl, rfl⟩

theorem requestRuleNumber_patch (p : RequestRulePatcher) (node : Node) :
    requestRuleNumber (p.patch lib node).2 = requestRuleNumber node := (patch_reads p node).1

variable {names : List String}

theorem findIdentifier_traceCall (htrace : requestRuleTraceFunction ∉ names)
    (hint : requestRuleTraceIntFunction ∉ names) (h1 : requestRuleNumber exp1 = some multiplier)
    (ruleIndex : Nat) (cond : Node) :
    (traceCall ruleIndex cond exp1 exp2).findIdentifier names = cond.findIdentifier names := by
  have hindex : (Node.integer ruleIndex).findIdentifier names = false := rfl
  unfold traceCall
  split
  · simp [hint, hindex, findIdentifier_of_number names h1]
  · have hfloat := findIdentifier_of_number names ((requestRuleNumber_asFloat exp1).trans h1)
    simp [htrace, hindex, hfloat]

mutual

theorem findIdentifier_patch (htrace : requestRuleTraceFunction ∉ names)
    (hint : requestRuleTraceIntFunction ∉ names) : ∀ (node : Node) (p : RequestRulePatcher),
    (p.patch lib node).2.findIdentifier names = node.findIdentifier names
  | .identifier name, p => by
      unfold patch
      rw [(visit_identifier p name).1]
  | .unary _ operand, p => by
      simpa [patch, visit]
        using findIdentifier_patch htrace hint operand p
  | .binary _ left right, p => by
      simp [patch, visit,
        findIdentifier_patch htrace hint left, findIdentifier_patch htrace hint right]
  | .conditional ternary cond exp1 exp2, p => by
      have hcond := findIdentifier_patch htrace hint cond
      have h1 := findIdentifier_patch htrace hint exp1
      have h2 := findIdentifier_patch htrace hint exp2
      unfold patch
      dsimp only
      rw [(visit_conditional _ ternary _ _ _).1]
      split
      next hrule =>
        obtain ⟨-, -, multiplier, hnumber1, hnumber2⟩ := number_of_rule hrule
        rw [requestRuleNumber_patch] at hnumber1 hnumber2
        have hpatched := (@requestRuleNumber_patch lib (p.patch lib cond).1 exp1).trans
          hnumber1
        rw [findIdentifier_traceCall htrace hint hpatched, hcond]
        simp [findIdentifier_of_number names hnumber1, findIdentifier_of_number names hnumber2]
      · simp [hcond, h1, h2]
  | .call callee arguments, p => by
      simp [patch, visit,
        findIdentifier_patch htrace hint callee, findIdentifierAll_patchAll htrace hint arguments]
  | .builtin _ arguments, p => by
      simp [patch, visit,
        findIdentifierAll_patchAll htrace hint arguments]
  | .other _ children, p => by
      simp [patch, visit,
        findIdentifierAll_patchAll htrace hint children]
  | .nil, _ | .integer _, _ | .float _, _ | .bool _, _ | .string _, _ => rfl

theorem findIdentifierAll_patchAll (htrace : requestRuleTraceFunction ∉ names)
    (hint : requestRuleTraceIntFunction ∉ names) :
    ∀ (nodes : List Node) (p : RequestRulePatcher),
    Node.findIdentifierAll names (p.patchAll lib nodes).2 = Node.findIdentifierAll names nodes
  | [], _ => rfl
  | node :: rest, p => by
      simp [patchAll, findIdentifier_patch htrace hint node,
        findIdentifierAll_patchAll htrace hint rest]

end

theorem isRequestRule_patch (ternary : Bool) (cond exp1 exp2 : Node)
    (p p1 p2 : RequestRulePatcher) :
    isRequestRule ternary (p.patch lib cond).2 (p1.patch lib exp1).2 (p2.patch lib exp2).2 =
      isRequestRule ternary cond exp1 exp2 :=
  isRequestRule_congr (findIdentifier_patch (by decide) (by decide) cond p)
    (requestRuleNumber_patch p1 exp1) (requestRuleNumber_patch p2 exp2)

mutual

theorem patch_length : ∀ (node : Node) (p : RequestRulePatcher),
    (p.patch lib node).1.requestRules.length = p.requestRules.length + node.ruleCount
  | .identifier name, p => by
      unfold patch
      rw [(visit_identifier p name).2]
      rfl
  | .unary _ operand, p => by
      simpa [patch, visit, Node.ruleCount]
        using patch_length operand p
  | .binary _ left right, p => by
      simp only [patch, visit, Node.ruleCount]
      rw [patch_length right, patch_length left, Nat.add_assoc]
  | .conditional ternary cond exp1 exp2, p => by
      simp only [patch, Node.ruleCount]
      rw [(visit_conditional _ ternary _ _ _).2, isRequestRule_patch, patch_length exp2,
        patch_length exp1, patch_length cond]
      omega
  | .call callee arguments, p => by
      simp only [patch, visit, Node.ruleCount]
      rw [patchAll_length arguments, patch_length callee, Nat.add_assoc]
  | .builtin _ arguments, p => by
      simp only [patch, visit, Node.ruleCount]
      exact patchAll_length arguments p
  | .other _ children, p => by
      simp only [patch, visit, Node.ruleCount]
      exact patchAll_length children p
  | .nil, _ | .integer _, _ | .float _, _ | .bool _, _ | .string _, _ => rfl

theorem patchAll_length : ∀ (nodes : List Node) (p : RequestRulePatcher),
    (p.patchAll lib nodes).1.requestRules.length =
      p.requestRules.length + Node.ruleCountAll nodes
  | [], _ => rfl
  | node :: rest, p => by
      simp only [patchAll, Node.ruleCountAll]
      rw [patchAll_length rest, patch_length node, Nat.add_assoc]

end

end JulongApi.BillingExpr

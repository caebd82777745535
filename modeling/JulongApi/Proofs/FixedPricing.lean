/-
What an accepted expression charges.

The patched tree of an expression that `validateFixedPricingTree` accepts is a choice between tiers,
times multipliers (`Program`).  A run of it comes to one tier, the leaf, and returns the price of the
leaf times the multipliers it has evaluated on the way (`Prices`, `program_run`); the leaf is the
only place where `tier` or `fixed` is called by name.  So the trace tells of the leaf unless one of
the two is called in another way, through `$env`.  A fixed price is not negative, and neither is a
multiplier, so the product is not either, but for an overflow that is multiplied by zero.
-/
import JulongApi.Proofs.RequestRuleTrace
import JulongApi.Proofs.PricingCalls

namespace JulongApi.BillingExpr

open FloatingPoint

variable {vm : Vm} {lib : ExprLib}

/-! ### Accepted programs -/

def Node.Unmarked (node : Node) : Prop := node.findIdentifier pricingMarkers = false

inductive Node.Multiplier : Node → Prop
  | imageCount : Multiplier (.identifier "image_count")
  /-- One that is not written with `?` and `:` is not patched. -/
  | conditional {ternary : Bool} {cond exp1 exp2 : Node} {multiplier : ℚ} :
      cond.Unmarked → requestRuleNumber exp1 = some multiplier → 0 ≤ multiplier →
      requestRuleNumber exp2 = some 1 → Multiplier (.conditional ternary cond exp1 exp2)
  | rule {ruleIndex : Nat} {cond exp1 exp2 : Node} {multiplier : ℚ} :
      cond.Unmarked → requestRuleNumber exp1 = some multiplier → 0 ≤ multiplier →
      requestRuleNumber exp2 = some 1 → Multiplier (traceCall ruleIndex cond exp1 exp2)

inductive Node.Program : Node → Prop
  | fixed {name argument : Node} {amount : ℚ} :
      name.Unmarked → requestRuleNumber argument = some amount → 0 ≤ amount →
      scaledIsInf amount = false →
      Program (.call (.identifier "tier") [name, .call (.identifier "fixed") [argument]])
  | token {name price : Node} :
      name.Unmarked → price.Unmarked → Program (.call (.identifier "tier") [name, price])
  | conditional {ternary : Bool} {cond exp1 exp2 : Node} :
      cond.Unmarked → Program exp1 → Program exp2 → Program (.conditional ternary cond exp1 exp2)
  | right {left right : Node} :
      Program left → right.Multiplier → Program (.binary .times left right)
  | left {left right : Node} :
      left.Multiplier → Program right → Program (.binary .times left right)

variable {node : Node}

theorem Node.Unmarked.of_not (h : ¬ containsPricingMarker node = true) : node.Unmarked :=
  Bool.eq_false_of_not_eq_true h

theorem Node.Unmarked.patch (h : node.Unmarked) (p : RequestRulePatcher) :
    (p.patch lib node).2.Unmarked :=
  (findIdentifier_patch (by decide) (by decide) node p).trans h

theorem multiplier_patch (h : isRequestPriceMultiplier node = true) (p : RequestRulePatcher) :
    (p.patch lib node).2.Multiplier := by
  cases node with
  | identifier value =>
    have hvalue : value = "image_count" := of_decide_eq_true h
    subst hvalue
    unfold RequestRulePatcher.patch
    rw [(visit_identifier p _).1]
    exact .imageCount
  | conditional ternary cond exp1 exp2 =>
    unfold isRequestPriceMultiplier at h
    dsimp only at h
    by_cases hcond : (!usesRequestProbe cond || containsPricingMarker cond) = true
    · rw [if_pos hcond] at h
      cases h
    · rw [if_neg hcond] at h
      have hunmarked : cond.Unmarked := by
        refine .of_not fun hmarked => hcond ?_
        rw [hmarked, Bool.or_true]
      cases h1 : requestRuleNumber exp1 with
      | none => simp [h1] at h
      | some multiplier =>
        cases h2 : requestRuleNumber exp2 with
        | none => simp [h1, h2] at h
        | some fallback =>
          have hnumbers : fallback = 1 ∧ 0 ≤ multiplier := by simpa [h1, h2] using h
          obtain ⟨rfl, hnonneg⟩ := hnumbers
          unfold RequestRulePatcher.patch
          dsimp only
          rw [(visit_conditional _ ternary _ _ _).1, patch_of_number h1, patch_of_number h2]
          split
          · exact .rule (hunmarked.patch p) h1 hnonneg h2
          · exact .conditional (hunmarked.patch p) h1 hnonneg h2
  | _ => cases h

theorem number_of_accepted (h : validateFixedPricingTree node = .ok ()) :
    requestRuleNumber node = none := by
  cases node with
  | integer n => simp [validateFixedPricingTree] at h
  | float q => simp [validateFixedPricingTree] at h
  | _ => rfl

variable {price : Node}

theorem leafPrice_cases (h : validateLeafPrice price = .ok ()) :
    (∃ argument amount, price = .call (.identifier "fixed") [argument] ∧
      requestRuleNumber argument = some amount ∧ 0 ≤ amount ∧ scaledIsInf amount = false) ∨
    price.Unmarked := by
  unfold validateLeafPrice at h
  split at h
  next argument =>
    left
    cases hnumber : requestRuleNumber argument with
    | none => simp [hnumber] at h
    | some amount =>
      have hamount : 0 ≤ amount ∧ scaledIsInf amount = false := by
        by_contra hbad
        simp [hnumber, hbad] at h
      exact ⟨argument, amount, rfl, hnumber, hamount⟩
  next =>
    right
    by_cases hmarked : containsPricingMarker price = true
    · simp [hmarked] at h
    · exact .of_not hmarked

variable {arguments : List Node} {q : ℚ} {cond exp1 exp2 : Node} {cost : Float64}
  {trace : TraceResult} {usedVars : List String} {request : RequestInput vm}

theorem accepted_call {callee : Node}
    (h : validateFixedPricingTree (.call callee arguments) = .ok ()) :
    ∃ name price, callee = .identifier "tier" ∧ arguments = [name, price] ∧ name.Unmarked ∧
      validateLeafPrice price = .ok () := by
  unfold validateFixedPricingTree at h
  split at h
  next heq => cases heq
  next heq => cases heq
  next name price heq =>
    cases heq
    by_cases hmarked : containsPricingMarker name = true
    · simp [hmarked] at h
    · rw [if_neg hmarked] at h
      exact ⟨name, price, rfl, rfl, .of_not hmarked, h⟩
  next => cases h

/-- **The patched tree of an accepted expression is a program.** -/
theorem program_of_accepted : ∀ {node : Node}, validateFixedPricingTree node = .ok () →
    ∀ p : RequestRulePatcher, (p.patch lib node).2.Program
  | .conditional ternary cond exp1 exp2, h, p => by
      unfold validateFixedPricingTree at h
      by_cases hmarked : containsPricingMarker cond = true
      · simp [hmarked] at h
      · have hunmarked : cond.Unmarked := .of_not hmarked
        rw [if_neg hmarked] at h
        cases h1 : validateFixedPricingTree exp1 with
        | error e => simp [h1] at h
        | ok u =>
          have h2 : validateFixedPricingTree exp2 = .ok () := by simpa [h1] using h
          have hprogram1 := program_of_accepted h1 (p.patch lib cond).1
          have hprogram2 := program_of_accepted h2 ((p.patch lib cond).1.patch lib exp1).1
          have hrule : isRequestRule ternary cond exp1 exp2 = false := by
            simp [isRequestRule, number_of_accepted h1]
          unfold RequestRulePatcher.patch
          dsimp only
          rw [(visit_conditional _ ternary _ _ _).1, isRequestRule_patch, hrule]
          exact .conditional (hunmarked.patch p) hprogram1 hprogram2
  | .binary op left right, h, p => by
      unfold validateFixedPricingTree at h
      by_cases hop : op ≠ .times
      · simp [hop] at h
      · obtain rfl : op = .times := not_not.mp hop
        simp only [RequestRulePatcher.patch, RequestRulePatcher.visit]
        by_cases hright : isRequestPriceMultiplier right = true
        · have hleft : validateFixedPricingTree left = .ok () := by simpa [hright] using h
          exact .right (program_of_accepted hleft p) (multiplier_patch hright _)
        · by_cases hleft : isRequestPriceMultiplier left = true
          · have hrest : validateFixedPricingTree right = .ok () := by
              simpa [hright, hleft] using h
            exact .left (multiplier_patch hleft p) (program_of_accepted hrest _)
          · simp [hright, hleft] at h
  | .call callee arguments, h, p => by
      obtain ⟨name, price, rfl, rfl, hname, hprice⟩ := accepted_call h
      simp only [RequestRulePatcher.patch, RequestRulePatcher.patchAll, RequestRulePatcher.visit]
      rcases leafPrice_cases hprice with ⟨argument, amount, rfl, hnumber, hnonneg, hfinite⟩ | hprice
      · have hpatched := @patch_of_number _ lib _ hnumber
        simp only [RequestRulePatcher.patch, RequestRulePatcher.patchAll, RequestRulePatcher.visit,
          hpatched]
        exact .fixed (hname.patch _) hnumber hnonneg hfinite
      · exact .token (hname.patch _) (hprice.patch _)
  | .nil, h, _ | .identifier _, h, _ | .integer _, h, _ | .float _, h, _ | .bool _, h, _
  | .string _, h, _ | .unary _ _, h, _ | .builtin _ _, h, _ | .other _ _, h, _ => by
      simp [validateFixedPricingTree] at h

/-! ### Leaves and multipliers -/

structure Leaf where
  name : String
  value : Float64
  /-- The amount, where the price is `fixed(amount)`. -/
  amount : Option Float64

def Leaf.calls (leaf : Leaf) : List HostCall :=
  leaf.amount.toList.map (HostCall.fixed true) ++ [.tier true leaf.name leaf.value]

def fixedAmount : Node → Option Float64
  | .call (.identifier "fixed") [argument] => (requestRuleNumber argument).map Float64.exact
  | _ => none

def Value.number {Data : Type} : Value Data → Option Float64
  | .float x => some x
  | .int n => some (float64 n)
  | _ => none

/-- Evaluation comes to a leaf, past multipliers that are worth the numbers. -/
inductive Prices (env : Env vm) : Node → Leaf → List Float64 → Prop
  | tier {name price : Node} {nameValue priceValue : vm.Value} {nameCalls priceCalls : List HostCall}
      {text : String} {x : Float64} :
      (name.eval env none vm.empty).Returns nameValue nameCalls →
      vm.stringArgument nameValue = .ok text →
      (price.eval env none vm.empty).Returns priceValue priceCalls →
      vm.floatArgument (price.argumentKind, priceValue) = .ok x →
      Prices env (.call (.identifier "tier") [name, price]) ⟨text, x, fixedAmount price⟩ []
  | exp1 {ternary : Bool} {cond exp1 exp2 : Node} {calls : List HostCall} {leaf : Leaf}
      {multipliers : List Float64} :
      (cond.eval env none vm.empty).Returns (.bool true) calls → Prices env exp1 leaf multipliers →
      Prices env (.conditional ternary cond exp1 exp2) leaf multipliers
  | exp2 {ternary : Bool} {cond exp1 exp2 : Node} {calls : List HostCall} {leaf : Leaf}
      {multipliers : List Float64} :
      (cond.eval env none vm.empty).Returns (.bool false) calls → Prices env exp2 leaf multipliers →
      Prices env (.conditional ternary cond exp1 exp2) leaf multipliers
  | right {left right : Node} {value : vm.Value} {calls : List HostCall} {leaf : Leaf}
      {multipliers : List Float64} {multiplier : Float64} :
      Prices env left leaf multipliers → right.Multiplier →
      (right.eval env none vm.empty).Returns value calls → value.number = some multiplier →
      Prices env (.binary .times left right) leaf (multipliers ++ [multiplier])
  | left {left right : Node} {value : vm.Value} {calls : List HostCall} {leaf : Leaf}
      {multipliers : List Float64} {multiplier : Float64} :
      left.Multiplier → (left.eval env none vm.empty).Returns value calls →
      value.number = some multiplier → Prices env right leaf multipliers →
      Prices env (.binary .times left right) leaf (multipliers ++ [multiplier])

def Finite (x : Float64) : Prop := ∃ value, x = .number false (.finite value)

theorem finite_exact (h : 0 ≤ q) : Finite (.exact q) :=
  ⟨_, by rw [Float64.exact, decide_eq_false (not_lt.mpr h)]⟩

theorem float64OfInt_nonneg {n : Int} (h : 0 ≤ n) : 0 ≤ float64OfInt n := by
  unfold float64OfInt
  have hsign : (0 : ℚ) ≤ n.sign := by exact_mod_cast Int.sign_nonneg_iff.mpr h
  positivity

theorem eval_number (h : requestRuleNumber node = some q) (env : Env vm) :
    ∃ value : vm.Value, (∀ rules scope, node.eval env rules scope = .ok value) ∧
      value.number = some (.exact q) := by
  cases node with
  | integer n =>
    obtain rfl : float64OfInt n = q := Option.some.inj h
    exact ⟨.int n, fun _ _ => rfl, rfl⟩
  | float x =>
    obtain rfl : x = q := Option.some.inj h
    exact ⟨.float (.exact x), fun _ _ => rfl, rfl⟩
  | _ => cases h

variable {value : vm.Value}

theorem times_number (x : Float64) {m : Float64} (h : value.number = some m) :
    vm.times (.float x) value = .ok (.float (x.mul m)) ∧
      vm.times value (.float x) = .ok (.float (x.mul m)) := by
  cases value with
  | float y =>
    obtain rfl : y = m := Option.some.inj h
    exact ⟨rfl, by rw [Float64.mul_comm]; rfl⟩
  | int n =>
    obtain rfl : float64 n = m := Option.some.inj h
    exact ⟨rfl, by rw [Float64.mul_comm]; rfl⟩
  | _ => cases h

variable {env : Env vm} {calls : List HostCall}

theorem conditional_run {ternary : Bool}
    (hrun : ((Node.conditional ternary cond exp1 exp2).eval env none vm.empty).Returns value
      calls) :
    ∃ b first second, (cond.eval env none vm.empty).Returns (.bool b) first ∧
      ((if b then exp1 else exp2).eval env none vm.empty).Returns value second ∧
      calls = first ++ second := by
  obtain ⟨condition, first, second, hcond, hbranch, rfl⟩ := Logged.Returns.of_bind hrun
  cases condition with
  | bool b =>
    refine ⟨b, first, second, hcond, ?_, rfl⟩
    cases b with
    | true => exact hbranch
    | false => exact hbranch
  | _ => cases hbranch.1

theorem times_run {left right : Node}
    (hrun : ((Node.binary .times left right).eval env none vm.empty).Returns value calls) :
    ∃ a b first second, (left.eval env none vm.empty).Returns a first ∧
      (right.eval env none vm.empty).Returns b second ∧ vm.times a b = .ok value ∧
      calls = first ++ second := by
  obtain ⟨a, first, rest, hleft, hrest, rfl⟩ := Logged.Returns.of_bind hrun
  obtain ⟨b, second, last, hright, hproduct, rfl⟩ := hrest.of_bind
  obtain ⟨hvalue, rfl⟩ := Logged.returns_of.mp hproduct
  exact ⟨a, b, first, second, hleft, hright, hvalue, by simp⟩

theorem traceCall_run {ruleIndex : Nat} {multiplier : ℚ}
    (h1 : requestRuleNumber exp1 = some multiplier)
    (hrun : ((traceCall ruleIndex cond exp1 exp2).eval env none vm.empty).Returns value calls) :
    ∃ b : Bool, value.number = some (.exact (if b then multiplier else 1)) := by
  have hone : float64 1 = .exact 1 := by decide +kernel
  by_cases hintegers : (exp1.isInteger && exp2.isInteger) = true
  · cases exp1 with
    | integer n =>
      obtain rfl : float64OfInt n = multiplier := Option.some.inj h1
      rw [eval_traceCall_int env ruleIndex cond n (Bool.and_eq_true_iff.mp hintegers).2] at hrun
      obtain ⟨matched, first, rest, -, hrest, -⟩ := hrun.of_bind
      obtain ⟨b, second, last, -, hlast, -⟩ := hrest.of_bind
      obtain ⟨others, hothers, -⟩ := Logged.returns_after.mp hlast
      refine ⟨b, ?_⟩
      have hvalue : (Except.ok (if b then Value.int n else .int 1) : Except String vm.Value) =
          .ok value := hothers.1
      injection hvalue with hvalue
      rw [← hvalue]
      cases b with
      | true => rfl
      | false => exact congrArg some hone
    | _ => cases hintegers
  · have hmixed : (exp1.isInteger && exp2.isInteger) = false := by simpa using hintegers
    rw [eval_traceCall_float env ruleIndex cond h1 hmixed] at hrun
    obtain ⟨matched, first, rest, -, hrest, -⟩ := hrun.of_bind
    obtain ⟨b, second, last, -, hlast, -⟩ := hrest.of_bind
    obtain ⟨others, hothers, -⟩ := Logged.returns_after.mp hlast
    refine ⟨b, ?_⟩
    have hvalue : (Except.ok (if b then Value.float (.exact multiplier) else .float (.exact 1)) :
        Except String vm.Value) = .ok value := hothers.1
    injection hvalue with hvalue
    rw [← hvalue]
    cases b <;> rfl

theorem multiplier_run (himages : 0 ≤ env.imageCount) (h : node.Multiplier)
    (hrun : (node.eval env none vm.empty).Returns value calls) :
    ∃ m, value.number = some m ∧ Finite m := by
  cases h with
  | imageCount =>
    have hvalue : (Except.ok (Value.float (float64 env.imageCount)) : Except String vm.Value) =
        .ok value := hrun.1
    injection hvalue with hvalue
    exact ⟨_, by rw [← hvalue]; rfl, finite_exact (float64OfInt_nonneg himages)⟩
  | @conditional ternary cond exp1 exp2 multiplier hcond h1 hnonneg h2 =>
    obtain ⟨b, first, second, -, hbranch, -⟩ := conditional_run hrun
    cases b with
    | true =>
      obtain ⟨value1, heval, hnumber⟩ := eval_number h1 env
      obtain ⟨rfl, -⟩ := (heval none vm.empty ▸ Logged.returns_ok value1).unique hbranch
      exact ⟨_, hnumber, finite_exact hnonneg⟩
    | false =>
      obtain ⟨value2, heval, hnumber⟩ := eval_number h2 env
      obtain ⟨rfl, -⟩ := (heval none vm.empty ▸ Logged.returns_ok value2).unique hbranch
      exact ⟨_, hnumber, finite_exact (by norm_num)⟩
  | rule hcond h1 hnonneg h2 =>
    obtain ⟨b, hnumber⟩ := traceCall_run h1 hrun
    cases b with
    | true => exact ⟨_, hnumber, finite_exact hnonneg⟩
    | false => exact ⟨_, hnumber, finite_exact (by norm_num)⟩

theorem Node.Multiplier.unmarked (h : node.Multiplier) : node.Unmarked := by
  cases h with
  | imageCount => rfl
  | conditional hcond h1 _ h2 =>
    unfold Node.Unmarked
    rw [findIdentifier_conditional, findIdentifier_of_number _ h1,
      findIdentifier_of_number _ h2, hcond]
    rfl
  | rule hcond h1 _ h2 =>
    exact (findIdentifier_traceCall (by decide) (by decide) h1 _ _).trans hcond

/-! ### Runs of programs -/

theorem call_run {function : String} (henv : function ≠ "$env")
    (hlookup : env.lookup function = some (.function function))
    (hrun : ((Node.call (.identifier function) arguments).eval env none vm.empty).Returns value
      calls) :
    ∃ values first second,
      (vm.evaluateAll (Node.evalAll env none arguments) vm.empty).Returns values first ∧
      (env.callFunction true function ((arguments.map Node.argumentKind).zip values)).Returns
        value second ∧ calls = first ++ second := by
  obtain ⟨values, first, rest, hvalues, hrest, rfl⟩ := Logged.Returns.of_bind hrun
  simp only [Node.eval, if_neg henv, hlookup, Logged.ok_bind, Node.identifier?, apply_named] at hrest
  exact ⟨values, first, rest, hvalues, hrest, rfl⟩

theorem eval_fixed (env : Env vm) {argument : Node} {amount : ℚ}
    (hnumber : requestRuleNumber argument = some amount) :
    ((Node.call (.identifier "fixed") [argument]).eval env none vm.empty).Returns
      (.float ((Float64.exact amount).mul million)) [.fixed true (.exact amount)] := by
  cases argument with
  | integer n =>
    obtain rfl : float64OfInt n = amount := Option.some.inj hnumber
    exact ⟨rfl, rfl⟩
  | float q =>
    obtain rfl : q = amount := Option.some.inj hnumber
    exact ⟨rfl, rfl⟩
  | _ => cases hnumber

theorem evaluateAll_pair {x y : vm.Computation} {scope : vm.Scope} {values : List vm.Value}
    (h : (vm.evaluateAll [x, y] scope).Returns values calls) :
    ∃ a b first second, (x scope).Returns a first ∧ (y scope).Returns b second ∧ values = [a, b] ∧
      calls = first ++ second := by
  obtain ⟨a, first, rest, hx, hrest, rfl⟩ := Logged.Returns.of_bind h
  obtain ⟨others, second, last, hsecond, ⟨hvalues, rfl⟩, rfl⟩ := hrest.of_bind
  obtain ⟨b, second, none, hy, ⟨hothers, rfl⟩, rfl⟩ := Logged.Returns.of_bind hsecond
  have hothers : [b] = others := by injection hothers
  have hvalues : a :: others = values := by injection hvalues
  exact ⟨a, b, first, second, hx, hy, by rw [← hvalues, ← hothers], by simp [Vm.evaluateAll]⟩

theorem tier_run {name : Node}
    (hrun : ((Node.call (.identifier "tier") [name, price]).eval env none vm.empty).Returns value
      calls) :
    ∃ nameValue nameCalls priceValue priceCalls text x,
      (name.eval env none vm.empty).Returns nameValue nameCalls ∧
      vm.stringArgument nameValue = .ok text ∧
      (price.eval env none vm.empty).Returns priceValue priceCalls ∧
      vm.floatArgument (price.argumentKind, priceValue) = .ok x ∧ value = .float x ∧
      calls = nameCalls ++ priceCalls ++ [.tier true text x] := by
  obtain ⟨values, first, second, hvalues, hcall, rfl⟩ := call_run (by decide) rfl hrun
  obtain ⟨nameValue, priceValue, nameCalls, priceCalls, hname, hprice, rfl, rfl⟩ :=
    evaluateAll_pair hvalues
  obtain ⟨text, textCalls, rest, htext, hrest, rfl⟩ := Logged.Returns.of_bind hcall
  obtain ⟨x, priceArgument, last, hx, hlast, rfl⟩ := hrest.of_bind
  obtain ⟨htextValue, rfl⟩ := Logged.returns_of.mp htext
  obtain ⟨hxValue, rfl⟩ := Logged.returns_of.mp hx
  obtain ⟨_, ⟨hvalue, rfl⟩, rfl⟩ := Logged.returns_after.mp hlast
  injection hvalue with hvalue
  exact ⟨nameValue, nameCalls, priceValue, priceCalls, text, x, hname, htextValue, hprice, hxValue,
    hvalue.symm, by simp⟩

/-- What a run has charged: a leaf, times multipliers from zero on. -/
structure Charges (leaf : Leaf) (multipliers : List Float64) (value : vm.Value)
    (calls : List HostCall) : Prop where
  value_eq : value = .float (product leaf.value multipliers)
  /-- The leaf is all that prices anything by name. -/
  calls_eq : calls.filter HostCall.isNamedPricing = leaf.calls
  multipliers_finite : ∀ multiplier ∈ multipliers, Finite multiplier
  /-- A fixed price is a million times its amount, and not negative. -/
  fixed : ∀ amount, leaf.amount = some amount →
    leaf.value = amount.mul million ∧ ∃ magnitude, leaf.value = .number false magnitude

theorem fixedAmount_of_unmarked (h : price.Unmarked) : fixedAmount price = none := by
  unfold fixedAmount
  split
  next argument =>
    unfold Node.Unmarked at h
    rw [findIdentifier_call] at h
    cases h
  next => rfl

theorem filter_of_unmarked (hvm : vm.Contained) (h : node.Unmarked)
    (hrun : (node.eval env none vm.empty).Returns value calls) :
    calls.filter HostCall.isNamedPricing = [] := by
  have hquiet := unmarked_quiet hvm env h vm.empty
  rw [List.filter_eq_nil_iff]
  intro call hcall
  rw [← hrun.2] at hcall
  rw [hquiet call hcall]
  exact Bool.false_ne_true

/-- **A run of a program comes to one leaf and charges it.** -/
theorem program_run (hvm : vm.Contained) {env : Env vm} (himages : 0 ≤ env.imageCount)
    {node : Node} (h : node.Program) : ∀ {value : vm.Value} {calls : List HostCall},
    (node.eval env none vm.empty).Returns value calls →
    ∃ leaf multipliers, Prices env node leaf multipliers ∧
      Charges leaf multipliers value calls := by
  induction h with
  | @fixed name argument amount hname hnumber hnonneg hfinite =>
    intro value calls hrun
    obtain ⟨nameValue, nameCalls, priceValue, priceCalls, text, x, hnameRun, htext, hpriceRun, hx,
      rfl, rfl⟩ := tier_run hrun
    obtain ⟨rfl, rfl⟩ := hpriceRun.unique (eval_fixed env hnumber)
    have hamount : fixedAmount (.call (.identifier "fixed") [argument]) =
        some (.exact amount) := by
      simp [fixedAmount, hnumber]
    have hvalue : x = (Float64.exact amount).mul million := by
      have heq : (Except.ok ((Float64.exact amount).mul million) : Except String Float64) =
          .ok x := hx
      injection heq with heq
      exact heq.symm
    refine ⟨_, _, .tier hnameRun htext hpriceRun hx, rfl, ?_, by simp, ?_⟩
    · simp [List.filter_append, filter_of_unmarked hvm hname hnameRun, Leaf.calls, hamount,
        HostCall.isNamedPricing]
    · intro other hother
      obtain rfl : Float64.exact amount = other := by
        simpa [hamount] using hother
      obtain ⟨q, hq⟩ := finite_exact hnonneg
      have hmillion : million = .number false (.finite (Rat.nnabs 1000000)) := by decide +kernel
      refine ⟨hvalue, .round (q * Rat.nnabs 1000000), ?_⟩
      dsimp only
      rw [hvalue, hq, hmillion]
      rfl
  | @token name price hname hprice =>
    intro value calls hrun
    obtain ⟨nameValue, nameCalls, priceValue, priceCalls, text, x, hnameRun, htext, hpriceRun, hx,
      rfl, rfl⟩ := tier_run hrun
    have hamount := fixedAmount_of_unmarked hprice
    refine ⟨_, _, .tier hnameRun htext hpriceRun hx, rfl, ?_, by simp, ?_⟩
    · simp [List.filter_append, filter_of_unmarked hvm hname hnameRun,
        filter_of_unmarked hvm hprice hpriceRun, Leaf.calls, hamount, HostCall.isNamedPricing]
    · intro other hother
      rw [hamount] at hother
      cases hother
  | conditional hcond _ _ ih1 ih2 =>
    intro value calls hrun
    obtain ⟨b, first, second, hcondRun, hbranch, rfl⟩ := conditional_run hrun
    have hquiet := filter_of_unmarked hvm hcond hcondRun
    cases b with
    | true =>
      obtain ⟨leaf, multipliers, hprices, hcharges⟩ := ih1 hbranch
      refine ⟨leaf, multipliers, .exp1 hcondRun hprices, hcharges.value_eq, ?_,
        hcharges.multipliers_finite, hcharges.fixed⟩
      rw [List.filter_append, hquiet, List.nil_append, hcharges.calls_eq]
    | false =>
      obtain ⟨leaf, multipliers, hprices, hcharges⟩ := ih2 hbranch
      refine ⟨leaf, multipliers, .exp2 hcondRun hprices, hcharges.value_eq, ?_,
        hcharges.multipliers_finite, hcharges.fixed⟩
      rw [List.filter_append, hquiet, List.nil_append, hcharges.calls_eq]
  | right _ hmultiplier ih =>
    intro value calls hrun
    obtain ⟨a, b, first, second, hleft, hright, hproduct, rfl⟩ := times_run hrun
    obtain ⟨leaf, multipliers, hprices, hcharges⟩ := ih hleft
    obtain ⟨m, hnumber, hm⟩ := multiplier_run himages hmultiplier hright
    refine ⟨leaf, multipliers ++ [m], .right hprices hmultiplier hright hnumber, ?_, ?_, ?_,
      hcharges.fixed⟩
    · rw [hcharges.value_eq, (times_number _ hnumber).1] at hproduct
      injection hproduct with hproduct
      rw [← hproduct, product_append, product_cons, product_nil]
    · rw [List.filter_append, hcharges.calls_eq,
        filter_of_unmarked hvm hmultiplier.unmarked hright, List.append_nil]
    · intro other hother
      rcases List.mem_append.mp hother with hother | hother
      · exact hcharges.multipliers_finite other hother
      · rwa [List.mem_singleton.mp hother]
  | left hmultiplier _ ih =>
    intro value calls hrun
    obtain ⟨a, b, first, second, hleft, hright, hproduct, rfl⟩ := times_run hrun
    obtain ⟨leaf, multipliers, hprices, hcharges⟩ := ih hright
    obtain ⟨m, hnumber, hm⟩ := multiplier_run himages hmultiplier hleft
    refine ⟨leaf, multipliers ++ [m], .left hmultiplier hleft hnumber hprices, ?_, ?_, ?_,
      hcharges.fixed⟩
    · rw [hcharges.value_eq, (times_number _ hnumber).2] at hproduct
      injection hproduct with hproduct
      rw [← hproduct, product_append, product_cons, product_nil]
    · rw [List.filter_append, hcharges.calls_eq,
        filter_of_unmarked hvm hmultiplier.unmarked hleft, List.nil_append]
    · intro other hother
      rcases List.mem_append.mp hother with hother | hother
      · exact hcharges.multipliers_finite other hother
      · rwa [List.mem_singleton.mp hother]

/-! ### The trace of a run -/

def HostCall.tier? : HostCall → Option (String × Float64)
  | .tier _ name value => some (name, value)
  | _ => none

def HostCall.amount? : HostCall → Option Float64
  | .fixed _ amount => some amount
  | _ => none

theorem recordAll_price (calls : List HostCall) : ∀ trace : TraceResult,
    ((trace.recordAll calls).billingUnit, (trace.recordAll calls).fixedPrice) =
      (calls.filterMap HostCall.amount?).foldl (fun _ amount => (.request, some amount))
        (trace.billingUnit, trace.fixedPrice) := by
  induction calls with
  | nil =>
    intro trace
    rfl
  | cons call rest ih =>
    intro trace
    have hall : trace.recordAll (call :: rest) = (trace.record call).recordAll rest := rfl
    rw [hall, ih]
    cases call with
    | rule named ruleIndex =>
      have hkept : (trace.record (.rule named ruleIndex)).billingUnit = trace.billingUnit ∧
          (trace.record (.rule named ruleIndex)).fixedPrice = trace.fixedPrice := by
        unfold TraceResult.record
        dsimp only
        split <;> exact ⟨rfl, rfl⟩
      rw [hkept.1, hkept.2]
      rfl
    | _ => rfl

theorem pricing_length (calls : List HostCall) :
    (calls.filter HostCall.isPricing).length =
      (calls.filterMap HostCall.tier?).length + (calls.filterMap HostCall.amount?).length := by
  induction calls with
  | nil => rfl
  | cons call rest ih =>
    cases call with
    | tier named name value =>
      have htier : (HostCall.tier named name value).tier? = some (name, value) := rfl
      rw [List.filter_cons_of_pos rfl, List.filterMap_cons_some htier,
        List.filterMap_cons_none rfl, List.length_cons, List.length_cons, ih]
      omega
    | fixed named amount =>
      have hamount : (HostCall.fixed named amount).amount? = some amount := rfl
      rw [List.filter_cons_of_pos rfl, List.filterMap_cons_none rfl,
        List.filterMap_cons_some hamount, List.length_cons, List.length_cons, ih]
      omega
    | rule named ruleIndex =>
      rw [List.filter_cons_of_neg Bool.false_ne_true, List.filterMap_cons_none rfl,
        List.filterMap_cons_none rfl, ih]

theorem filterMap_pricing {α : Type} {f : HostCall → Option α}
    (hf : ∀ named ruleIndex, f (.rule named ruleIndex) = none) (calls : List HostCall) :
    (calls.filter HostCall.isPricing).filterMap f = calls.filterMap f := by
  induction calls with
  | nil => rfl
  | cons call rest ih =>
    cases call with
    | rule named ruleIndex =>
      rw [List.filter_cons_of_neg Bool.false_ne_true, List.filterMap_cons_none (hf _ _), ih]
    | _ => rw [List.filter_cons_of_pos rfl, List.filterMap_cons, List.filterMap_cons, ih]

theorem filter_named (calls : List HostCall) :
    (calls.filter HostCall.isPricing).filter HostCall.isNamedPricing =
      calls.filter HostCall.isNamedPricing := by
  rw [List.filter_filter]
  congr 1
  funext call
  cases call <;> simp [HostCall.isPricing, HostCall.isNamedPricing]

theorem leaf_tiers (leaf : Leaf) :
    leaf.calls.filterMap HostCall.tier? = [(leaf.name, leaf.value)] ∧
      leaf.calls.filterMap HostCall.amount? = leaf.amount.toList ∧
      leaf.calls.length = 1 + leaf.amount.toList.length := by
  obtain ⟨name, value, amount⟩ := leaf
  cases amount with
  | none => exact ⟨rfl, rfl, rfl⟩
  | some amount => exact ⟨rfl, rfl, rfl⟩

/-- **The run of a program is priced by one leaf.** -/
structure PricedOnce (leaf : Leaf) (multipliers : List Float64) (cost : Float64)
    (trace : TraceResult) (calls : List HostCall) : Prop where
  /-- One tier is called. -/
  tiers : calls.filterMap HostCall.tier? = [(leaf.name, leaf.value)]
  /-- One price is fixed, if that of the leaf is. -/
  amounts : calls.filterMap HostCall.amount? = leaf.amount.toList
  cost_eq : cost = product leaf.value multipliers
  /-- A fixed price is a million times its amount, and is not charged below zero. -/
  fixed : ∀ amount, leaf.amount = some amount →
    leaf.value = amount.mul million ∧ cost.IsNonneg
  billingUnit_eq : trace.billingUnit = if leaf.amount.isSome then .request else .token
  fixedPrice_eq : trace.fixedPrice = leaf.amount

theorem Charges.pricedOnce_iff {leaf : Leaf} {multipliers : List Float64}
    (h : @Charges vm leaf multipliers (.float cost) calls) (hunit : trace.billingUnit = .token)
    (hprice : trace.fixedPrice = none) :
    PricedOnce leaf multipliers cost (trace.recordAll calls) calls ↔
      (∀ call ∈ calls, call.isPricing = true → call.isNamedPricing = true) ∧
        (leaf.amount.isSome = true → overflowLost leaf.value multipliers = false) := by
  have hcost : cost = product leaf.value multipliers := by
    have heq := h.value_eq
    injection heq
  have hnonneg : ∀ amount, leaf.amount = some amount →
      (cost.IsNonneg ↔ overflowLost leaf.value multipliers = false) := by
    intro amount hamount
    obtain ⟨-, magnitude, hmagnitude⟩ := h.fixed amount hamount
    rw [hcost, hmagnitude]
    exact product_nonneg_iff h.multipliers_finite magnitude
  have hnamed := (filter_named calls).trans h.calls_eq
  obtain ⟨htiers, hamounts, hlength⟩ := leaf_tiers leaf
  constructor
  · intro hpriced
    constructor
    · intro call hcall hpricing
      have hcount := pricing_length calls
      rw [hpriced.tiers, hpriced.amounts, List.length_singleton, ← hlength, ← hnamed] at hcount
      exact List.length_filter_eq_length_iff.mp hcount.symm call
        (List.mem_filter.mpr ⟨hcall, hpricing⟩)
    · intro hsome
      obtain ⟨amount, hamount⟩ := Option.isSome_iff_exists.mp hsome
      exact (hnonneg amount hamount).mp (hpriced.fixed amount hamount).2
  · rintro ⟨hall, hlost⟩
    have hpricing : calls.filter HostCall.isPricing = leaf.calls := by
      rw [← hnamed]
      refine (List.filter_eq_self.mpr fun call hcall => ?_).symm
      obtain ⟨hmem, hcall⟩ := List.mem_filter.mp hcall
      exact hall call hmem hcall
    have hcallTiers : calls.filterMap HostCall.tier? = [(leaf.name, leaf.value)] := by
      rw [← filterMap_pricing (fun _ _ => rfl) calls, hpricing, htiers]
    have hcallAmounts : calls.filterMap HostCall.amount? = leaf.amount.toList := by
      rw [← filterMap_pricing (fun _ _ => rfl) calls, hpricing, hamounts]
    have htrace := recordAll_price calls trace
    rw [hcallAmounts, hunit, hprice] at htrace
    refine ⟨hcallTiers, hcallAmounts, hcost, ?_, ?_, ?_⟩
    · intro amount hamount
      refine ⟨(h.fixed amount hamount).1, (hnonneg amount hamount).mpr (hlost ?_)⟩
      rw [hamount]
      rfl
    · cases hamount : leaf.amount with
      | none => exact (Prod.ext_iff.mp htrace).1.trans (by rw [hamount]; rfl)
      | some amount => exact (Prod.ext_iff.mp htrace).1.trans (by rw [hamount]; rfl)
    · cases hamount : leaf.amount with
      | none => exact (Prod.ext_iff.mp htrace).2.trans (by rw [hamount]; rfl)
      | some amount => exact (Prod.ext_iff.mp htrace).2.trans (by rw [hamount]; rfl)

theorem runProgram_ok {prog : Node} {requestRules : List RequestRuleTrace} {params : TokenParams}
    (h : runProgram vm prog requestRules usedVars params request = (.ok cost, trace)) :
    ∃ imageCount calls, ∃ start : TraceResult, imageCountOf usedVars request = some imageCount ∧
      vm.EvaluatesTo (prog.eval (request.env params imageCount) none) cost calls ∧
      start.billingUnit = .token ∧ start.fixedPrice = none ∧ trace = start.recordAll calls := by
  unfold runProgram at h
  dsimp only at h
  cases himages : imageCountOf usedVars request with
  | none => simp [himages] at h
  | some imageCount =>
    simp only [himages] at h
    cases hresult : (prog.eval (request.env params imageCount) none vm.empty).result with
    | error text => simp [hresult] at h
    | ok value =>
      simp only [hresult] at h
      cases hfloat : vm.asFloat64 value with
      | error text => simp [hfloat] at h
      | ok f =>
        simp only [hfloat, Prod.mk.injEq, Except.ok.injEq] at h
        obtain ⟨rfl, htrace⟩ := h
        refine ⟨imageCount, _, _, rfl, ⟨value, ⟨hresult, rfl⟩, hfloat⟩, ?_, ?_, htrace.symm⟩
        · split <;> rfl
        · split <;> rfl

theorem imageCountOf_nonneg {imageCount : Int}
    (h : imageCountOf usedVars request = some imageCount) : 0 ≤ imageCount := by
  unfold imageCountOf at h
  split at h
  · dsimp only at h
    split at h
    · cases h
    next hbounds =>
      cases h
      omega
  · cases h
    decide

/-- **A run of an accepted expression is priced by one leaf, as long as nothing is priced but by name
and no overflow is lost.** -/
theorem priced_by_one_leaf_iff (lib : ExprLib) (hvm : vm.Contained) {tree : Node}
    (haccepted : validateFixedPricingTree tree = .ok ()) {requestRules : List RequestRuleTrace}
    {usedVars : List String} {params : TokenParams} {request : RequestInput vm} {cost : Float64}
    {trace : TraceResult}
    (hrun : runProgram vm ((⟨[], ""⟩ : RequestRulePatcher).patch lib tree).2 requestRules usedVars
      params request = (.ok cost, trace)) :
    ∃ imageCount calls leaf multipliers, imageCountOf usedVars request = some imageCount ∧
      vm.EvaluatesTo (((⟨[], ""⟩ : RequestRulePatcher).patch lib tree).2.eval
        (request.env params imageCount) none) cost calls ∧
      Prices (request.env params imageCount) ((⟨[], ""⟩ : RequestRulePatcher).patch lib tree).2 leaf
        multipliers ∧
      (PricedOnce leaf multipliers cost trace calls ↔
        (∀ call ∈ calls, call.isPricing = true → call.isNamedPricing = true) ∧
          (leaf.amount.isSome = true → overflowLost leaf.value multipliers = false)) := by
  obtain ⟨imageCount, calls, start, himages, heval, hunit, hprice, rfl⟩ := runProgram_ok hrun
  obtain ⟨value, hvalue, hcost⟩ := heval
  have hprogram := @program_of_accepted lib _ haccepted ⟨[], ""⟩
  obtain ⟨leaf, multipliers, hprices, hcharges⟩ :=
    @program_run vm hvm (request.env params imageCount) (imageCountOf_nonneg himages) _ hprogram _ _
      hvalue
  have hfloat : value = .float cost := by
    have heq := hcost
    rw [hcharges.value_eq] at heq
    have hsame : (Except.ok (product leaf.value multipliers) : Except String Float64) = .ok cost :=
      heq
    injection hsame with hsame
    rw [hcharges.value_eq, hsame]
  rw [hfloat] at hcharges
  exact ⟨imageCount, calls, leaf, multipliers, himages, ⟨value, hvalue, hcost⟩, hprices,
    hcharges.pricedOnce_iff hunit hprice⟩

/-! ### Runs -/

theorem smallVm_contained : smallVm.Contained where
  unary _ _ _ _ _ := Logged.logs_error _
  binary op x y p hx hy scope := by
    by_cases hop : op = .equal
    · simp only [smallVm, if_pos hop]
      refine (hx scope).bind fun a => (hy scope).bind fun b => ?_
      split
      · exact Logged.logs_ok _
      · exact Logged.logs_error _
    · simp only [smallVm, if_neg hop]
      exact Logged.logs_error _
  builtin _ _ _ _ _ := Logged.logs_error _
  other kind xs p hxs scope := by
    by_cases hkind : kind = "member"
    · simp only [smallVm, if_pos hkind]
      match xs, hxs with
      | [object, property], hxs =>
        refine (hxs object (by simp) scope).bind fun a =>
          (hxs property (by simp) scope).bind fun b => ?_
        split
        · split
          · exact Logged.logs_ok _
          · exact Logged.logs_error _
        · exact Logged.logs_error _
      | [], _ | [_], _ | _ :: _ :: _ :: _, _ => exact Logged.logs_error _
    · simp only [smallVm, if_neg hkind]
      exact Logged.logs_error _

def smallParams : TokenParams := smallEnv.params

def smallRequest : RequestInput smallVm where
  imageCount := some 3
  function := smallEnv.function

/-- `header("x") == "2" ? tier("a", p) : tier("b", fixed(2)) * image_count` -/
def fixedOrTokens : Node :=
  .conditional true (headerIs "2") (.call (.identifier "tier") [.string "a", .identifier "p"])
    (.binary .times
      (.call (.identifier "tier") [.string "b", .call (.identifier "fixed") [.integer 2]])
      (.identifier "image_count"))

/-- A fixed price for each of three images. -/
theorem three_images_priced :
    ∃ trace imageCount calls leaf multipliers,
      imageCountOf ["image_count"] smallRequest = some imageCount ∧
      smallVm.EvaluatesTo (((⟨[], ""⟩ : RequestRulePatcher).patch smallLib fixedOrTokens).2.eval
        (smallRequest.env smallParams imageCount) none) (.exact 6000000) calls ∧
      Prices (smallRequest.env smallParams imageCount)
        ((⟨[], ""⟩ : RequestRulePatcher).patch smallLib fixedOrTokens).2 leaf multipliers ∧
      (PricedOnce leaf multipliers (.exact 6000000) trace calls ↔
        (∀ call ∈ calls, call.isPricing = true → call.isNamedPricing = true) ∧
          (leaf.amount.isSome = true → overflowLost leaf.value multipliers = false)) := by
  have haccepted : validateFixedPricingTree fixedOrTokens = .ok () := by decide +kernel
  have hrun : runProgram smallVm ((⟨[], ""⟩ : RequestRulePatcher).patch smallLib fixedOrTokens).2
      [] ["image_count"] smallParams smallRequest =
        (.ok (.exact 6000000), ⟨some 3, .request, some (.exact 2), "b", [], .exact 2000000⟩) := by
    decide +kernel
  exact ⟨_, priced_by_one_leaf_iff smallLib smallVm_contained haccepted hrun⟩

/-- `header("x") == "2" ? tier("b", fixed(2)) : tier("a", $env.fixed(1) * p)` -/
def fixedThroughEnv : Node :=
  .conditional true (headerIs "2")
    (.call (.identifier "tier") [.string "b", .call (.identifier "fixed") [.integer 2]])
    (.call (.identifier "tier") [.string "a", .binary .times
      (.call (.other "member" [.identifier "$env", .string "fixed"]) [.float 1])
      (.identifier "p")])

/-- `tier("b", fixed(x)) * (header("x") == "1" ? x : 1) * (header("x") == "1" ? 0 : 1)`, where `x` is
`6.696928794914171e299`, which is to say `2 ^ 996`. -/
def overflowing : Node :=
  .binary .times
    (.binary .times
      (.call (.identifier "tier") [.string "b", .call (.identifier "fixed") [.float (2 ^ 996)]])
      (.conditional true (headerIs "1") (.float (2 ^ 996)) (.integer 1)))
    (.conditional true (headerIs "1") (.integer 0) (.integer 1))

def smallRun (tree : Node) : Except RunError Float64 × TraceResult :=
  runProgram smallVm ((⟨[], ""⟩ : RequestRulePatcher).patch smallLib tree).2
    ((⟨[], ""⟩ : RequestRulePatcher).patch smallLib tree).1.requestRules [] smallParams smallRequest

/-- The tokens of a tier are charged as a request where the price is fixed through `$env`, and a
fixed price is charged as NaN after an overflow. -/
theorem accepted_misprices :
    (validateFixedPricingTree fixedThroughEnv = .ok () ∧
      (smallRun fixedThroughEnv).1 = .ok (.exact 0) ∧
      (smallRun fixedThroughEnv).2.matchedTier = "a" ∧
      (smallRun fixedThroughEnv).2.billingUnit = .request ∧
      (smallRun fixedThroughEnv).2.fixedPrice = some (.exact 1)) ∧
    (validateFixedPricingTree overflowing = .ok () ∧
      (smallRun overflowing).2.billingUnit = .request ∧
      ¬ ∃ cost, (smallRun overflowing).1 = .ok cost ∧ cost.IsNonneg) := by
  refine ⟨by decide +kernel, by decide +kernel, by decide +kernel, ?_⟩
  rintro ⟨cost, hcost, hnonneg⟩
  have hnan : (smallRun overflowing).1 = .ok .nan := by decide +kernel
  rw [hnan] at hcost
  injection hcost with hcost
  rw [← hcost] at hnonneg
  exact hnonneg

end JulongApi.BillingExpr

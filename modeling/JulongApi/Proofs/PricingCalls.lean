/-
Which calls a node makes.

What prices a run are the calls of `tier` and `fixed`.  A node makes such a call by name only if one
of the two names stands in it, whatever the language does with the nodes under it (`unmarked_quiet`).
A call through a value is another matter: `ast.Find` does not come past the name there.
-/
import JulongApi.BillingRun
import JulongApi.Proofs.BillingExpr

namespace JulongApi.BillingExpr

open FloatingPoint

variable {vm : Vm}

/-- A node of the language makes no calls but those of its children. -/
structure Vm.Contained (vm : Vm) : Prop where
  unary : ∀ op {x : vm.Computation} {p : HostCall → Prop}, (∀ scope, (x scope).Logs p) →
    ∀ scope, (vm.unary op x scope).Logs p
  binary : ∀ op {x y : vm.Computation} {p : HostCall → Prop}, (∀ scope, (x scope).Logs p) →
    (∀ scope, (y scope).Logs p) → ∀ scope, (vm.binary op x y scope).Logs p
  builtin : ∀ name {xs : List vm.Computation} {p : HostCall → Prop},
    (∀ x ∈ xs, ∀ scope, (x scope).Logs p) → ∀ scope, (vm.builtin name xs scope).Logs p
  other : ∀ kind {xs : List vm.Computation} {p : HostCall → Prop},
    (∀ x ∈ xs, ∀ scope, (x scope).Logs p) → ∀ scope, (vm.other kind xs scope).Logs p

def HostCall.isPricing : HostCall → Bool
  | .tier _ _ _ => true
  | .fixed _ _ => true
  | .rule _ _ => false

/-- Those of them that are written with the name. -/
def HostCall.isNamedPricing : HostCall → Bool
  | .tier named _ _ => named
  | .fixed named _ => named
  | .rule _ _ => false

def HostCall.Quiet (call : HostCall) : Prop := call.isNamedPricing = false

def pricingMarkers : List String := ["tier", "fixed"]

variable {p : HostCall → Prop}

theorem callTier_logs {named : Bool} (hp : ∀ name x, p (.tier named name x))
    (arguments : List (ArgumentKind × vm.Value)) : (callTier vm named arguments).Logs p := by
  match arguments with
  | [name, value] =>
    refine (Logged.logs_of _).bind fun s => (Logged.logs_of _).bind fun x => ?_
    exact (Logged.logs_ok _).after (by simpa using hp s x)
  | [] | [_] | _ :: _ :: _ :: _ => exact Logged.logs_error _

theorem callFixed_logs {named : Bool} (hp : ∀ amount, p (.fixed named amount))
    (arguments : List (ArgumentKind × vm.Value)) : (callFixed vm named arguments).Logs p := by
  match arguments with
  | [amount] =>
    refine (Logged.logs_of _).bind fun x => ?_
    exact (Logged.logs_ok _).after (by simpa using hp x)
  | [] | _ :: _ :: _ => exact Logged.logs_error _

theorem quiet_ruleCalls (named : Bool) (ruleIndex : Int) (matched : Bool) :
    ∀ call ∈ ruleCalls named ruleIndex matched, call.Quiet := by
  intro call hcall
  cases matched with
  | false => cases hcall
  | true =>
    obtain rfl := List.mem_singleton.mp hcall
    rfl

theorem callTrace_quiet (named : Bool) (arguments : List (ArgumentKind × vm.Value)) :
    (callTrace vm named arguments).Logs HostCall.Quiet ∧
      (callTraceInt vm named arguments).Logs HostCall.Quiet := by
  match arguments with
  | [ruleIndex, matched, multiplier] =>
    constructor <;>
    · refine (Logged.logs_of _).bind fun i => (Logged.logs_of _).bind fun b =>
        (Logged.logs_of _).bind fun x => ?_
      exact (Logged.logs_ok _).after (quiet_ruleCalls named i b)
  | [] | [_] | [_, _] | _ :: _ :: _ :: _ :: _ => exact ⟨Logged.logs_error _, Logged.logs_error _⟩

theorem apply_quiet (env : Env vm) {written : Option String}
    (hwritten : ∀ name, written = some name → name ∉ pricingMarkers) (callee : vm.Value)
    (arguments : List (ArgumentKind × vm.Value)) :
    (env.apply written callee arguments).Logs HostCall.Quiet := by
  cases callee with
  | function name =>
    have hnamed : name ∈ pricingMarkers → decide (written = some name) = false := by
      intro hmem
      exact decide_eq_false fun heq => hwritten name heq hmem
    unfold Env.apply Env.callFunction
    dsimp only
    by_cases htier : name = "tier"
    · rw [if_pos htier, hnamed (by simp [htier, pricingMarkers])]
      exact callTier_logs (fun _ _ => rfl) arguments
    · by_cases hfixed : name = "fixed"
      · rw [if_neg htier, if_pos hfixed, hnamed (by simp [hfixed, pricingMarkers])]
        exact callFixed_logs (fun _ => rfl) arguments
      · rw [if_neg htier, if_neg hfixed]
        by_cases htrace : name = requestRuleTraceFunction
        · rw [if_pos htrace]
          exact (callTrace_quiet _ arguments).1
        · by_cases hint : name = requestRuleTraceIntFunction
          · rw [if_neg htrace, if_pos hint]
            exact (callTrace_quiet _ arguments).2
          · rw [if_neg htrace, if_neg hint]
            exact Logged.logs_of _
  | _ => exact Logged.logs_of _

theorem evaluateAll_logs {xs : List vm.Computation} (h : ∀ x ∈ xs, ∀ scope, (x scope).Logs p)
    (scope : vm.Scope) : (vm.evaluateAll xs scope).Logs p := by
  induction xs with
  | nil => exact Logged.logs_ok _
  | cons x rest ih =>
    have hrest := ih fun y hy => h y (List.mem_cons_of_mem _ hy)
    exact (h x (by simp) scope).bind fun _ => hrest.bind fun _ => Logged.logs_ok _

mutual

/-- **Where neither name stands in a node, it prices nothing by name.** -/
theorem unmarked_quiet (hvm : vm.Contained) (env : Env vm) : ∀ {node : Node},
    node.findIdentifier pricingMarkers = false →
    ∀ scope, (node.eval env none scope).Logs HostCall.Quiet
  | .identifier name, _, scope => by
      unfold Node.eval
      by_cases henv : name = "$env"
      · rw [if_pos henv]
        exact Logged.logs_ok _
      · rw [if_neg henv]
        cases env.lookup name with
        | some value => exact Logged.logs_ok _
        | none => exact Logged.logs_of _
  | .unary op operand, h, scope => by
      rw [findIdentifier_unary] at h
      exact hvm.unary op (unmarked_quiet hvm env h) scope
  | .binary op left right, h, scope => by
      rw [findIdentifier_binary, Bool.or_eq_false_iff] at h
      have hleft := unmarked_quiet hvm env h.1
      have hright := unmarked_quiet hvm env h.2
      unfold Node.eval
      dsimp only [Option.map_none]
      by_cases hop : op = .times
      · rw [if_pos hop]
        exact (hleft scope).bind fun _ => (hright scope).bind fun _ => Logged.logs_of _
      · rw [if_neg hop]
        exact hvm.binary op hleft hright scope
  | .conditional ternary cond exp1 exp2, h, scope => by
      rw [findIdentifier_conditional, Bool.or_eq_false_iff, Bool.or_eq_false_iff] at h
      obtain ⟨⟨hcond, h1⟩, h2⟩ := h
      unfold Node.eval
      dsimp only [Option.map_none]
      refine (unmarked_quiet hvm env hcond scope).bind fun value => ?_
      cases value with
      | bool b =>
        cases b with
        | true => exact unmarked_quiet hvm env h1 scope
        | false => exact unmarked_quiet hvm env h2 scope
      | _ => exact Logged.logs_error _
  | .call callee arguments, h, scope => by
      rw [findIdentifier_call, Bool.or_eq_false_iff] at h
      have hcallee := unmarked_quiet hvm env h.1
      have harguments := evaluateAll_logs (unmarkedAll_quiet hvm env h.2)
      have hwritten : ∀ name, callee.identifier? = some name → name ∉ pricingMarkers := by
        intro name hname
        cases callee with
        | identifier value =>
          obtain rfl : value = name := Option.some.inj hname
          simpa using h.1
        | _ => cases hname
      exact (harguments scope).bind fun values => (hcallee scope).bind fun function =>
        apply_quiet env hwritten function _
  | .builtin name arguments, h, scope => by
      rw [findIdentifier_builtin] at h
      exact hvm.builtin name (unmarkedAll_quiet hvm env h) scope
  | .other kind children, h, scope => by
      rw [findIdentifier_other] at h
      exact hvm.other kind (unmarkedAll_quiet hvm env h) scope
  | .nil, _, _ | .integer _, _, _ | .float _, _, _ | .bool _, _, _ | .string _, _, _ =>
    Logged.logs_ok _

theorem unmarkedAll_quiet (hvm : vm.Contained) (env : Env vm) : ∀ {nodes : List Node},
    Node.findIdentifierAll pricingMarkers nodes = false →
    ∀ x ∈ Node.evalAll env none nodes, ∀ scope, (x scope).Logs HostCall.Quiet
  | [], _, x, hx => by cases hx
  | node :: rest, h, x, hx => by
      rw [findIdentifierAll_cons, Bool.or_eq_false_iff] at h
      rcases List.mem_cons.mp hx with rfl | hx
      · exact unmarked_quiet hvm env h.1
      · exact unmarkedAll_quiet hvm env h.2 x hx

end

end JulongApi.BillingExpr

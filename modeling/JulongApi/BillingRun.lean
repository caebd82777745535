/-
Running a compiled billing expression: `runProgram` of `pkg/billingexpr/run.go`.

The expression language is third-party.  `Vm` stands for it, with the values and the nodes that
the package itself does not look at; products, conditionals, calls and what the environment
gives are spelled out.  Four functions of the environment write to the trace: `tier`, `fixed`,
and the two that the patcher puts in.  A run logs the calls of them, and the trace is what the
callbacks make of the log.

The other functions (`header`, `param`, `u`, `has`, those of the time and of `math`) write
nothing, and an environment has any at all for them.
-/
import JulongApi.BillingExpr
import JulongApi.Lib.Float64
import JulongApi.Lib.Logged

namespace JulongApi.BillingExpr

open FloatingPoint

/-! ### Values -/

/-- What an expression evaluates to; `Data` holds the values of the language that are not here. -/
inductive Value (Data : Type) where
  | nil
  | bool (value : Bool)
  | int (value : Int)
  | float (value : Float64)
  | string (value : String)
  /-- A function of the environment. -/
  | function (name : String)
  /-- The environment as a whole: `$env`. -/
  | env
  | data (value : Data)
deriving DecidableEq

/-- The calls that leave something in the trace.  A call is `named` if it is written with the name of
the function, where `ast.Find` comes past it. -/
inductive HostCall where
  | tier (named : Bool) (name : String) (value : Float64)
  | fixed (named : Bool) (amount : Float64)
  /-- A request rule that holds. -/
  | rule (named : Bool) (ruleIndex : Int)
deriving DecidableEq

/-- What a node does, with the local variables it is evaluated under. -/
abbrev Computation (Data Scope : Type) := Scope → Logged HostCall String (Value Data)

/-- What the type checker looks at of an argument: integers are read as floats in arithmetic. -/
inductive ArgumentKind where
  | integer
  | arithmetic
  | plain
deriving DecidableEq, Repr

/-- `isIntegerOrArithmeticOperation` of the checker. -/
def Node.argumentKind : Node → ArgumentKind
  | .integer _ => .integer
  | .unary .plus _ | .unary .minus _ => .arithmetic
  | .binary op _ _ =>
    if op ∈ [.plus, .minus, .times, .divide] then .arithmetic else .plain
  | _ => .plain

structure Vm where
  Data : Type
  Scope : Type
  /-- No local variables, as where an expression begins. -/
  empty : Scope
  /-- A local variable. -/
  declared : Scope → String → Except String (Value Data)
  unary : UnaryOperator → Computation Data Scope → Computation Data Scope
  /-- Every operator but `*`, short-circuiting or not. -/
  binary : BinaryOperator → Computation Data Scope → Computation Data Scope →
    Computation Data Scope
  /-- The product of two values that are not a float and a number. -/
  multiply : Value Data → Value Data → Except String (Value Data)
  builtin : String → List (Computation Data Scope) → Computation Data Scope
  other : String → List (Computation Data Scope) → Computation Data Scope
  /-- The call of a value that is no function of the environment. -/
  invoke : Value Data → List (Value Data) → Except String (Value Data)
  /-- What a parameter is given for a value of another type. -/
  passString : Value Data → Except String String
  passBool : Value Data → Except String Bool
  passInt : Value Data → Except String Int
  passFloat : ArgumentKind → Value Data → Except String Float64
  /-- `expr.AsFloat64` of what is no number. -/
  castFloat : Value Data → Except String Float64

abbrev Vm.Value (vm : Vm) : Type := BillingExpr.Value vm.Data

abbrev Vm.Computation (vm : Vm) : Type := BillingExpr.Computation vm.Data vm.Scope

/-- `float64(n)`. -/
def float64 (n : Int) : Float64 := .exact (float64OfInt n)

/-- `runtime.Multiply`. -/
def Vm.times (vm : Vm) : vm.Value → vm.Value → Except String vm.Value
  | .float x, .float y => .ok (.float (x.mul y))
  | .float x, .int n => .ok (.float (x.mul (float64 n)))
  | .int n, .float y => .ok (.float ((float64 n).mul y))
  | a, b => vm.multiply a b

/-! ### Arguments -/

def Vm.stringArgument (vm : Vm) : vm.Value → Except String String
  | .string value => .ok value
  | value => vm.passString value

def Vm.boolArgument (vm : Vm) : vm.Value → Except String Bool
  | .bool value => .ok value
  | value => vm.passBool value

def Vm.intArgument (vm : Vm) : vm.Value → Except String Int
  | .int value => .ok value
  | value => vm.passInt value

/-- An integer literal is read as a float where a float is wanted. -/
def Vm.floatArgument (vm : Vm) : ArgumentKind × vm.Value → Except String Float64
  | (_, .float value) => .ok value
  | (.integer, .int value) => .ok (float64 value)
  | (kind, value) => vm.passFloat kind value

/-! ### The environment -/

structure TokenParams where
  p : Float64
  c : Float64
  len : Float64
  cr : Float64
  cc : Float64
  cc1h : Float64
  img : Float64
  imgCR : Float64
  imgO : Float64
  ai : Float64
  ao : Float64

def TokenParams.variables (params : TokenParams) : List (String × Float64) :=
  [("p", params.p), ("c", params.c), ("len", params.len), ("cr", params.cr), ("cc", params.cc),
    ("cc1h", params.cc1h), ("img", params.img), ("img_cr", params.imgCR), ("img_o", params.imgO),
    ("ai", params.ai), ("ao", params.ao)]

/-- The functions of the environment that write nothing to the trace. -/
def plainFunctions : List String :=
  ["header", "param", "u", "has", "hour", "minute", "weekday", "month", "day", "max", "min", "abs",
    "ceil", "floor"]

/-- The functions that do. -/
def traceFunctions : List String :=
  ["tier", "fixed", requestRuleTraceFunction, requestRuleTraceIntFunction]

structure Env (vm : Vm) where
  imageCount : Int
  params : TokenParams
  /-- What the plain functions return; they read the request and the clock. -/
  function : String → List vm.Value → Except String vm.Value

def Env.lookup {vm : Vm} (env : Env vm) (name : String) : Option vm.Value :=
  if name = "image_count" then some (.float (float64 env.imageCount))
  else
    match env.params.variables.lookup name with
    | some value => some (.float value)
    | none =>
      if name ∈ traceFunctions ++ plainFunctions then some (.function name) else none

/-- `1_000_000` -/
def million : Float64 := .exact 1000000

section

variable (vm : Vm)

def callTier (named : Bool) : List (ArgumentKind × vm.Value) → Logged HostCall String vm.Value
  | [name, value] =>
    (Logged.of (vm.stringArgument name.2)).bind fun name =>
    (Logged.of (vm.floatArgument value)).bind fun value =>
    (Logged.ok (.float value)).after [.tier named name value]
  | _ => .error "wrong number of arguments to call tier"

def callFixed (named : Bool) : List (ArgumentKind × vm.Value) → Logged HostCall String vm.Value
  | [amount] =>
    (Logged.of (vm.floatArgument amount)).bind fun amount =>
    (Logged.ok (.float (amount.mul million))).after [.fixed named amount]
  | _ => .error "wrong number of arguments to call fixed"

/-- What a trace function leaves in the trace. -/
def ruleCalls (named : Bool) (ruleIndex : Int) (matched : Bool) : List HostCall :=
  if matched then [.rule named ruleIndex] else []

def callTrace (named : Bool) : List (ArgumentKind × vm.Value) → Logged HostCall String vm.Value
  | [ruleIndex, matched, multiplier] =>
    (Logged.of (vm.intArgument ruleIndex.2)).bind fun ruleIndex =>
    (Logged.of (vm.boolArgument matched.2)).bind fun matched =>
    (Logged.of (vm.floatArgument multiplier)).bind fun multiplier =>
    (Logged.ok (.float (if matched then multiplier else float64 1))).after
      (ruleCalls named ruleIndex matched)
  | _ => .error "wrong number of arguments to call _trace"

def callTraceInt (named : Bool) : List (ArgumentKind × vm.Value) → Logged HostCall String vm.Value
  | [ruleIndex, matched, multiplier] =>
    (Logged.of (vm.intArgument ruleIndex.2)).bind fun ruleIndex =>
    (Logged.of (vm.boolArgument matched.2)).bind fun matched =>
    (Logged.of (vm.intArgument multiplier.2)).bind fun multiplier =>
    (Logged.ok (.int (if matched then multiplier else 1))).after
      (ruleCalls named ruleIndex matched)
  | _ => .error "wrong number of arguments to call _trace_int"

variable {vm}

def Env.callFunction (env : Env vm) (named : Bool) (name : String)
    (arguments : List (ArgumentKind × vm.Value)) : Logged HostCall String vm.Value :=
  if name = "tier" then callTier vm named arguments
  else if name = "fixed" then callFixed vm named arguments
  else if name = requestRuleTraceFunction then callTrace vm named arguments
  else if name = requestRuleTraceIntFunction then callTraceInt vm named arguments
  else .of (env.function name (arguments.map (·.2)))

/-- The call of a value; the callee may be `written` as an identifier. -/
def Env.apply (env : Env vm) (written : Option String) (callee : vm.Value)
    (arguments : List (ArgumentKind × vm.Value)) : Logged HostCall String vm.Value :=
  match callee with
  | .function name => env.callFunction (decide (written = some name)) name arguments
  | value => .of (vm.invoke value (arguments.map (·.2)))

end

/-! ### Evaluation -/

def Node.identifier? : Node → Option String
  | .identifier name => some name
  | _ => none

/-- A conditional the patcher makes a rule of, told by its parts. -/
def isRequestRule (ternary : Bool) (cond exp1 exp2 : Node) : Bool :=
  ternary && usesRequestProbe cond &&
    match requestRuleNumber exp1, requestRuleNumber exp2 with
    | some _, some fallback => decide (fallback = 1)
    | _, _ => false

mutual

def Node.ruleCount : Node → Nat
  | .unary _ operand => operand.ruleCount
  | .binary _ left right => left.ruleCount + right.ruleCount
  | .conditional ternary cond exp1 exp2 =>
    cond.ruleCount + exp1.ruleCount + exp2.ruleCount +
      if isRequestRule ternary cond exp1 exp2 then 1 else 0
  | .call callee arguments => callee.ruleCount + Node.ruleCountAll arguments
  | .builtin _ arguments => Node.ruleCountAll arguments
  | .other _ children => Node.ruleCountAll children
  | _ => 0

def Node.ruleCountAll : List Node → Nat
  | [] => 0
  | node :: rest => node.ruleCount + Node.ruleCountAll rest

end

/-- The values of arguments, from the left. -/
def Vm.evaluateAll (vm : Vm) :
    List vm.Computation → vm.Scope → Logged HostCall String (List vm.Value)
  | [], _ => .ok []
  | computation :: rest, scope =>
    (computation scope).bind fun value =>
    (vm.evaluateAll rest scope).bind fun values => .ok (value :: values)

mutual

/-- The evaluation of a node.

A program has no request rules left in it, and is run with `rules` none.  To say what the rules of a
tree do that is not patched, they are numbered from `rules` on in the order in which the patcher
comes to them, and it is noted which conditionals are evaluated with a condition that holds. -/
def Node.eval {vm : Vm} (env : Env vm) (rules : Option Nat) : Node → vm.Computation
  | .nil => fun _ => .ok .nil
  | .identifier name => fun scope =>
    if name = "$env" then .ok .env
    else
      match env.lookup name with
      | some value => .ok value
      | none => .of (vm.declared scope name)
  | .integer value => fun _ => .ok (.int value)
  | .float value => fun _ => .ok (.float (.exact value))
  | .bool value => fun _ => .ok (.bool value)
  | .string value => fun _ => .ok (.string value)
  | .unary op operand => vm.unary op (operand.eval env rules)
  | .binary op left right =>
    let left' := left.eval env rules
    let right' := right.eval env (rules.map (· + left.ruleCount))
    if op = .times then fun scope =>
      (left' scope).bind fun a =>
      (right' scope).bind fun b => .of (vm.times a b)
    else vm.binary op left' right'
  | .conditional ternary cond exp1 exp2 =>
    let cond' := cond.eval env rules
    let exp1' := exp1.eval env (rules.map (· + cond.ruleCount))
    let exp2' := exp2.eval env (rules.map (· + cond.ruleCount + exp1.ruleCount))
    -- The patcher comes to the conditional when it has been to all of its parts.
    let notes := match rules with
      | some first =>
        let ruleIndex := first + cond.ruleCount + exp1.ruleCount + exp2.ruleCount
        ruleCalls true ruleIndex (isRequestRule ternary cond exp1 exp2)
      | none => []
    fun scope => (cond' scope).bind fun
      | .bool true => (exp1' scope).after notes
      | .bool false => exp2' scope
      | _ => .error "the condition is not a bool"
  | .call callee arguments =>
    let callee' := callee.eval env rules
    let arguments' := Node.evalAll env (rules.map (· + callee.ruleCount)) arguments
    fun scope =>
      (vm.evaluateAll arguments' scope).bind fun values =>
      (callee' scope).bind fun function =>
      env.apply callee.identifier? function ((arguments.map Node.argumentKind).zip values)
  | .builtin name arguments => vm.builtin name (Node.evalAll env rules arguments)
  | .other kind children => vm.other kind (Node.evalAll env rules children)

def Node.evalAll {vm : Vm} (env : Env vm) (rules : Option Nat) : List Node → List vm.Computation
  | [] => []
  | node :: rest =>
    node.eval env rules :: Node.evalAll env (rules.map (· + node.ruleCount)) rest

end

/-! ### The trace -/

inductive BillingUnit where
  | token
  | request
deriving DecidableEq, Repr

/-- An entry of a trace: the rule, and whether it held. -/
structure TracedRule extends RequestRuleTrace where
  matched : Bool
deriving DecidableEq

structure TraceResult where
  imageCount : Option Int
  billingUnit : BillingUnit
  fixedPrice : Option Float64
  matchedTier : String
  requestRules : List TracedRule
  cost : Float64
deriving DecidableEq

def TraceResult.start (requestRules : List RequestRuleTrace) : TraceResult where
  imageCount := none
  billingUnit := .token
  fixedPrice := none
  matchedTier := ""
  requestRules := requestRules.map fun rule => { rule with matched := false }
  cost := .exact 0

/-- What the callbacks write. -/
def TraceResult.record (trace : TraceResult) : HostCall → TraceResult
  | .tier _ name value => { trace with matchedTier := name, cost := value }
  | .fixed _ amount => { trace with billingUnit := .request, fixedPrice := some amount }
  | .rule _ ruleIndex =>
    if 0 ≤ ruleIndex ∧ ruleIndex < trace.requestRules.length then
      { trace with
        requestRules := trace.requestRules.modify ruleIndex.toNat fun rule =>
          { rule with matched := true } }
    else trace

def TraceResult.recordAll (trace : TraceResult) (calls : List HostCall) : TraceResult :=
  calls.foldl TraceResult.record trace

/-! ### Runs -/

def maxImageN : Int := 128

/-- What of a `RequestInput` is read here; the rest is read by the plain functions. -/
structure RequestInput (vm : Vm) where
  imageCount : Option Int
  function : String → List vm.Value → Except String vm.Value

def RequestInput.env {vm : Vm} (request : RequestInput vm) (params : TokenParams)
    (imageCount : Int) : Env vm :=
  ⟨imageCount, params, request.function⟩

inductive RunError where
  /-- `image_count must be between 1 and %d` -/
  | imageCount
  /-- `expr run error: %w` -/
  | library (text : String)
deriving DecidableEq, Repr

def Vm.asFloat64 (vm : Vm) : vm.Value → Except String Float64
  | .float value => .ok value
  | .int value => .ok (float64 value)
  | value => vm.castFloat value

/-- What a run is given for `image_count`, or nothing where that is out of bounds. -/
def imageCountOf {vm : Vm} (usedVars : List String) (request : RequestInput vm) : Option Int :=
  if "image_count" ∈ usedVars then
    let imageCount := request.imageCount.getD 1
    if imageCount < 1 ∨ maxImageN < imageCount then none else some imageCount
  else some 1

def runProgram (vm : Vm) (prog : Node) (requestRules : List RequestRuleTrace)
    (usedVars : List String) (params : TokenParams) (request : RequestInput vm) :
    Except RunError Float64 × TraceResult :=
  let trace := TraceResult.start requestRules
  match imageCountOf usedVars request with
  | none => (.error .imageCount, trace)
  | some imageCount =>
    let trace := if "image_count" ∈ usedVars then { trace with imageCount := some imageCount }
      else trace
    let out := prog.eval (request.env params imageCount) none vm.empty
    let trace := trace.recordAll out.log
    match out.result with
    | .error text => (.error (.library text), trace)
    | .ok value =>
      match vm.asFloat64 value with
      | .error text => (.error (.library text), trace)
      | .ok f => (.ok f, trace)

end JulongApi.BillingExpr

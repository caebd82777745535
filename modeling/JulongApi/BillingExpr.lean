/-
Billing expressions as the server compiles them: `pkg/billingexpr`.

Parsing, type checking and optimising are the work of the expression library, which is
no part of this repository; `ExprLib` stands for it.  What the package does with the
trees is here: the version tag, the validation of fixed prices before anything is
optimised away, the rewriting of request multipliers into traced ones, and what is kept
of a compiled program.

A tree tells apart the nodes this package looks at.  Every other node of the library is
an `other` with its kind and the children `ast.Walk` visits.  Literals are exact: a float literal is
the rational it denotes, and none of them is NaN or infinite.
-/
import JulongApi.Strings

namespace JulongApi.BillingExpr

/-! ### Trees -/

inductive BinaryOperator where
  | or
  | and
  | equal
  | notEqual
  | less
  | lessOrEqual
  | greater
  | greaterOrEqual
  | plus
  | minus
  | times
  | divide
  | modulo
  /-- `in`, `matches`, `**`, `??` and the rest of the library's -/
  | other (text : String)
deriving DecidableEq, Repr

inductive UnaryOperator where
  | not
  | plus
  | minus
deriving DecidableEq, Repr

inductive Node where
  | nil
  | identifier (value : String)
  | integer (value : Int)
  | float (value : ℚ)
  | bool (value : Bool)
  | string (value : String)
  | unary (operator : UnaryOperator) (operand : Node)
  | binary (operator : BinaryOperator) (left right : Node)
  | conditional (ternary : Bool) (cond exp1 exp2 : Node)
  | call (callee : Node) (arguments : List Node)
  | builtin (name : String) (arguments : List Node)
  /-- A member access, a declaration, an array and so on: `kind` is all but the children. -/
  | other (kind : String) (children : List Node)

mutual

/-- The nodes of a tree in the order in which `ast.Walk` visits them, a node after its children. -/
def Node.walk : Node → List Node
  | .unary op operand => operand.walk ++ [.unary op operand]
  | .binary op left right => left.walk ++ right.walk ++ [.binary op left right]
  | .conditional ternary cond exp1 exp2 =>
    cond.walk ++ exp1.walk ++ exp2.walk ++ [.conditional ternary cond exp1 exp2]
  | .call callee arguments =>
    callee.walk ++ Node.walkAll arguments ++ [.call callee arguments]
  | .builtin name arguments => Node.walkAll arguments ++ [.builtin name arguments]
  | .other kind children => Node.walkAll children ++ [.other kind children]
  | leaf => [leaf]

def Node.walkAll : List Node → List Node
  | [] => []
  | node :: rest => node.walk ++ Node.walkAll rest

end

/-- `ast.Find(node, ...) != nil`, for an identifier among `names`. -/
def Node.findIdentifier (node : Node) (names : List String) : Bool :=
  node.walk.any fun
    | .identifier value => decide (value ∈ names)
    | _ => false

/-! ### Numbers -/

/-- `float64(n)`: 53 bits are kept, and a tie goes to the even one. -/
def float64OfInt (n : Int) : ℚ :=
  let a := n.natAbs
  let ulp := 2 ^ (Nat.log 2 a - 52)
  let down := a / ulp
  let up := ulp < 2 * (a % ulp) ∨ (ulp = 2 * (a % ulp) ∧ down % 2 = 1)
  n.sign * ((if up then down + 1 else down) * ulp)

/-- `math.IsInf(amount*1_000_000, 0)`: the product is past what rounds to the largest float. -/
def scaledIsInf (amount : ℚ) : Bool := decide (2 ^ 1024 - 2 ^ 970 ≤ |amount * 1000000|)

def requestRuleNumber : Node → Option ℚ
  | .integer value => some (float64OfInt value)
  | .float value => some value
  | _ => none

/-! ### Fixed prices -/

def requestProbes : List String := ["param", "header", "hour", "minute", "weekday", "month", "day"]

def usesRequestProbe (node : Node) : Bool := node.findIdentifier requestProbes

def containsPricingMarker (node : Node) : Bool := node.findIdentifier ["tier", "fixed"]

def isRequestPriceMultiplier : Node → Bool
  | .identifier value => decide (value = "image_count")
  | .conditional _ cond exp1 exp2 =>
    if !usesRequestProbe cond || containsPricingMarker cond then false
    else
      match requestRuleNumber exp1, requestRuleNumber exp2 with
      | some multiplier, some fallback => decide (fallback = 1 ∧ 0 ≤ multiplier)
      | _, _ => false
  | _ => false

inductive FixedPricingError where
  | amount
  | shape
deriving DecidableEq, Repr

/-- The price of a leaf: `fixed(amount)`, or anything that prices nothing by itself. -/
def validateLeafPrice (price : Node) : Except FixedPricingError Unit :=
  match price with
  | .call (.identifier "fixed") [argument] =>
    match requestRuleNumber argument with
    | some amount =>
      if 0 ≤ amount ∧ scaledIsInf amount = false then .ok () else .error .amount
    | none => .error .amount
  | _ => if containsPricingMarker price then .error .shape else .ok ()

def validateFixedPricingTree : Node → Except FixedPricingError Unit
  | .conditional _ cond exp1 exp2 =>
    if containsPricingMarker cond then .error .shape
    else
      match validateFixedPricingTree exp1 with
      | .error e => .error e
      | .ok () => validateFixedPricingTree exp2
  | .binary operator left right =>
    if operator ≠ .times then .error .shape
    else if isRequestPriceMultiplier right then validateFixedPricingTree left
    else if isRequestPriceMultiplier left then validateFixedPricingTree right
    else .error .shape
  | .call (.identifier "tier") [name, price] =>
    if containsPricingMarker name then .error .shape else validateLeafPrice price
  | _ => .error .shape

/-! ### Request rules -/

def requestRuleTraceFunction : String := "_trace"

def requestRuleTraceIntFunction : String := "_trace_int"

structure RequestRuleTrace where
  cond : String
  multiplier : ℚ
deriving DecidableEq, Repr

structure RequestRulePatcher where
  requestRules : List RequestRuleTrace
  restrictedIdentifier : String
deriving DecidableEq, Repr

structure ExprLib where
  /-- `parser.Parse` -/
  parse : String → Except String Node
  /-- the tree `expr.Compile` reads under the environment of a version, before any patch -/
  read : Nat → String → Except String Node
  /-- what becomes of the patched tree: checked, optimised, `prog.Node()` -/
  build : Nat → Node → Except String Node
  /-- `Node.String` -/
  print : Node → String
  /-- `ExprHashString`: the digest of an expression -/
  exprHashString : String → String
  /-- There is no expression to read in an empty text. -/
  parse_empty : ∃ e, parse "" = .error e

/-- What a patched rule calls, and with which multiplier. -/
def tracedMultiplier (exp1 exp2 : Node) (multiplier : ℚ) : String × Node :=
  match exp1, exp2 with
  | .integer _, .integer _ => (requestRuleTraceIntFunction, exp1)
  | _, _ => (requestRuleTraceFunction, .float multiplier)

/-- `requestRulePatcher.Visit`: the patcher and the node after it. -/
def RequestRulePatcher.visit (lib : ExprLib) (p : RequestRulePatcher) (node : Node) :
    RequestRulePatcher × Node :=
  match node with
  | .identifier value =>
    if value ∈ [requestRuleTraceFunction, requestRuleTraceIntFunction] then
      ({ p with restrictedIdentifier := value }, node)
    else (p, node)
  | .conditional ternary cond exp1 exp2 =>
    if !ternary || !usesRequestProbe cond then (p, node)
    else
      match requestRuleNumber exp1, requestRuleNumber exp2 with
      | some multiplier, some fallback =>
        if fallback ≠ 1 then (p, node)
        else
          let (traceFunction, multiplierNode) := tracedMultiplier exp1 exp2 multiplier
          ({ p with requestRules := p.requestRules ++ [⟨lib.print cond, multiplier⟩] },
            .call (.identifier traceFunction)
              [.integer p.requestRules.length, cond, multiplierNode])
      | _, _ => (p, node)
  | _ => (p, node)

mutual

/-- `ast.Walk` with the patcher: the children are patched before their node is visited. -/
def RequestRulePatcher.patch (lib : ExprLib) (p : RequestRulePatcher) :
    Node → RequestRulePatcher × Node
  | .unary op operand =>
    let (p, operand) := p.patch lib operand
    p.visit lib (.unary op operand)
  | .binary op left right =>
    let (p, left) := p.patch lib left
    let (p, right) := p.patch lib right
    p.visit lib (.binary op left right)
  | .conditional ternary cond exp1 exp2 =>
    let (p, cond) := p.patch lib cond
    let (p, exp1) := p.patch lib exp1
    let (p, exp2) := p.patch lib exp2
    p.visit lib (.conditional ternary cond exp1 exp2)
  | .call callee arguments =>
    let (p, callee) := p.patch lib callee
    let (p, arguments) := p.patchAll lib arguments
    p.visit lib (.call callee arguments)
  | .builtin name arguments =>
    let (p, arguments) := p.patchAll lib arguments
    p.visit lib (.builtin name arguments)
  | .other kind children =>
    let (p, children) := p.patchAll lib children
    p.visit lib (.other kind children)
  | leaf => p.visit lib leaf

def RequestRulePatcher.patchAll (lib : ExprLib) (p : RequestRulePatcher) :
    List Node → RequestRulePatcher × List Node
  | [] => (p, [])
  | node :: rest =>
    let (p, node) := p.patch lib node
    let (p, rest) := p.patchAll lib rest
    (p, node :: rest)

end

/-! ### Compiling -/

/-- What is kept of a compiled expression; `prog` is the tree of its program. -/
structure CachedEntry where
  prog : Node
  usedVars : List String
  usedUsageKeys : List String
  requestRules : List RequestRuleTrace
  version : Nat
  fixedPricing : Bool

def defaultExprVersion : Nat := 1

/-- `ParseExprVersion`: the version and the body. -/
def parseExprVersion (exprStr : String) : Nat × String :=
  match exprStr.toList with
  | 'v' :: '1' :: ':' :: body => (1, String.ofList body)
  | _ => (defaultExprVersion, exprStr)

/-- `extractUsedVars`: the keys of the map. -/
def extractUsedVars (prog : Node) : List String :=
  prog.walk.filterMap fun
    | .identifier value =>
      if value ∈ [requestRuleTraceFunction, requestRuleTraceIntFunction] then none
      else some value
    | _ => none

/-- `extractUsedUsageKeys`: the keys of the map. -/
def extractUsedUsageKeys (prog : Node) : List String :=
  prog.walk.filterMap fun
    | .call (.identifier "u") [.string value] => some (trimSpace value)
    | _ => none

inductive CompileError where
  /-- `expr compile error: %w` -/
  | library (text : String)
  | fixedPricing (e : FixedPricingError)
  /-- `expr compile error: identifier %q is reserved for internal use` -/
  | reserved (identifier : String)
deriving DecidableEq, Repr

/-- `expr.Compile` with the patcher, and what is kept of the program. -/
def compileProgram (lib : ExprLib) (version : Nat) (body : String) (fixedPricing : Bool) :
    Except CompileError CachedEntry :=
  match lib.read version body with
  | .error text => .error (.library text)
  | .ok tree =>
    let (patcher, patched) := (⟨[], ""⟩ : RequestRulePatcher).patch lib tree
    if patcher.restrictedIdentifier ≠ "" then .error (.reserved patcher.restrictedIdentifier)
    else
      match lib.build version patched with
      | .error text => .error (.library text)
      | .ok prog => .ok {
          prog := prog
          usedVars := extractUsedVars prog
          usedUsageKeys := extractUsedUsageKeys prog
          requestRules := patcher.requestRules
          version := version
          fixedPricing := fixedPricing }

/-- `compileEntryFromCacheByHash` after it has found nothing in the cache, up to the store. -/
def compileEntry (lib : ExprLib) (exprStr : String) : Except CompileError CachedEntry :=
  let (version, body) := parseExprVersion exprStr
  match lib.parse body with
  | .error text => .error (.library text)
  | .ok tree =>
    if tree.findIdentifier ["fixed"] then
      match validateFixedPricingTree tree with
      | .error e => .error (.fixedPricing e)
      | .ok () => compileProgram lib version body true
    else compileProgram lib version body false

end JulongApi.BillingExpr

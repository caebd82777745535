/-
Billing expressions as the web console reads them: `billing-expression/types.ts`, and what
`billing-expression/parser.ts` checks of a tree once it is parsed.

A node of a tree is an object there and is compared by identity; here the path from the root
to it tells it apart, the nearest child index first.  The parser gives each call as many
arguments as `BILLING_FUNCTIONS` says.
-/
import JulongApi.BillingExpr
import JulongApi.Lib.Except
import JulongApi.Lib.JavaScript

namespace JulongApi.WebBillingExpr

open JavaScript

/-! ### Trees -/

inductive BillingVariable where
  | p
  | c
  | len
  | cr
  | cc
  | cc1h
  | img
  | imgCr
  | imgO
  | ai
  | ao
  | imageCount
deriving DecidableEq, Repr

inductive TimeFunction where
  | hour
  | minute
  | weekday
  | month
  | day
deriving DecidableEq, Repr

inductive BillingFunction where
  | tier
  | fixed
  | param
  | header
  | has
  | u
  | time (name : TimeFunction)
  | min
  | max
  | abs
  | ceil
  | floor
deriving DecidableEq, Repr

def BillingVariable.name : BillingVariable → String
  | .p => "p"
  | .c => "c"
  | .len => "len"
  | .cr => "cr"
  | .cc => "cc"
  | .cc1h => "cc1h"
  | .img => "img"
  | .imgCr => "img_cr"
  | .imgO => "img_o"
  | .ai => "ai"
  | .ao => "ao"
  | .imageCount => "image_count"

def TimeFunction.name : TimeFunction → String
  | .hour => "hour"
  | .minute => "minute"
  | .weekday => "weekday"
  | .month => "month"
  | .day => "day"

def BillingFunction.name : BillingFunction → String
  | .tier => "tier"
  | .fixed => "fixed"
  | .param => "param"
  | .header => "header"
  | .has => "has"
  | .u => "u"
  | .time f => f.name
  | .min => "min"
  | .max => "max"
  | .abs => "abs"
  | .ceil => "ceil"
  | .floor => "floor"

def BillingFunction.arity : BillingFunction → Nat
  | .tier | .has | .min | .max => 2
  | _ => 1

inductive UnaryOperator where
  | not
  | plus
  | minus
deriving DecidableEq, Repr

inductive BinaryOperator where
  | or
  | and
  | equal
  | notEqual
  | less
  | lessOrEqual
  | greater
  | greaterOrEqual
  | plus
  | minus
  | times
  | divide
  | modulo
deriving DecidableEq, Repr

/-- The value of a literal; `integer` is the flag of a number without point and exponent. -/
inductive LiteralValue where
  | number (value : Double) (integer : Bool)
  | string (value : JsString)
  | bool (value : Bool)
  | null
deriving DecidableEq

/-- `start` and `end` of a node. -/
structure Span where
  start : Nat
  stop : Nat
deriving DecidableEq, Repr

inductive ExpressionNode where
  | literal (value : LiteralValue) (span : Span)
  | var (name : BillingVariable) (span : Span)
  | call (name : BillingFunction) (args : List ExpressionNode) (span : Span)
  | unary (operator : UnaryOperator) (operand : ExpressionNode) (span : Span)
  | binary (operator : BinaryOperator) (left right : ExpressionNode) (span : Span)
  | conditional (condition yes no : ExpressionNode) (span : Span)

def ExpressionNode.span : ExpressionNode → Span
  | .literal _ span => span
  | .var _ span => span
  | .call _ _ span => span
  | .unary _ _ span => span
  | .binary _ _ _ span => span
  | .conditional _ _ _ span => span

/-- The children `visitExpression` goes down to, in its order. -/
def ExpressionNode.children : ExpressionNode → List ExpressionNode
  | .call _ args _ => args
  | .unary _ operand _ => [operand]
  | .binary _ left right _ => [left, right]
  | .conditional condition yes no _ => [condition, yes, no]
  | _ => []

mutual

/-- How far below a node its deepest descendant is. -/
def ExpressionNode.depth : ExpressionNode → Nat
  | .call _ args _ => ExpressionNode.depthBelow args
  | .unary _ operand _ => operand.depth + 1
  | .binary _ left right _ => max (left.depth + 1) (right.depth + 1)
  | .conditional condition yes no _ =>
    max (condition.depth + 1) (max (yes.depth + 1) (no.depth + 1))
  | _ => 0

def ExpressionNode.depthBelow : List ExpressionNode → Nat
  | [] => 0
  | child :: rest => max (child.depth + 1) (ExpressionNode.depthBelow rest)

end

/-! ### Failures -/

inductive DiagnosticCode where
  | syntactic
  | unsupported
  | missingContext
  | type
  | number
  | limit
deriving DecidableEq, Repr

structure ExpressionDiagnostic where
  code : DiagnosticCode
  detail : JsString
  position : Option Nat
deriving DecidableEq

/-! ### Visiting a tree -/

/-- The way down to a node, the index of the last child first. -/
abbrev Path := List Nat

def depthLimit : ExpressionDiagnostic := ⟨.limit, "expression depth", none⟩

mutual

/-- `visitExpression`: the nodes in the order in which the visitor sees them, children first. -/
def visitExpression (depth : Nat) (path : Path) :
    ExpressionNode → Except ExpressionDiagnostic (List (Path × ExpressionNode))
  | .call name args span =>
    if 256 < depth then .error depthLimit
    else do
      let visited ← visitArgs (depth + 1) path 0 args
      return visited ++ [(path, .call name args span)]
  | .unary operator operand span =>
    if 256 < depth then .error depthLimit
    else do
      let visited ← visitExpression (depth + 1) (0 :: path) operand
      return visited ++ [(path, .unary operator operand span)]
  | .binary operator left right span =>
    if 256 < depth then .error depthLimit
    else do
      let fromLeft ← visitExpression (depth + 1) (0 :: path) left
      let fromRight ← visitExpression (depth + 1) (1 :: path) right
      return fromLeft ++ fromRight ++ [(path, .binary operator left right span)]
  | .conditional condition yes no span =>
    if 256 < depth then .error depthLimit
    else do
      let fromCondition ← visitExpression (depth + 1) (0 :: path) condition
      let fromYes ← visitExpression (depth + 1) (1 :: path) yes
      let fromNo ← visitExpression (depth + 1) (2 :: path) no
      return fromCondition ++ fromYes ++ fromNo ++ [(path, .conditional condition yes no span)]
  | leaf => if 256 < depth then .error depthLimit else .ok [(path, leaf)]

def visitArgs (depth : Nat) (path : Path) (index : Nat) :
    List ExpressionNode → Except ExpressionDiagnostic (List (Path × ExpressionNode))
  | [] => .ok []
  | arg :: rest => do
      let visited ← visitExpression depth (index :: path) arg
      let others ← visitArgs depth path (index + 1) rest
      return visited ++ others

end

structure Dependencies where
  vars : List BillingVariable
  functions : List BillingFunction
deriving DecidableEq

def expressionDependencies (node : ExpressionNode) :
    Except ExpressionDiagnostic Dependencies := do
  let visited ← visitExpression 0 [] node
  return {
    vars := (visited.filterMap fun
      | (_, .var name _) => some name
      | _ => none).dedup
    functions := (visited.filterMap fun
      | (_, .call name _ _) => some name
      | _ => none).dedup }

/-! ### Request rules -/

def BillingFunction.probesRequest : BillingFunction → Bool
  | .param | .header | .time _ => true
  | _ => false

structure RequestRule where
  node : Path
  condition : ExpressionNode
  multiplier : Double
  cond : JsString

/-- What the visitor of `compileBillingExpression` makes of a node. -/
def requestRule (source : JsString) (path : Path) (node : ExpressionNode) :
    Except ExpressionDiagnostic (Option RequestRule) :=
  match node with
  | .conditional condition (.literal (.number multiplier _) _) (.literal (.number fallback _) _) _ =>
    if fallback.value ≠ 1 then .ok none
    else do
      let dependencies ← expressionDependencies condition
      if dependencies.functions.any (·.probesRequest) then
        return some {
          node := path
          condition := condition
          multiplier := multiplier
          cond := (source.take condition.span.stop).drop condition.span.start }
      else return none
  | _ => .ok none

/-- The list `requestRules` of `compileBillingExpression`. -/
def requestRules (source : JsString) (ast : ExpressionNode) :
    Except ExpressionDiagnostic (List RequestRule) := do
  let visited ← visitExpression 0 [] ast
  let rules ← visited.mapM fun (path, node) => requestRule source path node
  return rules.reduceOption

/-! ### Fixed prices -/

def containsPricingMarker (node : ExpressionNode) : Except ExpressionDiagnostic Bool := do
  let dependencies ← expressionDependencies node
  return decide (.tier ∈ dependencies.functions ∨ .fixed ∈ dependencies.functions)

def fixedPricingError (node : ExpressionNode) : ExpressionDiagnostic where
  code := .type
  detail := js <|
    "Use tier(name, fixed(amount)) with a finite, non-negative numeric literal; combine " ++
      "pricing branches only with conditions and request multipliers."
  position := some node.span.start

/-- Whether the other side of a product with this factor is what is priced. -/
def isPriceFactor (rules : List RequestRule) (path : Path) (factor : ExpressionNode) :
    Except ExpressionDiagnostic Bool :=
  match factor with
  | .var .imageCount _ => .ok true
  | _ =>
    match rules.find? fun candidate => candidate.node = path with
    | none => .ok false
    | some rule =>
      if 0 ≤ rule.multiplier.value then do
        return !(← containsPricingMarker rule.condition)
      else .ok false

/-- Whether the second argument of a `tier` is the price of a leaf. -/
def isLeafPrice (price : ExpressionNode) : Except ExpressionDiagnostic Bool :=
  match price with
  | .call .fixed (.literal (.number amount _) _ :: _) _ =>
    .ok (decide (0 ≤ amount.value) && (amount.mul (.ofInt 1000000)).isSome)
  | .call .fixed _ _ => .ok false
  | _ => do return !(← containsPricingMarker price)

/-- Whether the arguments of a `tier` are a leaf. -/
def isPriceLeaf (name price : ExpressionNode) : Except ExpressionDiagnostic Bool := do
  if ← containsPricingMarker name then return false else isLeafPrice price

def validateFixedPricingTree (rules : List RequestRule) (path : Path) :
    ExpressionNode → Except ExpressionDiagnostic Unit
  | .conditional condition yes no span => do
      if ← containsPricingMarker condition then
        .error (fixedPricingError (.conditional condition yes no span))
      else
        validateFixedPricingTree rules (1 :: path) yes
        validateFixedPricingTree rules (2 :: path) no
  | .binary .times left right span => do
      if ← isPriceFactor rules (1 :: path) right then
        validateFixedPricingTree rules (0 :: path) left
      else if ← isPriceFactor rules (0 :: path) left then
        validateFixedPricingTree rules (1 :: path) right
      else .error (fixedPricingError (.binary .times left right span))
  | .call .tier (name :: price :: rest) span => do
      if ← isPriceLeaf name price then return ()
      else .error (fixedPricingError (.call .tier (name :: price :: rest) span))
  | node => .error (fixedPricingError node)

/-- What `compileBillingExpression` does with a tree that calls `fixed`, once its types are checked. -/
def checkFixedPricing (source : JsString) (ast : ExpressionNode) :
    Except ExpressionDiagnostic Unit := do
  let rules ← requestRules source ast
  validateFixedPricingTree rules [] ast

/-! ### The same tree on the server -/

mutual

/-- What the parser promises: a call has its arguments, an integer is a safe integer. -/
def ExpressionNode.WellFormed : ExpressionNode → Prop
  | .literal (.number value true) _ => value.isSafeInteger = true
  | .call name args _ => args.length = name.arity ∧ ExpressionNode.AllWellFormed args
  | .unary _ operand _ => operand.WellFormed
  | .binary _ left right _ => left.WellFormed ∧ right.WellFormed
  | .conditional condition yes no _ => condition.WellFormed ∧ yes.WellFormed ∧ no.WellFormed
  | _ => True

def ExpressionNode.AllWellFormed : List ExpressionNode → Prop
  | [] => True
  | node :: rest => node.WellFormed ∧ ExpressionNode.AllWellFormed rest

end

def UnaryOperator.onServer : UnaryOperator → BillingExpr.UnaryOperator
  | .not => .not
  | .plus => .plus
  | .minus => .minus

def BinaryOperator.onServer : BinaryOperator → BillingExpr.BinaryOperator
  | .or => .or
  | .and => .and
  | .equal => .equal
  | .notEqual => .notEqual
  | .less => .less
  | .lessOrEqual => .lessOrEqual
  | .greater => .greater
  | .greaterOrEqual => .greaterOrEqual
  | .plus => .plus
  | .minus => .minus
  | .times => .times
  | .divide => .divide
  | .modulo => .modulo

def LiteralValue.onServer : LiteralValue → BillingExpr.Node
  | .number value true => .integer value.value.num
  | .number value false => .float value.value
  | .string value => .string (String.ofList (toWellFormed value))
  | .bool value => .bool value
  | .null => .nil

/-- The functions that are builtins of the expression library. -/
def BillingFunction.isBuiltin : BillingFunction → Bool
  | .min | .max | .abs | .ceil | .floor => true
  | _ => false

mutual

/-- The tree the expression library has for the same expression. -/
def ExpressionNode.onServer : ExpressionNode → BillingExpr.Node
  | .literal value _ => value.onServer
  | .var name _ => .identifier name.name
  | .call name args _ =>
    if name.isBuiltin then .builtin name.name (ExpressionNode.allOnServer args)
    else .call (.identifier name.name) (ExpressionNode.allOnServer args)
  | .unary operator operand _ => .unary operator.onServer operand.onServer
  | .binary operator left right _ => .binary operator.onServer left.onServer right.onServer
  | .conditional condition yes no _ =>
    .conditional true condition.onServer yes.onServer no.onServer

def ExpressionNode.allOnServer : List ExpressionNode → List BillingExpr.Node
  | [] => []
  | node :: rest => node.onServer :: ExpressionNode.allOnServer rest

end

end JulongApi.WebBillingExpr

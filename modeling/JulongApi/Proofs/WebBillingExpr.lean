/-
The console and the server accept the same fixed prices.

Both validations go down the same tree, but they recognise what they look for in different
ways.  The server reads identifiers off the tree; the console collects the functions that are
called, and visiting a tree to collect them fails past a depth.  The server decides on the
spot whether a factor is a request multiplier; the console looks for it, by identity, in a
list made beforehand.  What carries the comparison is `Occurs`, which neither mentions an
order nor a depth, and the fact that a path names one node.
-/
import JulongApi.WebBillingExpr

namespace JulongApi.WebBillingExpr

open ExpressionNode JavaScript

/-! ### Going down a tree -/

/-- Induction on a tree, a node after its children. -/
@[elab_as_elim]
theorem ExpressionNode.byChildren {P : ExpressionNode → Prop} (node : ExpressionNode)
    (step : ∀ node : ExpressionNode, (∀ child ∈ node.children, P child) → P node) : P node := by
  refine @ExpressionNode.rec P (fun nodes => ∀ child ∈ nodes, P child)
    ?literal ?var ?call ?unary ?binary ?conditional ?nil ?cons node
  case literal => exact fun value span => step _ (by simp [children])
  case var => exact fun name span => step _ (by simp [children])
  case call => exact fun name args span ih => step _ ih
  case unary => exact fun operator operand span ih => step _ (by simpa [children] using ih)
  case binary =>
    exact fun operator left right span ihl ihr => step _ (by simpa [children] using ⟨ihl, ihr⟩)
  case conditional =>
    exact fun condition yes no span ihc ihy ihn =>
      step _ (by simpa [children] using ⟨ihc, ihy, ihn⟩)
  case nil => simp
  case cons => exact fun head tail ihh iht => by simpa using ⟨ihh, iht⟩

theorem visitExpression_eq (depth : Nat) (path : Path) (node : ExpressionNode) :
    visitExpression depth path node =
      if 256 < depth then .error depthLimit
      else do
        let visited ← visitArgs (depth + 1) path 0 node.children
        return visited ++ [(path, node)] := by
  cases node with
  | literal value span => rfl
  | var name span => rfl
  | call name args span => rfl
  | unary operator operand span =>
    simp only [visitExpression, visitArgs, children]
    cases visitExpression (depth + 1) (0 :: path) operand with
    | error e => rfl
    | ok visited => simp
  | binary operator left right span =>
    simp only [visitExpression, visitArgs, children]
    cases visitExpression (depth + 1) (0 :: path) left with
    | error e => rfl
    | ok fromLeft =>
      cases visitExpression (depth + 1) (1 :: path) right with
      | error e => rfl
      | ok fromRight => simp
  | conditional condition yes no span =>
    simp only [visitExpression, visitArgs, children]
    cases visitExpression (depth + 1) (0 :: path) condition with
    | error e => rfl
    | ok fromCondition =>
      cases visitExpression (depth + 1) (1 :: path) yes with
      | error e => rfl
      | ok fromYes =>
        cases visitExpression (depth + 1) (2 :: path) no with
        | error e => rfl
        | ok fromNo => simp

theorem ExpressionNode.depth_eq (node : ExpressionNode) :
    node.depth = depthBelow node.children := by
  cases node <;> simp [depth, depthBelow, children]

theorem visitExpression_total (node : ExpressionNode) : ∀ depth path,
    (depth + node.depth ≤ 256 ∧ ∃ visited, visitExpression depth path node = .ok visited) ∨
      (256 < depth + node.depth ∧ visitExpression depth path node = .error depthLimit) := by
  induction node using byChildren with
  | step node ih =>
    have args : ∀ (nodes : List ExpressionNode), (∀ child ∈ nodes, child ∈ node.children) →
        ∀ depth path index, depth ≤ 256 →
        (depth + depthBelow nodes ≤ 256 ∧
          ∃ visited, visitArgs (depth + 1) path index nodes = .ok visited) ∨
        (256 < depth + depthBelow nodes ∧
          visitArgs (depth + 1) path index nodes = .error depthLimit) := by
      intro nodes
      induction nodes with
      | nil =>
        intro _ depth path index hdepth
        exact .inl ⟨hdepth, [], rfl⟩
      | cons child rest ihrest =>
        intro hsub depth path index hdepth
        simp only [List.mem_cons, forall_eq_or_imp] at hsub
        simp only [visitArgs, depthBelow]
        rcases ih child hsub.1 (depth + 1) (index :: path) with ⟨hle, visited, hvisited⟩ | ⟨hlt, herr⟩
        · rcases ihrest hsub.2 depth path (index + 1) hdepth with
            ⟨hle', others, hothers⟩ | ⟨hlt, herr⟩
          · exact .inl ⟨by omega, visited ++ others, by simp [hvisited, hothers]⟩
          · exact .inr ⟨by omega, by simp [hvisited, herr]⟩
        · exact .inr ⟨by omega, by simp [herr]⟩
    intro depth path
    rw [visitExpression_eq, node.depth_eq]
    by_cases hdepth : 256 < depth
    · exact .inr ⟨by omega, if_pos hdepth⟩
    · rcases args node.children (fun _ h => h) depth path 0 (by omega) with
        ⟨hle, visited, hvisited⟩ | ⟨hlt, herr⟩
      · exact .inl ⟨hle, visited ++ [(path, node)], by simp [hdepth, hvisited]⟩
      · exact .inr ⟨hlt, by simp [hdepth, herr]⟩

inductive At (root : ExpressionNode) : Path → ExpressionNode → Prop
  | root : At root [] root
  | child {p : Path} {node child : ExpressionNode} {i : Nat} (hat : At root p node)
      (hchild : node.children[i]? = some child) : At root (i :: p) child

variable {p : Path} {visited : List (Path × ExpressionNode)} {ast : ExpressionNode}
  {source : JsString} {span : Span}

variable {root child condition yes no argument price : ExpressionNode} {path : Path}
  {rule : Option RequestRule} {rules : List RequestRule}

theorem At.unique {node : ExpressionNode} (h : At root p node) :
    ∀ {other}, At root p other → node = other := by
  induction h with
  | root => intro other hother; cases hother; rfl
  | child hat hchild ih =>
    intro other hother
    cases hother with
    | child hat' hchild' =>
      cases ih hat'
      exact Option.some.inj (hchild.symm.trans hchild')

inductive Occurs (f : ExpressionNode → Bool) : ExpressionNode → Prop
  | here {node : ExpressionNode} (h : f node = true) : Occurs f node
  | inside {node child : ExpressionNode} (hchild : child ∈ node.children) (h : Occurs f child) :
      Occurs f node

theorem occurs_iff {f : ExpressionNode → Bool} {node : ExpressionNode} :
    Occurs f node ↔ (∃ child ∈ node.children, Occurs f child) ∨ f node = true := by
  constructor
  · intro h
    cases h with
    | here h => exact .inr h
    | inside hchild h => exact .inl ⟨_, hchild, h⟩
  · rintro (⟨child, hchild, h⟩ | h)
    · exact .inside hchild h
    · exact .here h

/-- What is known of the nodes visited from some: where they are, and that none is left out. -/
structure Traversal (nodes visited : List (Path × ExpressionNode)) : Prop where
  located : ∀ {root}, (∀ x ∈ nodes, At root x.1 x.2) → ∀ x ∈ visited, At root x.1 x.2
  starts : ∀ x ∈ nodes, x ∈ visited
  closed : ∀ {p node i child}, (p, node) ∈ visited → node.children[i]? = some child →
    (i :: p, child) ∈ visited
  occurs : ∀ f : ExpressionNode → Bool,
    (∃ x ∈ visited, f x.2 = true) ↔ ∃ x ∈ nodes, Occurs f x.2

theorem Traversal.nil : Traversal [] [] := by
  constructor <;> simp

theorem Traversal.append {nodes nodes' visited' : List (Path × ExpressionNode)}
    (h : Traversal nodes visited) (h' : Traversal nodes' visited') :
    Traversal (nodes ++ nodes') (visited ++ visited') where
  located := by
    intro root hroot x hx
    simp only [List.mem_append, or_imp, forall_and] at hroot
    rcases List.mem_append.mp hx with hx | hx
    · exact h.located hroot.1 x hx
    · exact h'.located hroot.2 x hx
  starts := by
    intro x hx
    rcases List.mem_append.mp hx with hx | hx
    · exact List.mem_append_left _ (h.starts x hx)
    · exact List.mem_append_right _ (h'.starts x hx)
  closed := by
    intro p node i child hx hchild
    rcases List.mem_append.mp hx with hx | hx
    · exact List.mem_append_left _ (h.closed hx hchild)
    · exact List.mem_append_right _ (h'.closed hx hchild)
  occurs := by
    intro f
    simp only [List.mem_append, or_and_right, exists_or, h.occurs f, h'.occurs f]

def placed (path : Path) (index : Nat) : List ExpressionNode → List (Path × ExpressionNode)
  | [] => []
  | child :: rest => (index :: path, child) :: placed path (index + 1) rest

theorem mem_placed {nodes : List ExpressionNode} {x : Path × ExpressionNode} :
    ∀ {index}, x ∈ placed path index nodes ↔
      ∃ i, nodes[i]? = some x.2 ∧ x.1 = (index + i) :: path := by
  induction nodes with
  | nil => simp [placed]
  | cons child rest ih =>
    intro index
    simp only [placed, List.mem_cons, ih]
    constructor
    · rintro (rfl | ⟨i, hi, hpath⟩)
      · exact ⟨0, rfl, rfl⟩
      · exact ⟨i + 1, by simpa using hi, by rw [hpath]; congr 1; omega⟩
    · rintro ⟨i, hi, hpath⟩
      cases i with
      | zero =>
        have hchild : child = x.2 := by simpa using hi
        exact .inl (Prod.ext hpath hchild.symm)
      | succ i => exact .inr ⟨i, by simpa using hi, by rw [hpath]; congr 1; omega⟩

theorem Traversal.node {node : ExpressionNode}
    (h : Traversal (placed path 0 node.children) visited) :
    Traversal [(path, node)] (visited ++ [(path, node)]) where
  located := by
    intro root hroot x hx
    have hnode : At root path node := hroot (path, node) (by simp)
    rcases List.mem_append.mp hx with hx | hx
    · refine h.located (fun y hy => ?_) x hx
      obtain ⟨i, hi, hpath⟩ := mem_placed.mp hy
      rw [hpath, Nat.zero_add]
      exact hnode.child hi
    · cases List.mem_singleton.mp hx
      exact hnode
  starts := by simp
  closed := by
    intro p other i child hx hchild
    rcases List.mem_append.mp hx with hx | hx
    · exact List.mem_append_left _ (h.closed hx hchild)
    · cases List.mem_singleton.mp hx
      exact List.mem_append_left _ (h.starts _ (mem_placed.mpr ⟨i, hchild, by simp⟩))
  occurs := by
    intro f
    have hchildren : (∃ x ∈ placed path 0 node.children, Occurs f x.2) ↔
        ∃ child ∈ node.children, Occurs f child := by
      constructor
      · rintro ⟨x, hx, hocc⟩
        obtain ⟨i, hi, -⟩ := mem_placed.mp hx
        exact ⟨x.2, List.mem_of_getElem? hi, hocc⟩
      · rintro ⟨child, hchild, hocc⟩
        obtain ⟨i, hi⟩ := List.getElem?_of_mem hchild
        exact ⟨((0 + i) :: path, child), mem_placed.mpr ⟨i, hi, rfl⟩, hocc⟩
    simp only [List.mem_append, or_and_right, exists_or, h.occurs f, hchildren,
      List.mem_singleton, exists_eq_left]
    exact occurs_iff.symm

theorem traversal_visitExpression (node : ExpressionNode) : ∀ {depth path visited},
    visitExpression depth path node = .ok visited → Traversal [(path, node)] visited := by
  induction node using byChildren with
  | step node ih =>
    have args : ∀ (nodes : List ExpressionNode), (∀ child ∈ nodes, child ∈ node.children) →
        ∀ {depth path index visited}, visitArgs depth path index nodes = .ok visited →
          Traversal (placed path index nodes) visited := by
      intro nodes
      induction nodes with
      | nil =>
        intro _ depth path index visited h
        cases h
        exact .nil
      | cons child rest ihrest =>
        intro hsub depth path index visited h
        simp only [List.mem_cons, forall_eq_or_imp] at hsub
        obtain ⟨first, hfirst, h⟩ := bind_eq_ok.mp h
        obtain ⟨others, hothers, h⟩ := bind_eq_ok.mp h
        cases h
        exact (ih child hsub.1 hfirst).append (ihrest hsub.2 hothers)
    intro depth path visited h
    rw [visitExpression_eq] at h
    split at h
    · cases h
    · obtain ⟨below, hbelow, h⟩ := bind_eq_ok.mp h
      cases h
      exact (args node.children (fun _ h => h) hbelow).node

theorem visitExpression_root {node : ExpressionNode} (hdepth : node.depth ≤ 256) :
    ∃ visited, visitExpression 0 [] node = .ok visited ∧ Traversal [([], node)] visited := by
  rcases visitExpression_total node 0 [] with ⟨-, visited, hvisited⟩ | ⟨hlt, -⟩
  · exact ⟨visited, hvisited, traversal_visitExpression node hvisited⟩
  · omega

theorem At.mem_visited {node : ExpressionNode} (htrav : Traversal [([], ast)] visited)
    (hat : At ast p node) : (p, node) ∈ visited := by
  induction hat with
  | root => exact htrav.starts _ (by simp)
  | child _ hchild ih => exact htrav.closed ih hchild

theorem At.of_mem_visited {node : ExpressionNode} (htrav : Traversal [([], ast)] visited)
    (hmem : (p, node) ∈ visited) : At ast p node :=
  htrav.located (by simpa using At.root) _ hmem

theorem ExpressionNode.depth_lt {node : ExpressionNode} (h : child ∈ node.children) :
    child.depth < node.depth := by
  have below : ∀ nodes : List ExpressionNode, child ∈ nodes →
      child.depth < depthBelow nodes := by
    intro nodes hmem
    induction nodes with
    | nil => simp at hmem
    | cons head rest ih =>
      rw [depthBelow]
      rcases List.mem_cons.mp hmem with rfl | hrest
      · omega
      · have := ih hrest
        omega
  rw [node.depth_eq]
  exact below _ h

theorem At.depth_le {node : ExpressionNode} (h : At root p node) : node.depth ≤ root.depth := by
  induction h with
  | root => exact Nat.le_refl _
  | child _ hchild ih => exact (depth_lt (List.mem_of_getElem? hchild)).le.trans ih

/-! ### The functions a tree calls -/

/-- A call of a function `g` picks. -/
def ExpressionNode.calls (g : BillingFunction → Bool) : ExpressionNode → Bool
  | .call name _ _ => g name
  | _ => false

theorem expressionDependencies_functions {node : ExpressionNode} (hdepth : node.depth ≤ 256) :
    ∃ dependencies, expressionDependencies node = .ok dependencies ∧
      ∀ g : BillingFunction → Bool,
        (∃ name ∈ dependencies.functions, g name = true) ↔ Occurs (·.calls g) node := by
  obtain ⟨visited, hvisited, htrav⟩ := visitExpression_root hdepth
  refine ⟨_, by rw [expressionDependencies, hvisited]; rfl, fun g => ?_⟩
  have hocc := htrav.occurs (·.calls g)
  simp only [List.mem_singleton, exists_eq_left] at hocc
  rw [← hocc]
  simp only [List.mem_dedup, List.mem_filterMap]
  constructor
  · rintro ⟨name, ⟨⟨p, other⟩, hmem, hname⟩, hg⟩
    cases other with
    | call callee args span =>
      cases hname
      exact ⟨_, hmem, hg⟩
    | _ => cases hname
  · rintro ⟨⟨p, other⟩, hmem, hg⟩
    cases other with
    | call callee args span => exact ⟨callee, ⟨_, hmem, rfl⟩, hg⟩
    | _ => cases hg

def BillingFunction.isPricingMarker (name : BillingFunction) : Bool :=
  name = .tier || name = .fixed

theorem containsPricingMarker_spec {node : ExpressionNode} (hdepth : node.depth ≤ 256) :
    ∃ marked, containsPricingMarker node = .ok marked ∧
      (marked = true ↔ Occurs (·.calls (·.isPricingMarker)) node) := by
  obtain ⟨dependencies, hdep, hfun⟩ := expressionDependencies_functions hdepth
  refine ⟨_, by rw [containsPricingMarker, hdep]; rfl, ?_⟩
  rw [← hfun, decide_eq_true_eq]
  simp [BillingFunction.isPricingMarker, exists_or, and_or_left]

/-! ### The identifiers of the server's tree -/

/-- The identifier the server's node has is one of `names`. -/
def ExpressionNode.named (names : List String) : ExpressionNode → Bool
  | .var name _ => decide (name.name ∈ names)
  | .call name _ _ => !name.isBuiltin && decide (name.name ∈ names)
  | _ => false

theorem any_walkAll_allOnServer (f : BillingExpr.Node → Bool) (nodes : List ExpressionNode) :
    (BillingExpr.Node.walkAll (allOnServer nodes)).any f = true ↔
      ∃ child ∈ nodes, child.onServer.walk.any f = true := by
  induction nodes with
  | nil => simp [allOnServer, BillingExpr.Node.walkAll]
  | cons head rest ih =>
    rw [allOnServer, BillingExpr.Node.walkAll, List.any_append, Bool.or_eq_true, ih]
    simp

theorem findIdentifier_onServer_step (names : List String) (node : ExpressionNode) :
    node.onServer.findIdentifier names = true ↔
      (∃ child ∈ node.children, child.onServer.findIdentifier names = true) ∨
        node.named names = true := by
  unfold BillingExpr.Node.findIdentifier
  cases node with
  | literal value span =>
    rcases value with ⟨value, _ | _⟩ | _ | _ | _ <;>
      simp [onServer, LiteralValue.onServer, BillingExpr.Node.walk, children, named]
  | var name span =>
    simp [onServer, BillingExpr.Node.walk, children, named]
  | call name args span =>
    rw [onServer, children, named, ← any_walkAll_allOnServer]
    by_cases hbuiltin : name.isBuiltin = true
    · simp [hbuiltin, BillingExpr.Node.walk]
    · simp [hbuiltin, BillingExpr.Node.walk, or_comm]
  | unary operator operand span =>
    simp [onServer, BillingExpr.Node.walk, children, named]
  | binary operator left right span =>
    simp [onServer, BillingExpr.Node.walk, children, named]
  | conditional condition yes no span =>
    simp [onServer, BillingExpr.Node.walk, children, named]

theorem findIdentifier_onServer (names : List String) (node : ExpressionNode) :
    node.onServer.findIdentifier names = true ↔ Occurs (·.named names) node := by
  induction node using byChildren with
  | step node ih =>
    rw [findIdentifier_onServer_step, occurs_iff]
    refine or_congr ⟨?_, ?_⟩ Iff.rfl
    · rintro ⟨child, hchild, h⟩
      exact ⟨child, hchild, (ih child hchild).mp h⟩
    · rintro ⟨child, hchild, h⟩
      exact ⟨child, hchild, (ih child hchild).mpr h⟩

theorem containsPricingMarker_onServer (node : ExpressionNode) :
    BillingExpr.containsPricingMarker node.onServer = true ↔
      Occurs (·.calls (·.isPricingMarker)) node := by
  have hnamed : (fun node : ExpressionNode => node.named ["tier", "fixed"]) =
      fun node => node.calls (·.isPricingMarker) := by
    funext node
    cases node with
    | var name span => cases name <;> rfl
    | call name args span =>
      rcases name with _ | _ | _ | _ | _ | _ | ⟨_ | _ | _ | _ | _⟩ | _ | _ | _ | _ | _ <;> rfl
    | _ => rfl
  rw [BillingExpr.containsPricingMarker, findIdentifier_onServer, hnamed]

theorem usesRequestProbe_onServer (node : ExpressionNode) :
    BillingExpr.usesRequestProbe node.onServer = true ↔
      Occurs (·.calls (·.probesRequest)) node := by
  have hnamed : (fun node : ExpressionNode => node.named BillingExpr.requestProbes) =
      fun node => node.calls (·.probesRequest) := by
    funext node
    cases node with
    | var name span => cases name <;> rfl
    | call name args span =>
      rcases name with _ | _ | _ | _ | _ | _ | ⟨_ | _ | _ | _ | _⟩ | _ | _ | _ | _ | _ <;> rfl
    | _ => rfl
  rw [BillingExpr.usesRequestProbe, findIdentifier_onServer, hnamed]

/-! ### Numbers -/

theorem float64OfInt_of_lt {n : Int} (h : n.natAbs < 2 ^ 53) : BillingExpr.float64OfInt n = n := by
  have hlog : Nat.log 2 n.natAbs - 52 = 0 := by
    have := Nat.log_lt_of_lt_pow' (b := 2) (by decide) h
    omega
  simp [BillingExpr.float64OfInt, hlog, Nat.mod_one]
  have hsign : n.sign * n.natAbs = n := Int.sign_mul_natAbs n
  exact_mod_cast hsign

/-- The number a numeric literal has. -/
def ExpressionNode.number? : ExpressionNode → Option Double
  | .literal (.number value _) _ => some value
  | _ => none

theorem requestRuleNumber_onServer {node : ExpressionNode} (hwf : node.WellFormed) :
    BillingExpr.requestRuleNumber node.onServer = node.number?.map (·.value) := by
  cases node with
  | literal value span =>
    rcases value with ⟨value, _ | _⟩ | _ | _ | _
    · rfl
    · have hsafe : value.isSafeInteger = true := hwf
      simp only [Double.isSafeInteger, Double.isInteger, Bool.and_eq_true, beq_iff_eq,
        decide_eq_true_eq] at hsafe
      have hnum : ((value.value.num : Int) : ℚ) = value.value := Rat.coe_int_num_of_den_eq_one hsafe.1
      have habs : value.value.num.natAbs < 2 ^ 53 := by
        have hlt : |((value.value.num : Int) : ℚ)| < 2 ^ 53 := by rw [hnum]; exact hsafe.2
        have hint : |value.value.num| < 2 ^ 53 := by exact_mod_cast hlt
        rw [← Int.natCast_natAbs] at hint
        exact_mod_cast hint
      simp only [onServer, LiteralValue.onServer, BillingExpr.requestRuleNumber,
        float64OfInt_of_lt habs, hnum, number?, Option.map_some]
    · rfl
    · rfl
    · rfl
  | call name args span =>
    rw [onServer]
    split <;> rfl
  | _ => rfl

theorem scaledIsInf_eq_false {amount : Double} :
    BillingExpr.scaledIsInf amount.value = false ↔ (amount.mul (.ofInt 1000000)).isSome = true := by
  have hmillion : (Double.ofInt 1000000).value = 1000000 := by simp [Double.ofInt, Double.ofValue]
  rw [Double.mul, Double.round_isSome, hmillion, BillingExpr.scaledIsInf, decide_eq_false_iff_not,
    not_le]

/-! ### Request multipliers -/

theorem ExpressionNode.WellFormed.children {node : ExpressionNode} (h : node.WellFormed)
    (hchild : child ∈ node.children) : child.WellFormed := by
  cases node with
  | literal value span => simp [ExpressionNode.children] at hchild
  | var name span => simp [ExpressionNode.children] at hchild
  | call name args span =>
    have all : ∀ nodes : List ExpressionNode, AllWellFormed nodes →
        child ∈ nodes → child.WellFormed := by
      intro nodes hall hmem
      induction nodes with
      | nil => simp at hmem
      | cons head rest ih =>
        rcases List.mem_cons.mp hmem with rfl | hrest
        · exact hall.1
        · exact ih hall.2 hrest
    exact all args h.2 hchild
  | unary operator operand span =>
    cases List.mem_singleton.mp hchild
    exact h
  | binary operator left right span =>
    simp only [ExpressionNode.children, List.mem_cons, List.not_mem_nil, or_false] at hchild
    rcases hchild with rfl | rfl
    · exact h.1
    · exact h.2
  | conditional condition yes no span =>
    simp only [ExpressionNode.children, List.mem_cons, List.not_mem_nil, or_false] at hchild
    rcases hchild with rfl | rfl | rfl
    · exact h.1
    · exact h.2.1
    · exact h.2.2

theorem requestRule_total (source : JsString) (p : Path) {node : ExpressionNode}
    (hdepth : node.depth ≤ 256) : ∃ rule, requestRule source p node = .ok rule := by
  unfold requestRule
  split
  · next condition multiplier integer span fallback integer' span' span'' =>
    have hcondition : condition.depth ≤ 256 :=
      (depth_lt (by simp [children])).le.trans hdepth
    obtain ⟨dependencies, hdep, -⟩ := expressionDependencies_functions hcondition
    split
    · exact ⟨_, rfl⟩
    · rw [hdep, ok_bind]
      split <;> exact ⟨_, rfl⟩
  · exact ⟨_, rfl⟩

theorem node_of_requestRule {node : ExpressionNode} {rule : RequestRule}
    (h : requestRule source p node = .ok (some rule)) : rule.node = p := by
  unfold requestRule at h
  split at h
  · split at h
    · cases h
    · obtain ⟨dependencies, -, h⟩ := bind_eq_ok.mp h
      split at h
      · cases h
        rfl
      · cases h
  · cases h

theorem requestRules_spec (source : JsString) (hdepth : ast.depth ≤ 256) :
    ∃ rules, requestRules source ast = .ok rules ∧
      ∀ {p node}, At ast p node → ∃ rule, requestRule source p node = .ok rule ∧
        rules.find? (fun candidate => candidate.node = p) = rule := by
  obtain ⟨visited, hvisited, htrav⟩ := visitExpression_root hdepth
  have htotal : ∀ x ∈ visited, ∃ rule, requestRule source x.1 x.2 = .ok rule := by
    intro x hx
    have hat := At.of_mem_visited htrav hx
    exact requestRule_total source x.1 (hat.depth_le.trans hdepth)
  obtain ⟨rules, hrules, hmem⟩ := mapM_eq_ok htotal
  refine ⟨rules.reduceOption, by simp [requestRules, hvisited, hrules], ?_⟩
  intro p node hat
  obtain ⟨rule, hrule⟩ := htotal (p, node) (hat.mem_visited htrav)
  refine ⟨rule, hrule, ?_⟩
  -- any rule the list holds for the path was made of the node there, which is this one
  have hfound : ∀ found, found ∈ rules.reduceOption → found.node = p → rule = some found := by
    intro found hfound hnode
    obtain ⟨⟨q, other⟩, hother, hmade⟩ := (hmem _).mp (List.reduceOption_mem_iff.mp hfound)
    have hq : q = p := (node_of_requestRule hmade).symm.trans hnode
    subst hq
    cases (At.of_mem_visited htrav hother).unique hat
    exact Except.ok.inj (hrule.symm.trans hmade)
  cases hfind : rules.reduceOption.find? (fun candidate => candidate.node = p) with
  | some found =>
    have hnode : found.node = p := by simpa using List.find?_some hfind
    exact (hfound found (List.mem_of_find?_eq_some hfind) hnode).symm
  | none =>
    cases rule with
    | none => rfl
    | some made =>
      have hmade : made ∈ rules.reduceOption :=
        List.reduceOption_mem_iff.mpr ((hmem _).mpr ⟨(p, node), hat.mem_visited htrav, hrule⟩)
      have hnone := List.find?_eq_none.mp hfind made hmade
      simp [node_of_requestRule hrule] at hnone

theorem requestRule_conditional (source : JsString) (p : Path) (condition yes no : ExpressionNode)
    (span : Span) :
    requestRule source p (.conditional condition yes no span) =
      match yes.number?, no.number? with
      | some multiplier, some fallback =>
        if fallback.value ≠ 1 then .ok none
        else do
          let dependencies ← expressionDependencies condition
          if dependencies.functions.any (·.probesRequest) then
            return some {
              node := p
              condition := condition
              multiplier := multiplier
              cond := (source.take condition.span.stop).drop condition.span.start }
          else return none
      | _, _ => .ok none := by
  rcases yes with ⟨⟨_, _⟩ | _ | _ | _, _⟩ | _ | _ | _ | _ | _ <;> try rfl
  rcases no with ⟨⟨_, _⟩ | _ | _ | _, _⟩ | _ | _ | _ | _ | _ <;> rfl

theorem isRequestPriceMultiplier_conditional
    (hyes : yes.WellFormed) (hno : no.WellFormed) :
    BillingExpr.isRequestPriceMultiplier (ExpressionNode.conditional condition yes no span).onServer =
        true ↔
      Occurs (·.calls (·.probesRequest)) condition ∧
        ¬ Occurs (·.calls (·.isPricingMarker)) condition ∧
        ∃ multiplier fallback, yes.number? = some multiplier ∧ no.number? = some fallback ∧
          fallback.value = 1 ∧ 0 ≤ multiplier.value := by
  rw [onServer, BillingExpr.isRequestPriceMultiplier,
    requestRuleNumber_onServer hyes, requestRuleNumber_onServer hno,
    ← usesRequestProbe_onServer, ← containsPricingMarker_onServer]
  cases BillingExpr.usesRequestProbe condition.onServer <;>
    cases BillingExpr.containsPricingMarker condition.onServer <;>
    cases yes.number? <;> cases no.number? <;> simp

theorem requestRule_spec (hdepth : condition.depth ≤ 256)
    (hrule : requestRule source p (.conditional condition yes no span) = .ok rule) :
    (∃ made multiplier fallback, rule = some made ∧ made.condition = condition ∧
      made.multiplier = multiplier ∧ yes.number? = some multiplier ∧ no.number? = some fallback ∧
      fallback.value = 1 ∧ Occurs (·.calls (·.probesRequest)) condition) ∨
    (rule = none ∧ ¬ ∃ multiplier fallback, yes.number? = some multiplier ∧
      no.number? = some fallback ∧ fallback.value = 1 ∧
      Occurs (·.calls (·.probesRequest)) condition) := by
  obtain ⟨dependencies, hdep, hfun⟩ := expressionDependencies_functions hdepth
  have hany : dependencies.functions.any (·.probesRequest) = true ↔
      Occurs (·.calls (·.probesRequest)) condition := by
    rw [← hfun]
    simp
  rw [requestRule_conditional, hdep] at hrule
  cases hyes : yes.number? with
  | none =>
    simp only [hyes] at hrule
    cases hrule
    exact .inr ⟨rfl, by simp⟩
  | some multiplier =>
    cases hno : no.number? with
    | none =>
      simp only [hyes, hno] at hrule
      cases hrule
      exact .inr ⟨rfl, by simp⟩
    | some fallback =>
      simp only [hyes, hno] at hrule
      by_cases hone : fallback.value = 1
      · rw [if_neg (not_not.mpr hone), ok_bind] at hrule
        split at hrule
        · next hprobe =>
          cases hrule
          exact .inl ⟨_, multiplier, fallback, rfl, rfl, rfl, rfl, rfl, hone, hany.mp hprobe⟩
        · next hprobe =>
          cases hrule
          refine .inr ⟨rfl, ?_⟩
          rintro ⟨_, _, -, -, -, hocc⟩
          exact hprobe (hany.mpr hocc)
      · rw [if_pos hone] at hrule
        cases hrule
        refine .inr ⟨rfl, ?_⟩
        rintro ⟨_, _, -, hfallback, hone', -⟩
        cases hfallback
        exact hone hone'

theorem isPriceFactor_spec {factor : ExpressionNode}
    (hrule : requestRule source p factor = .ok rule)
    (hfind : rules.find? (fun candidate => candidate.node = p) = rule) (hwf : factor.WellFormed)
    (hdepth : factor.depth ≤ 256) :
    isPriceFactor rules p factor = .ok (BillingExpr.isRequestPriceMultiplier factor.onServer) := by
  unfold isPriceFactor
  rw [hfind]
  cases factor with
  | var name span =>
    cases hrule
    cases name <;> rfl
  | conditional condition yes no span =>
    have hcondition : condition.depth ≤ 256 :=
      (depth_lt (by simp [children])).le.trans hdepth
    have hserver : BillingExpr.isRequestPriceMultiplier
        (ExpressionNode.conditional condition yes no span).onServer = true ↔ _ :=
      isRequestPriceMultiplier_conditional hwf.2.1 hwf.2.2
    obtain ⟨marked, hmarked, hmark⟩ := containsPricingMarker_spec hcondition
    rcases requestRule_spec hcondition hrule with
      ⟨made, multiplier, fallback, rfl, hmade, hmult, hyes, hno, hone, hprobe⟩ | ⟨rfl, hnone⟩
    · cases hmade
      cases hmult
      have hiff : BillingExpr.isRequestPriceMultiplier
          (ExpressionNode.conditional made.condition yes no span).onServer = true ↔
            0 ≤ made.multiplier.value ∧ marked = false := by
        rw [hserver, ← hmark, Bool.not_eq_true]
        constructor
        · rintro ⟨-, hclear, multiplier, fallback', hyes', -, -, hnonneg⟩
          cases hyes.symm.trans hyes'
          exact ⟨hnonneg, hclear⟩
        · rintro ⟨hnonneg, hclear⟩
          exact ⟨hprobe, hclear, made.multiplier, fallback, hyes, hno, hone, hnonneg⟩
      simp only [hmarked, ok_bind, pure_eq_ok]
      by_cases hnonneg : 0 ≤ made.multiplier.value
      · rw [if_pos hnonneg]
        congr 1
        rw [Bool.eq_iff_iff, hiff]
        simp [hnonneg]
      · rw [if_neg hnonneg]
        congr 1
        rw [Bool.eq_iff_iff, hiff]
        simp [hnonneg]
    · have hfalse : BillingExpr.isRequestPriceMultiplier
          (ExpressionNode.conditional condition yes no span).onServer = false := by
        rw [Bool.eq_false_iff]
        intro htrue
        obtain ⟨hprobe, -, multiplier, fallback, hyes, hno, hone, -⟩ := hserver.mp htrue
        exact hnone ⟨multiplier, fallback, hyes, hno, hone, hprobe⟩
      rw [hfalse]
  | literal value span =>
    rcases value with ⟨_, _ | _⟩ | _ | _ | _ <;> (cases hrule; rfl)
  | call name args span =>
    cases hrule
    rw [onServer]
    cases name.isBuiltin <;> rfl
  | _ => cases hrule; rfl

/-! ### The leaves -/

theorem isLeafPrice_fixed :
    isLeafPrice (.call .fixed [argument] span) =
      .ok (match argument.number? with
        | some amount => decide (0 ≤ amount.value) && (amount.mul (.ofInt 1000000)).isSome
        | none => false) := by
  rcases argument with ⟨⟨_, _⟩ | _ | _ | _, _⟩ | _ | _ | _ | _ | _ <;> rfl

theorem validateLeafPrice_fixed (hwf : argument.WellFormed) :
    BillingExpr.validateLeafPrice (ExpressionNode.call .fixed [argument] span).onServer = .ok () ↔
      ∃ amount, argument.number? = some amount ∧ 0 ≤ amount.value ∧
        (amount.mul (.ofInt 1000000)).isSome = true := by
  have hshape : (ExpressionNode.call .fixed [argument] span).onServer =
      .call (.identifier "fixed") [argument.onServer] := rfl
  rw [hshape, BillingExpr.validateLeafPrice, requestRuleNumber_onServer hwf]
  cases argument.number? with
  | none => simp
  | some amount =>
    simp only [Option.map_some, scaledIsInf_eq_false, Option.some.injEq, exists_eq_left']
    split <;> simp_all

theorem validateLeafPrice_other (hprice : ∀ args span, price ≠ .call .fixed args span) :
    BillingExpr.validateLeafPrice price.onServer = .ok () ↔
      BillingExpr.containsPricingMarker price.onServer = false := by
  have hshape : ∀ argument, price.onServer ≠ .call (.identifier "fixed") [argument] := by
    intro argument heq
    cases price with
    | literal value span => rcases value with ⟨_, _ | _⟩ | _ | _ | _ <;> cases heq
    | call name args span =>
      rw [onServer] at heq
      split at heq
      · cases heq
      · next hbuiltin =>
        injection heq with hcallee _
        injection hcallee with hname
        rcases name with _ | _ | _ | _ | _ | _ | ⟨_ | _ | _ | _ | _⟩ | _ | _ | _ | _ | _ <;>
          first | exact absurd hname (by decide) | exact hprice _ _ rfl
    | _ => cases heq
  unfold BillingExpr.validateLeafPrice
  split
  · next argument heq => exact absurd heq (hshape argument)
  · split <;> simp_all

theorem isPriceLeaf_spec {name : ExpressionNode} (hname : name.depth ≤ 256)
    (hprice : price.depth ≤ 256) (hwf : price.WellFormed) :
    ∃ leaf, isPriceLeaf name price = .ok leaf ∧
      (leaf = true ↔ BillingExpr.containsPricingMarker name.onServer = false ∧
        BillingExpr.validateLeafPrice price.onServer = .ok ()) := by
  obtain ⟨named, hnamed, hmark⟩ := containsPricingMarker_spec hname
  rw [← containsPricingMarker_onServer] at hmark
  have hstep : isPriceLeaf name price = if named = true then .ok false else isLeafPrice price := by
    rw [isPriceLeaf, hnamed]
    cases named <;> rfl
  rw [hstep]
  cases named with
  | true => exact ⟨false, rfl, by simp [hmark.mp rfl]⟩
  | false =>
    have hclear : BillingExpr.containsPricingMarker name.onServer = false := by
      rw [Bool.eq_false_iff]
      exact fun h => Bool.false_ne_true (hmark.mpr h)
    by_cases hfixed : ∃ args span, price = .call .fixed args span
    · obtain ⟨args, span, rfl⟩ := hfixed
      obtain ⟨argument, rfl⟩ := List.length_eq_one_iff.mp hwf.1
      refine ⟨_, isLeafPrice_fixed, ?_⟩
      rw [validateLeafPrice_fixed hwf.2.1]
      cases argument.number? <;> simp [hclear]
    · have hother : ∀ args span, price ≠ .call .fixed args span := by
        intro args span h
        exact hfixed ⟨args, span, h⟩
      obtain ⟨marked, hmarked, hiff⟩ := containsPricingMarker_spec hprice
      have hleaf : isLeafPrice price = .ok (!marked) := by
        unfold isLeafPrice
        split
        · next amount integer span rest span' => exact absurd rfl (hother _ _)
        · next args span _ => exact absurd rfl (hother _ _)
        · rw [hmarked]
          rfl
      refine ⟨!marked, hleaf, ?_⟩
      rw [validateLeafPrice_other hother, Bool.not_eq_true', Bool.eq_false_iff, Bool.eq_false_iff,
        Ne, hiff, ← containsPricingMarker_onServer]
      simp [hclear]

/-! ### Both validations -/

theorem bind_unit_eq_ok {x y : Except ExpressionDiagnostic Unit} :
    (do x; y) = .ok () ↔ x = .ok () ∧ y = .ok () := by
  cases x with
  | error e => simp
  | ok u => simp

theorem validate_conditional {condition yes no : BillingExpr.Node} {ternary : Bool} :
    BillingExpr.validateFixedPricingTree (.conditional ternary condition yes no) = .ok () ↔
      BillingExpr.containsPricingMarker condition = false ∧
        BillingExpr.validateFixedPricingTree yes = .ok () ∧
        BillingExpr.validateFixedPricingTree no = .ok () := by
  rw [BillingExpr.validateFixedPricingTree]
  cases BillingExpr.containsPricingMarker condition with
  | true => simp
  | false =>
    cases BillingExpr.validateFixedPricingTree yes with
    | error e => simp
    | ok u => simp

theorem validate_call {name : BillingFunction} {args : List ExpressionNode}
    (hname : name ≠ .tier) :
    BillingExpr.validateFixedPricingTree (ExpressionNode.call name args span).onServer ≠ .ok () := by
  rw [onServer]
  rcases name with _ | _ | _ | _ | _ | _ | ⟨_ | _ | _ | _ | _⟩ | _ | _ | _ | _ | _ <;>
    first
    | exact absurd rfl hname
    | simp [BillingFunction.isBuiltin, BillingFunction.name, TimeFunction.name,
        BillingExpr.validateFixedPricingTree]

theorem validateFixedPricingTree_iff (hdepth : ast.depth ≤ 256)
    (hrules : ∀ {p node}, At ast p node → ∃ rule, requestRule source p node = .ok rule ∧
      rules.find? (fun candidate => candidate.node = p) = rule) (node : ExpressionNode) :
    ∀ {p}, At ast p node → node.WellFormed →
      (validateFixedPricingTree rules p node = .ok () ↔
        BillingExpr.validateFixedPricingTree node.onServer = .ok ()) := by
  induction node using byChildren with
  | step node ih =>
    intro p hat hwf
    have hchild : ∀ (i : Nat) (child : ExpressionNode), node.children[i]? = some child →
        At ast (i :: p) child ∧ child.WellFormed ∧ child.depth ≤ 256 ∧
          (validateFixedPricingTree rules (i :: p) child = .ok () ↔
            BillingExpr.validateFixedPricingTree child.onServer = .ok ()) := by
      intro i child hi
      have hmem := List.mem_of_getElem? hi
      have hbelow := hat.child hi
      exact ⟨hbelow, hwf.children hmem, hbelow.depth_le.trans hdepth,
        ih child hmem hbelow (hwf.children hmem)⟩
    cases node with
    | literal value span =>
      rcases value with ⟨_, _ | _⟩ | _ | _ | _ <;>
        simp [validateFixedPricingTree, onServer, LiteralValue.onServer, BillingExpr.validateFixedPricingTree]
    | var name span =>
      simp [validateFixedPricingTree, onServer, BillingExpr.validateFixedPricingTree]
    | unary operator operand span =>
      simp [validateFixedPricingTree, onServer, BillingExpr.validateFixedPricingTree]
    | conditional condition yes no span =>
      obtain ⟨-, -, hconditionDepth, -⟩ := hchild 0 condition rfl
      obtain ⟨-, -, -, hyes⟩ := hchild 1 yes rfl
      obtain ⟨-, -, -, hno⟩ := hchild 2 no rfl
      obtain ⟨marked, hmarked, hmark⟩ := containsPricingMarker_spec hconditionDepth
      rw [← containsPricingMarker_onServer] at hmark
      rw [onServer, validate_conditional, ← hyes, ← hno, validateFixedPricingTree,
        hmarked, ok_bind, ← bind_unit_eq_ok]
      cases marked with
      | true => simp [hmark.mp rfl]
      | false =>
        have hclear : BillingExpr.containsPricingMarker condition.onServer = false := by
          rw [Bool.eq_false_iff]
          exact fun h => Bool.false_ne_true (hmark.mpr h)
        simp [hclear]
    | binary operator left right span =>
      rw [onServer, BillingExpr.validateFixedPricingTree]
      by_cases htimes : operator = .times
      · subst htimes
        obtain ⟨hatLeft, hwfLeft, hdepthLeft, hleft⟩ := hchild 0 left rfl
        obtain ⟨hatRight, hwfRight, hdepthRight, hright⟩ := hchild 1 right rfl
        obtain ⟨ruleLeft, hmadeLeft, hfindLeft⟩ := hrules hatLeft
        obtain ⟨ruleRight, hmadeRight, hfindRight⟩ := hrules hatRight
        rw [validateFixedPricingTree,
          isPriceFactor_spec hmadeRight hfindRight hwfRight hdepthRight, ok_bind]
        cases BillingExpr.isRequestPriceMultiplier right.onServer with
        | true => simpa [BinaryOperator.onServer] using hleft
        | false =>
          rw [isPriceFactor_spec hmadeLeft hfindLeft hwfLeft hdepthLeft, ok_bind]
          cases BillingExpr.isRequestPriceMultiplier left.onServer with
          | true => simpa [BinaryOperator.onServer] using hright
          | false => simp [BinaryOperator.onServer]
      · cases operator with
        | times => exact absurd rfl htimes
        | _ => simp [validateFixedPricingTree, BinaryOperator.onServer]
    | call name args span =>
      by_cases hname : name = .tier
      · subst hname
        obtain ⟨label, price, rfl⟩ := List.length_eq_two.mp hwf.1
        obtain ⟨-, -, hlabelDepth, -⟩ := hchild 0 label rfl
        obtain ⟨-, hpriceWf, hpriceDepth, -⟩ := hchild 1 price rfl
        obtain ⟨leaf, hleaf, hiff⟩ := isPriceLeaf_spec hlabelDepth hpriceDepth hpriceWf
        have hserver : BillingExpr.validateFixedPricingTree
            (ExpressionNode.call .tier [label, price] span).onServer =
              if BillingExpr.containsPricingMarker label.onServer then .error .shape
              else BillingExpr.validateLeafPrice price.onServer := rfl
        rw [hserver, validateFixedPricingTree, hleaf, ok_bind]
        cases leaf with
        | true =>
          obtain ⟨hclear, hprice⟩ := hiff.mp rfl
          simp [hclear, hprice]
        | false =>
          have hnot : ¬ (BillingExpr.containsPricingMarker label.onServer = false ∧
              BillingExpr.validateLeafPrice price.onServer = .ok ()) :=
            fun h => Bool.false_ne_true (hiff.mpr h)
          cases hmarker : BillingExpr.containsPricingMarker label.onServer with
          | true => simp
          | false => simpa [hmarker] using hnot
      · have hconsole : validateFixedPricingTree rules p (.call name args span) =
            .error (fixedPricingError (.call name args span)) := by
          cases name with
          | tier => exact absurd rfl hname
          | _ => rfl
        rw [hconsole]
        exact iff_of_false (by simp) (validate_call hname)

theorem checkFixedPricing_of_deep (source : JsString) (hdepth : 256 < ast.depth) :
    checkFixedPricing source ast = .error depthLimit := by
  rcases visitExpression_total ast 0 [] with ⟨hle, -⟩ | ⟨-, herror⟩
  · omega
  · simp [checkFixedPricing, requestRules, herror]

/-- The console accepts a tree of fixed prices if and only if the server does and no node is
past the depth to which the console goes down. -/
theorem checkFixedPricing_iff (source : JsString) (ast : ExpressionNode) (hwf : ast.WellFormed) :
    checkFixedPricing source ast = .ok () ↔
      BillingExpr.validateFixedPricingTree ast.onServer = .ok () ∧ ast.depth ≤ 256 := by
  by_cases hdepth : ast.depth ≤ 256
  · obtain ⟨rules, hlist, hrules⟩ := requestRules_spec source hdepth
    rw [checkFixedPricing, hlist, ok_bind,
      validateFixedPricingTree_iff hdepth hrules ast At.root hwf]
    simp [hdepth]
  · rw [checkFixedPricing_of_deep source (not_le.mp hdepth)]
    simp [hdepth]

def headerProbe (start : Nat) : ExpressionNode :=
  .binary .equal
    (.call .header [.literal (.string "x") ⟨start + 7, start + 10⟩] ⟨start, start + 11⟩)
    (.literal (.string "1") ⟨start + 15, start + 18⟩) ⟨start, start + 18⟩

def fixedTier (name : String) (amount : Int) (start : Nat) : ExpressionNode :=
  .call .tier
    [.literal (.string name) ⟨start + 5, start + 8⟩,
      .call .fixed [.literal (.number (.ofInt amount) true) ⟨start + 16, start + 17⟩]
        ⟨start + 10, start + 18⟩]
    ⟨start, start + 19⟩

theorem headerProbe_wellFormed (start : Nat) : (headerProbe start).WellFormed := by
  simp [headerProbe, WellFormed, AllWellFormed, BillingFunction.arity]

theorem fixedTier_wellFormed {name : String} {amount : Int} {start : Nat}
    (hamount : (Double.ofInt amount).isSafeInteger = true) :
    (fixedTier name amount start).WellFormed := by
  simp [fixedTier, WellFormed, AllWellFormed, BillingFunction.arity, hamount]

/-- `tier("a", fixed(1)) * (header("x") == "1" ? 2 : 1)` -/
def discountedTier : ExpressionNode :=
  .binary .times (fixedTier "a" 1 0)
    (.conditional (headerProbe 23) (.literal (.number (.ofInt 2) true) ⟨44, 45⟩)
      (.literal (.number (.ofInt 1) true) ⟨48, 49⟩) ⟨22, 50⟩) ⟨0, 50⟩

theorem checkFixedPricing_iff_discounted :
    checkFixedPricing (js "tier(\"a\", fixed(1)) * (header(\"x\") == \"1\" ? 2 : 1)")
      discountedTier = .ok () :=
  (checkFixedPricing_iff _ discountedTier
    ⟨fixedTier_wellFormed (by decide +kernel), headerProbe_wellFormed 23,
      show (Double.ofInt 2).isSafeInteger = true by decide +kernel,
      show (Double.ofInt 1).isSafeInteger = true by decide +kernel⟩).mpr
    ⟨by decide +kernel, by decide +kernel⟩

/-- `header("x") == "1" && ... && header("x") == "1"`, with `n` conjunctions. -/
def probeChain : Nat → ExpressionNode
  | 0 => headerProbe 0
  | n + 1 =>
    .binary .and (probeChain n) (headerProbe (22 * (n + 1))) ⟨0, 22 * (n + 1) + 18⟩

theorem probeChain_depth (n : Nat) : n ≤ (probeChain n).depth := by
  induction n with
  | zero => exact Nat.zero_le _
  | succ n ih =>
    simp only [probeChain, depth]
    omega

theorem probeChain_wellFormed (n : Nat) : (probeChain n).WellFormed := by
  induction n with
  | zero => exact headerProbe_wellFormed 0
  | succ n ih => exact ⟨ih, headerProbe_wellFormed _⟩

theorem probeChain_unmarked (n : Nat) :
    BillingExpr.containsPricingMarker (probeChain n).onServer = false := by
  have hprobe : ∀ start, (headerProbe start).onServer = (headerProbe 0).onServer := by
    intro start
    rfl
  have hclear : BillingExpr.containsPricingMarker (headerProbe 0).onServer = false := by
    decide +kernel
  induction n with
  | zero => exact hclear
  | succ n ih =>
    simp only [BillingExpr.containsPricingMarker, BillingExpr.Node.findIdentifier] at ih hclear ⊢
    rw [probeChain, onServer, hprobe, BillingExpr.Node.walk, List.any_append,
      List.any_append, ih, hclear]
    rfl

/-- `header("x") == "1" && ... ? tier("a", fixed(1)) : tier("b", fixed(2))`, of 301 probes. -/
def longCondition : ExpressionNode :=
  .conditional (probeChain 300) (fixedTier "a" 1 6621) (fixedTier "b" 2 6643) ⟨0, 6662⟩

/-- The console refuses a long conjunction between two fixed prices; the server does not. -/
theorem long_condition_disagrees :
    ¬ ∀ (source : JsString) (ast : ExpressionNode), ast.WellFormed →
      Occurs (·.calls (· = .fixed)) ast →
      (checkFixedPricing source ast = .ok () ↔
        BillingExpr.validateFixedPricingTree ast.onServer = .ok ()) := by
  intro h
  have hwf : longCondition.WellFormed :=
    ⟨probeChain_wellFormed 300, fixedTier_wellFormed (by decide +kernel),
      fixedTier_wellFormed (by decide +kernel)⟩
  have htier : fixedTier "a" 1 6621 ∈ longCondition.children := by
    simp [longCondition, children]
  have hfixed : Occurs (·.calls (· = .fixed)) (fixedTier "a" 1 6621) := by
    refine .inside (List.mem_cons_of_mem _ (List.mem_singleton_self _)) (.here ?_)
    rfl
  have hserver : BillingExpr.validateFixedPricingTree longCondition.onServer = .ok () := by
    rw [longCondition, onServer, validate_conditional]
    exact ⟨probeChain_unmarked 300, by decide +kernel, by decide +kernel⟩
  have hdeep : 256 < longCondition.depth := by
    have := probeChain_depth 300
    simp only [longCondition, depth]
    omega
  have hconsole := (h [] longCondition hwf (.inside htier hfixed)).mpr hserver
  rw [checkFixedPricing_of_deep [] hdeep] at hconsole
  cases hconsole

end JulongApi.WebBillingExpr

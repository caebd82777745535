/-
What is recorded of a compiled expression.

`Mentions` says of a tree, child by child, which identifiers stand in it.  The walk over a
tree comes past exactly those, so the set of used variables of a compiled expression is
the set of its identifiers, less the two functions the package itself puts in.
-/
import JulongApi.BillingExpr

namespace JulongApi.BillingExpr

inductive Node.Mentions (name : String) : Node → Prop
  | identifier : Mentions name (.identifier name)
  | unary {op : UnaryOperator} {operand : Node} :
      Mentions name operand → Mentions name (.unary op operand)
  | left {op : BinaryOperator} {left right : Node} :
      Mentions name left → Mentions name (.binary op left right)
  | right {op : BinaryOperator} {left right : Node} :
      Mentions name right → Mentions name (.binary op left right)
  | cond {ternary : Bool} {cond exp1 exp2 : Node} :
      Mentions name cond → Mentions name (.conditional ternary cond exp1 exp2)
  | exp1 {ternary : Bool} {cond exp1 exp2 : Node} :
      Mentions name exp1 → Mentions name (.conditional ternary cond exp1 exp2)
  | exp2 {ternary : Bool} {cond exp1 exp2 : Node} :
      Mentions name exp2 → Mentions name (.conditional ternary cond exp1 exp2)
  | callee {callee : Node} {arguments : List Node} :
      Mentions name callee → Mentions name (.call callee arguments)
  | argument {callee node : Node} {arguments : List Node} :
      node ∈ arguments → Mentions name node → Mentions name (.call callee arguments)
  | builtin {function : String} {node : Node} {arguments : List Node} :
      node ∈ arguments → Mentions name node → Mentions name (.builtin function arguments)
  | other {kind : String} {node : Node} {children : List Node} :
      node ∈ children → Mentions name node → Mentions name (.other kind children)

theorem Node.mem_walkAll {x : Node} : ∀ {nodes : List Node},
    x ∈ Node.walkAll nodes ↔ ∃ node ∈ nodes, x ∈ node.walk := by
  intro nodes
  induction nodes with
  | nil => simp [Node.walkAll]
  | cons node rest ih => simp [Node.walkAll, ih]

variable {name : String} {node : Node} {lib : ExprLib}

theorem Node.Mentions.mem_walk (h : node.Mentions name) : .identifier name ∈ node.walk := by
  induction h with
  | identifier => simp [Node.walk]
  | unary _ ih => simp [Node.walk, ih]
  | left _ ih => simp [Node.walk, ih]
  | right _ ih => simp [Node.walk, ih]
  | cond _ ih => simp [Node.walk, ih]
  | exp1 _ ih => simp [Node.walk, ih]
  | exp2 _ ih => simp [Node.walk, ih]
  | callee _ ih => simp [Node.walk, ih]
  | argument hmem _ ih =>
    have hall : Node.identifier name ∈ Node.walkAll _ := Node.mem_walkAll.mpr ⟨_, hmem, ih⟩
    simp [Node.walk, hall]
  | builtin hmem _ ih =>
    have hall : Node.identifier name ∈ Node.walkAll _ := Node.mem_walkAll.mpr ⟨_, hmem, ih⟩
    simp [Node.walk, hall]
  | other hmem _ ih =>
    have hall : Node.identifier name ∈ Node.walkAll _ := Node.mem_walkAll.mpr ⟨_, hmem, ih⟩
    simp [Node.walk, hall]

mutual

theorem Node.mentions_of_mem_walk {name : String} : ∀ {node : Node},
    .identifier name ∈ node.walk → node.Mentions name
  | .nil, h => by simp [Node.walk] at h
  | .identifier value, h => by
      have hvalue : name = value := by simpa [Node.walk] using h
      exact hvalue ▸ .identifier
  | .integer _, h => by simp [Node.walk] at h
  | .float _, h => by simp [Node.walk] at h
  | .bool _, h => by simp [Node.walk] at h
  | .string _, h => by simp [Node.walk] at h
  | .unary _ operand, h => by
      have hop : .identifier name ∈ operand.walk := by simpa [Node.walk] using h
      exact .unary (Node.mentions_of_mem_walk hop)
  | .binary _ left right, h => by
      have hsides : .identifier name ∈ left.walk ∨ .identifier name ∈ right.walk := by
        simpa [Node.walk] using h
      rcases hsides with hleft | hright
      · exact .left (Node.mentions_of_mem_walk hleft)
      · exact .right (Node.mentions_of_mem_walk hright)
  | .conditional _ cond exp1 exp2, h => by
      have hparts : .identifier name ∈ cond.walk ∨ .identifier name ∈ exp1.walk ∨
          .identifier name ∈ exp2.walk := by
        simpa [Node.walk] using h
      rcases hparts with hcond | hexp1 | hexp2
      · exact .cond (Node.mentions_of_mem_walk hcond)
      · exact .exp1 (Node.mentions_of_mem_walk hexp1)
      · exact .exp2 (Node.mentions_of_mem_walk hexp2)
  | .call callee arguments, h => by
      have hparts : .identifier name ∈ callee.walk ∨
          .identifier name ∈ Node.walkAll arguments := by
        simpa [Node.walk] using h
      rcases hparts with hcallee | harguments
      · exact .callee (Node.mentions_of_mem_walk hcallee)
      · obtain ⟨node, hmem, hnode⟩ := Node.mentions_of_mem_walkAll harguments
        exact .argument hmem hnode
  | .builtin _ arguments, h => by
      have harguments : .identifier name ∈ Node.walkAll arguments := by
        simpa [Node.walk] using h
      obtain ⟨node, hmem, hnode⟩ := Node.mentions_of_mem_walkAll harguments
      exact .builtin hmem hnode
  | .other _ children, h => by
      have hchildren : .identifier name ∈ Node.walkAll children := by
        simpa [Node.walk] using h
      obtain ⟨node, hmem, hnode⟩ := Node.mentions_of_mem_walkAll hchildren
      exact .other hmem hnode

theorem Node.mentions_of_mem_walkAll {name : String} : ∀ {nodes : List Node},
    .identifier name ∈ Node.walkAll nodes → ∃ node ∈ nodes, node.Mentions name
  | [], h => by simp [Node.walkAll] at h
  | node :: rest, h => by
      rcases List.mem_append.mp (by simpa [Node.walkAll] using h :
        .identifier name ∈ node.walk ++ Node.walkAll rest) with hnode | hrest
      · exact ⟨node, by simp, Node.mentions_of_mem_walk hnode⟩
      · obtain ⟨other, hmem, hother⟩ := Node.mentions_of_mem_walkAll hrest
        exact ⟨other, List.mem_cons_of_mem _ hmem, hother⟩

end

/-- **The used variables are the identifiers of the program.** -/
theorem mem_extractUsedVars {prog : Node} :
    name ∈ extractUsedVars prog ↔ prog.Mentions name ∧
      name ∉ [requestRuleTraceFunction, requestRuleTraceIntFunction] := by
  unfold extractUsedVars
  rw [List.mem_filterMap]
  constructor
  · rintro ⟨part, hpart, hname⟩
    cases part with
    | identifier value =>
      by_cases htrace : value ∈ [requestRuleTraceFunction, requestRuleTraceIntFunction]
      · simp [htrace] at hname
      · have hvalue : value = name := by simpa [htrace] using hname
        subst hvalue
        exact ⟨Node.mentions_of_mem_walk hpart, htrace⟩
    | _ => simp at hname
  · rintro ⟨hname, htrace⟩
    exact ⟨.identifier name, hname.mem_walk, by simp [htrace]⟩

/-! ### Compiled entries -/

variable {entry : CachedEntry}

theorem compileProgram_usedVars {version : Nat} {body : String} {fixedPricing : Bool}
    (h : compileProgram lib version body fixedPricing = .ok entry) :
    entry.usedVars = extractUsedVars entry.prog := by
  unfold compileProgram at h
  split at h
  · cases h
  · dsimp only at h
    split at h
    · cases h
    · split at h
      · cases h
      · cases h
        rfl

theorem compileEntry_usedVars {exprStr : String} (h : compileEntry lib exprStr = .ok entry) :
    entry.usedVars = extractUsedVars entry.prog := by
  unfold compileEntry at h
  dsimp only at h
  split at h
  · cases h
  · split at h
    · split at h
      · cases h
      · exact compileProgram_usedVars h
    · exact compileProgram_usedVars h

theorem compileEntry_empty (lib : ExprLib) : compileEntry lib "" ≠ .ok entry := by
  obtain ⟨e, he⟩ := lib.parse_empty
  have hversion : parseExprVersion "" = (defaultExprVersion, "") := rfl
  simp [compileEntry, hversion, he]

/-! ### Looking for identifiers -/

section

variable (names : List String)

def Node.findIdentifierAll (nodes : List Node) : Bool := nodes.any (·.findIdentifier names)

theorem Node.walkAll_any (nodes : List Node) (f : Node → Bool) :
    (Node.walkAll nodes).any f = nodes.any fun node => node.walk.any f := by
  induction nodes with
  | nil => rfl
  | cons node rest ih => simp [Node.walkAll, List.any_append, ih]

@[simp] theorem findIdentifier_unary (op : UnaryOperator) (operand : Node) :
    (Node.unary op operand).findIdentifier names = operand.findIdentifier names := by
  simp [Node.findIdentifier, Node.walk]

@[simp] theorem findIdentifier_binary (op : BinaryOperator) (left right : Node) :
    (Node.binary op left right).findIdentifier names =
      (left.findIdentifier names || right.findIdentifier names) := by
  simp [Node.findIdentifier, Node.walk]

@[simp] theorem findIdentifier_conditional (ternary : Bool) (cond exp1 exp2 : Node) :
    (Node.conditional ternary cond exp1 exp2).findIdentifier names =
      (cond.findIdentifier names || exp1.findIdentifier names || exp2.findIdentifier names) := by
  simp [Node.findIdentifier, Node.walk, Bool.or_assoc]

@[simp] theorem findIdentifier_call (callee : Node) (arguments : List Node) :
    (Node.call callee arguments).findIdentifier names =
      (callee.findIdentifier names || Node.findIdentifierAll names arguments) := by
  simp [Node.findIdentifier, Node.findIdentifierAll, Node.walk, Node.walkAll_any]

@[simp] theorem findIdentifier_builtin (name : String) (arguments : List Node) :
    (Node.builtin name arguments).findIdentifier names =
      Node.findIdentifierAll names arguments := by
  simp [Node.findIdentifier, Node.findIdentifierAll, Node.walk, Node.walkAll_any]

@[simp] theorem findIdentifier_other (kind : String) (children : List Node) :
    (Node.other kind children).findIdentifier names =
      Node.findIdentifierAll names children := by
  simp [Node.findIdentifier, Node.findIdentifierAll, Node.walk, Node.walkAll_any]

@[simp] theorem findIdentifierAll_cons (node : Node) (rest : List Node) :
    Node.findIdentifierAll names (node :: rest) =
      (node.findIdentifier names || Node.findIdentifierAll names rest) := rfl

@[simp] theorem findIdentifierAll_nil : Node.findIdentifierAll names [] = false := rfl

@[simp] theorem findIdentifier_identifier (name : String) :
    (Node.identifier name).findIdentifier names = decide (name ∈ names) := by
  simp [Node.findIdentifier, Node.walk]

theorem findIdentifier_of_number {value : ℚ} (h : requestRuleNumber node = some value) :
    node.findIdentifier names = false := by
  cases node with
  | integer n => rfl
  | float q => rfl
  | _ => cases h

end

end JulongApi.BillingExpr

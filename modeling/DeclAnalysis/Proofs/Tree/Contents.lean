import DeclAnalysis.Proofs.Tree.Nodes

/-!
# What stands in a tree

The type references of a tree, and the local variables of an expression that are not inside
a block of it. A lambda is a body of its own: it has type references, but what it declares
is declared inside it. Of some sub-expressions the place demands a type: of conditions, of
assigned values and of initializers.
-/

namespace DeclAnalysis

/-- The type references of a list of parameters. -/
def parameterTypeRefs (ps : List Parameter) : List TypeRef :=
  ps.flatMap fun p => p.typeRef.toList

namespace Expr

mutual

/-- The type references in an expression. -/
def typeRefs : Expr → List TypeRef
  | constant .. | name .. | breakLoop _ | continueLoop _ | ret _ none => []
  | dot _ receiver _ => receiver.typeRefs
  | block _ statements => typeRefsOf statements
  | cond _ condition thenBranch none => condition.typeRefs ++ thenBranch.typeRefs
  | cond _ condition thenBranch (some elseBranch) =>
    condition.typeRefs ++ thenBranch.typeRefs ++ elseBranch.typeRefs
  | whileLoop _ condition body => condition.typeRefs ++ body.typeRefs
  | doWhileLoop _ body condition => body.typeRefs ++ condition.typeRefs
  | ret _ (some value) => value.typeRefs
  | binary _ _ left right => left.typeRefs ++ right.typeRefs
  | assign _ target value => target.typeRefs ++ value.typeRefs
  | call _ _ arguments => typeRefsOf arguments
  | localVariable _ _ _ typeRef none => typeRef.toList
  | localVariable _ _ _ typeRef (some initializer) => typeRef.toList ++ initializer.typeRefs
  | lambda _ parameters body => parameterTypeRefs parameters ++ body.typeRefs

/-- The type references in several expressions. -/
def typeRefsOf : List Expr → List TypeRef
  | [] => []
  | e :: rest => e.typeRefs ++ typeRefsOf rest

end

/-- The type references in an optional expression. -/
def optionalTypeRefs : Option Expr → List TypeRef
  | none => []
  | some e => e.typeRefs

mutual

/-- The names of the local variables that an expression declares outside of its blocks. -/
def openLocals : Expr → List String
  | constant .. | name .. | breakLoop _ | continueLoop _ | ret _ none | block .. | lambda .. => []
  | dot _ receiver _ => receiver.openLocals
  | cond _ condition thenBranch none => condition.openLocals ++ thenBranch.openLocals
  | cond _ condition thenBranch (some elseBranch) =>
    condition.openLocals ++ thenBranch.openLocals ++ elseBranch.openLocals
  | whileLoop _ condition body => condition.openLocals ++ body.openLocals
  | doWhileLoop _ body condition => body.openLocals ++ condition.openLocals
  | ret _ (some value) => value.openLocals
  | binary _ _ left right => left.openLocals ++ right.openLocals
  | assign _ target value => target.openLocals ++ value.openLocals
  | call _ _ arguments => openLocalsOf arguments
  | localVariable _ declared _ _ none => [declared]
  | localVariable _ declared _ _ (some initializer) => initializer.openLocals ++ [declared]

/-- The names of the local variables that several expressions declare outside of their
blocks. -/
def openLocalsOf : List Expr → List String
  | [] => []
  | e :: rest => e.openLocals ++ openLocalsOf rest

end

/-- The node of an expression of whose type something is demanded. A `return` hands no value to
its place, and so it is never of the wrong type. -/
def demand : Expr → List Nat
  | ret .. => []
  | e => [e.id]

mutual

/-- The nodes in an expression whose places demand a type. -/
def demands : Expr → List Nat
  | constant .. | name .. | breakLoop _ | continueLoop _ | ret _ none | lambda ..
  | localVariable _ _ _ _ none => []
  | dot _ receiver _ => receiver.demands
  | block _ statements => demandsOf statements
  | cond _ condition thenBranch none =>
    (condition.demand ++ condition.demands) ++ thenBranch.demands
  | cond _ condition thenBranch (some elseBranch) =>
    (condition.demand ++ condition.demands) ++ thenBranch.demands ++ elseBranch.demands
  | whileLoop _ condition body => (condition.demand ++ condition.demands) ++ body.demands
  | doWhileLoop _ body condition => body.demands ++ (condition.demand ++ condition.demands)
  | ret _ (some value) => value.demands
  | binary _ _ left right => left.demands ++ right.demands
  | assign _ target value => target.demands ++ (value.demand ++ value.demands)
  | call _ _ arguments => demandsOf arguments
  | localVariable _ _ _ _ (some initializer) => initializer.demand ++ initializer.demands

/-- The nodes in several expressions whose places demand a type. -/
def demandsOf : List Expr → List Nat
  | [] => []
  | e :: rest => e.demands ++ demandsOf rest

end

theorem demand_subset_nodes (e : Expr) : e.demand ⊆ e.nodes := by
  intro node hnode
  cases e with
  | ret => cases hnode
  | _ =>
      obtain rfl := List.mem_singleton.mp hnode
      exact id_mem_nodes _

theorem subset_nodes_of_subset_tail {e : Expr} {inner : List Nat} (h : inner ⊆ e.nodes.tail) :
    inner ⊆ e.nodes :=
  fun _ hnode => List.mem_of_mem_tail (h hnode)

theorem demanded_subset (e : Expr) (hdemands : e.demands ⊆ e.nodes.tail) :
    e.demand ++ e.demands ⊆ e.nodes :=
  List.append_subset.mpr ⟨e.demand_subset_nodes, subset_nodes_of_subset_tail hdemands⟩

mutual

/-- No type is demanded of an expression by itself. -/
theorem demands_subset_tail (e : Expr) : e.demands ⊆ e.nodes.tail := by
  match e with
  | constant .. | name _ _ | breakLoop _ | continueLoop _ | ret _ none | lambda ..
  | localVariable _ _ _ _ none => exact List.nil_subset _
  | dot _ inner _ | ret _ (some inner) =>
      exact subset_nodes_of_subset_tail inner.demands_subset_tail
  | block _ inner | call _ _ inner => exact demandsOf_subset_nodesOf inner
  | cond _ condition thenBranch none | whileLoop _ condition thenBranch
  | doWhileLoop _ thenBranch condition =>
      have hcondition := condition.demanded_subset condition.demands_subset_tail
      have hbranch := subset_nodes_of_subset_tail thenBranch.demands_subset_tail
      grind [demands, nodes]
  | cond _ condition thenBranch (some elseBranch) =>
      have hcondition := condition.demanded_subset condition.demands_subset_tail
      have hthen := subset_nodes_of_subset_tail thenBranch.demands_subset_tail
      have helse := subset_nodes_of_subset_tail elseBranch.demands_subset_tail
      grind [demands, nodes]
  | binary _ _ left right =>
      have hleft := subset_nodes_of_subset_tail left.demands_subset_tail
      have hright := subset_nodes_of_subset_tail right.demands_subset_tail
      grind [demands, nodes]
  | assign _ target value =>
      have htarget := subset_nodes_of_subset_tail target.demands_subset_tail
      have hvalue := value.demanded_subset value.demands_subset_tail
      grind [demands, nodes]
  | localVariable _ _ _ _ (some initializer) =>
      have hinitializer := initializer.demanded_subset initializer.demands_subset_tail
      grind [demands, nodes]

theorem demandsOf_subset_nodesOf (es : List Expr) : demandsOf es ⊆ nodesOf es := by
  match es with
  | [] => exact List.nil_subset _
  | e :: rest =>
      have hfirst := subset_nodes_of_subset_tail e.demands_subset_tail
      exact List.append_subset.mpr ⟨List.subset_append_of_subset_left _ hfirst,
        List.subset_append_of_subset_right _ (demandsOf_subset_nodesOf rest)⟩

end

theorem demands_subset_nodes (e : Expr) : e.demands ⊆ e.nodes :=
  subset_nodes_of_subset_tail e.demands_subset_tail

end Expr

namespace DelegationSpecifier

/-- The type references in an entry of a delegation list. -/
def typeRefs : DelegationSpecifier → List TypeRef
  | byExpression _ typeRef delegate => typeRef :: Expr.optionalTypeRefs delegate
  | superCall _ typeRef arguments => typeRef.toList ++ Expr.typeRefsOf arguments
  | superClass _ typeRef => [typeRef]
  | thisCall _ arguments => Expr.typeRefsOf arguments

/-- The names of the local variables that the expressions of an entry declare outside of their
blocks. -/
def openLocals : DelegationSpecifier → List String
  | byExpression _ _ none | superClass .. => []
  | byExpression _ _ (some delegate) => delegate.openLocals
  | superCall _ _ arguments | thisCall _ arguments => Expr.openLocalsOf arguments

end DelegationSpecifier

/-- The type references of an accessor. -/
def Accessor.typeRefs (a : Accessor) : List TypeRef :=
  parameterTypeRefs a.parameter.toList ++ a.returnType.toList ++ Expr.optionalTypeRefs a.body

/-- The type references of a property. -/
def PropertyDecl.typeRefs (p : PropertyDecl) : List TypeRef :=
  p.typeRef.toList ++ Expr.optionalTypeRefs p.initializer
    ++ p.getter.toList.flatMap Accessor.typeRefs ++ p.setter.toList.flatMap Accessor.typeRefs

/-- The type references of a function. -/
def FunctionDecl.typeRefs (f : FunctionDecl) : List TypeRef :=
  parameterTypeRefs f.parameters ++ f.returnType.toList ++ Expr.optionalTypeRefs f.body

/-- The type references of a secondary constructor. -/
def ConstructorDecl.typeRefs (c : ConstructorDecl) : List TypeRef :=
  parameterTypeRefs c.parameters ++ c.initializers.flatMap DelegationSpecifier.typeRefs
    ++ Expr.optionalTypeRefs c.body

end DeclAnalysis

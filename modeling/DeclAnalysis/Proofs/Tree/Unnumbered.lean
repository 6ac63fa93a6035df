import DeclAnalysis.Tree.SourceFile

/-!
# Trees without numbers

The number of every node can be taken away from a tree. What numbering a tree leads to does not
depend on the numbers that it carried before, so it is the same for the tree without them.
-/

namespace DeclAnalysis

/-! ## Trees of which all numbers are zero -/

namespace TypeRef

/-- The type reference without its number. -/
def unnumbered (t : TypeRef) : TypeRef := { t with id := 0 }

end TypeRef

namespace Parameter

/-- The parameter without the numbers of its nodes. -/
def unnumbered (p : Parameter) : Parameter :=
  { p with id := 0, typeRef := p.typeRef.map TypeRef.unnumbered }

end Parameter

namespace Expr

mutual

/-- The expression without the numbers of its nodes. -/
def unnumbered : Expr → Expr
  | constant _ value => constant 0 value
  | name _ text => name 0 text
  | dot _ receiver text => dot 0 receiver.unnumbered text
  | block _ statements => block 0 (unnumberedAll statements)
  | cond _ condition thenBranch none => cond 0 condition.unnumbered thenBranch.unnumbered none
  | cond _ condition thenBranch (some elseBranch) =>
    cond 0 condition.unnumbered thenBranch.unnumbered (some elseBranch.unnumbered)
  | whileLoop _ condition body => whileLoop 0 condition.unnumbered body.unnumbered
  | doWhileLoop _ body condition => doWhileLoop 0 body.unnumbered condition.unnumbered
  | breakLoop _ => breakLoop 0
  | continueLoop _ => continueLoop 0
  | ret _ none => ret 0 none
  | ret _ (some value) => ret 0 (some value.unnumbered)
  | binary _ operator left right => binary 0 operator left.unnumbered right.unnumbered
  | assign _ target value => assign 0 target.unnumbered value.unnumbered
  | call _ callee arguments => call 0 callee (unnumberedAll arguments)
  | localVariable _ text mutable typeRef none =>
    localVariable 0 text mutable (typeRef.map TypeRef.unnumbered) none
  | localVariable _ text mutable typeRef (some initializer) =>
    localVariable 0 text mutable (typeRef.map TypeRef.unnumbered) (some initializer.unnumbered)
  | lambda _ parameters body => lambda 0 (parameters.map Parameter.unnumbered) body.unnumbered

/-- The expressions without the numbers of their nodes. -/
def unnumberedAll : List Expr → List Expr
  | [] => []
  | e :: rest => e.unnumbered :: unnumberedAll rest

end

theorem unnumberedAll_eq_map (es : List Expr) : unnumberedAll es = es.map unnumbered := by
  induction es with
  | nil => rfl
  | cons e rest ih => rw [unnumberedAll, ih, List.map_cons]

theorem unnumbered_cond (id : Nat) (condition thenBranch : Expr) (elseBranch : Option Expr) :
    (cond id condition thenBranch elseBranch).unnumbered =
      cond 0 condition.unnumbered thenBranch.unnumbered (elseBranch.map unnumbered) := by
  cases elseBranch <;> rw [unnumbered] <;> rfl

theorem unnumbered_ret (id : Nat) (value : Option Expr) :
    (ret id value).unnumbered = ret 0 (value.map unnumbered) := by
  cases value <;> rw [unnumbered] <;> rfl

theorem unnumbered_localVariable
    (id : Nat) (text : String) (mutable : Bool) (typeRef : Option TypeRef)
    (initializer : Option Expr) :
    (localVariable id text mutable typeRef initializer).unnumbered =
      localVariable 0 text mutable (typeRef.map TypeRef.unnumbered)
        (initializer.map unnumbered) := by
  cases initializer <;> rw [unnumbered] <;> rfl

end Expr

namespace ImportDirective

/-- The import directive without the numbers of its nodes. -/
def unnumbered (i : ImportDirective) : ImportDirective :=
  { i with id := 0, imported := i.imported.map Expr.unnumbered }

end ImportDirective

namespace DelegationSpecifier

/-- The delegation specifier without the numbers of its nodes. -/
def unnumbered : DelegationSpecifier → DelegationSpecifier
  | byExpression _ typeRef delegate =>
    byExpression 0 typeRef.unnumbered (delegate.map Expr.unnumbered)
  | superCall _ typeRef arguments =>
    superCall 0 (typeRef.map TypeRef.unnumbered) (arguments.map Expr.unnumbered)
  | superClass _ typeRef => superClass 0 typeRef.unnumbered
  | thisCall _ arguments => thisCall 0 (arguments.map Expr.unnumbered)

end DelegationSpecifier

namespace NamespaceHead

/-- The head of a namespace without the numbers of its nodes. -/
def unnumbered (h : NamespaceHead) : NamespaceHead :=
  { h with id := 0, imports := h.imports.map ImportDirective.unnumbered }

end NamespaceHead

namespace ClassHead

/-- The head of a class without the numbers of its nodes. -/
def unnumbered (h : ClassHead) : ClassHead :=
  { h with
    id := 0
    primaryConstructor := h.primaryConstructor.map (List.map Parameter.unnumbered)
    delegationSpecifiers := h.delegationSpecifiers.map DelegationSpecifier.unnumbered }

end ClassHead

namespace FunctionDecl

/-- The function without the numbers of its nodes. -/
def unnumbered (f : FunctionDecl) : FunctionDecl :=
  { f with
    id := 0
    parameters := f.parameters.map Parameter.unnumbered
    returnType := f.returnType.map TypeRef.unnumbered
    body := f.body.map Expr.unnumbered }

end FunctionDecl

namespace Accessor

/-- The accessor without the numbers of its nodes. -/
def unnumbered (a : Accessor) : Accessor :=
  { a with
    id := 0
    parameter := a.parameter.map Parameter.unnumbered
    returnType := a.returnType.map TypeRef.unnumbered
    body := a.body.map Expr.unnumbered }

end Accessor

namespace PropertyDecl

/-- The property without the numbers of its nodes. -/
def unnumbered (p : PropertyDecl) : PropertyDecl :=
  { p with
    id := 0
    typeRef := p.typeRef.map TypeRef.unnumbered
    initializer := p.initializer.map Expr.unnumbered
    getter := p.getter.map Accessor.unnumbered
    setter := p.setter.map Accessor.unnumbered }

end PropertyDecl

namespace ConstructorDecl

/-- The constructor without the numbers of its nodes. -/
def unnumbered (c : ConstructorDecl) : ConstructorDecl :=
  { c with
    id := 0
    parameters := c.parameters.map Parameter.unnumbered
    initializers := c.initializers.map DelegationSpecifier.unnumbered
    body := c.body.map Expr.unnumbered }

end ConstructorDecl

namespace Declaration

mutual

/-- The declaration without the numbers of its nodes. -/
def unnumbered : Declaration → Declaration
  | namespaceDecl head members => namespaceDecl head.unnumbered (unnumberedAll members)
  | classDecl head members => classDecl head.unnumbered (unnumberedAll members)
  | typedefDecl _ name => typedefDecl 0 name
  | extensionDecl _ name => extensionDecl 0 name
  | functionDecl decl => functionDecl decl.unnumbered
  | propertyDecl decl => propertyDecl decl.unnumbered
  | constructorDecl decl => constructorDecl decl.unnumbered
  | classObject _ members => classObject 0 (unnumberedAll members)

/-- The declarations without the numbers of their nodes. -/
def unnumberedAll : List Declaration → List Declaration
  | [] => []
  | d :: rest => d.unnumbered :: unnumberedAll rest

end

theorem unnumberedAll_eq_map (ds : List Declaration) : unnumberedAll ds = ds.map unnumbered := by
  induction ds with
  | nil => rfl
  | cons d rest ih => rw [unnumberedAll, ih, List.map_cons]

end Declaration

/-! ## Numbering trees without numbers -/

@[simp] theorem TypeRef.number_unnumbered (n : Nat) (t : TypeRef) :
    t.unnumbered.number n = t.number n := rfl

@[simp] theorem TypeRef.number_comp_unnumbered (n : Nat) :
    TypeRef.number n ∘ TypeRef.unnumbered = TypeRef.number n := rfl

@[simp] theorem typeRefCount_unnumbered (t : Option TypeRef) :
    typeRefCount (t.map TypeRef.unnumbered) = typeRefCount t := by
  cases t with
  | none => rfl
  | some t => rfl

@[simp] theorem Parameter.nodeCount_unnumbered (p : Parameter) :
    p.unnumbered.nodeCount = p.nodeCount := by
  simp only [unnumbered, nodeCount, typeRefCount_unnumbered]

@[simp] theorem Parameter.number_unnumbered (n : Nat) (p : Parameter) :
    p.unnumbered.number n = p.number n := by
  simp [unnumbered, number]

@[simp] theorem Parameter.number_comp_unnumbered (n : Nat) :
    Parameter.number n ∘ Parameter.unnumbered = Parameter.number n :=
  funext (Parameter.number_unnumbered n)

@[simp] theorem parameterCount_unnumbered (ps : List Parameter) :
    parameterCount (ps.map Parameter.unnumbered) = parameterCount ps := by
  induction ps with
  | nil => rfl
  | cons p rest ih => simp [parameterCount, ih]

@[simp] theorem numberParameters_unnumbered (n : Nat) (ps : List Parameter) :
    numberParameters n (ps.map Parameter.unnumbered) = numberParameters n ps := by
  induction ps generalizing n with
  | nil => rfl
  | cons p rest ih => simp [numberParameters, ih]

namespace Expr

mutual

@[simp] theorem nodeCount_unnumbered (e : Expr) : e.unnumbered.nodeCount = e.nodeCount := by
  match e with
  | constant .. | name .. | breakLoop _ | continueLoop _ | ret _ none
  | localVariable _ _ _ _ none => simp [unnumbered, nodeCount]
  | block _ statements => simp [unnumbered, nodeCount, nodeCountOf_unnumberedAll statements]
  | call _ _ arguments => simp [unnumbered, nodeCount, nodeCountOf_unnumberedAll arguments]
  | dot _ e _ | ret _ (some e) | localVariable _ _ _ _ (some e) | lambda _ _ e =>
      simp [unnumbered, nodeCount, nodeCount_unnumbered e]
  | cond _ e e' none | whileLoop _ e e' | doWhileLoop _ e e' | binary _ _ e e' | assign _ e e' =>
      simp [unnumbered, nodeCount, nodeCount_unnumbered e, nodeCount_unnumbered e']
  | cond _ e e' (some e'') =>
      simp [unnumbered, nodeCount, nodeCount_unnumbered e, nodeCount_unnumbered e',
        nodeCount_unnumbered e'']

@[simp] theorem nodeCountOf_unnumberedAll (es : List Expr) :
    nodeCountOf (unnumberedAll es) = nodeCountOf es := by
  match es with
  | [] => rfl
  | e :: rest =>
      simp [unnumberedAll, nodeCountOf, nodeCount_unnumbered e, nodeCountOf_unnumberedAll rest]

end

mutual

/-- Numbering does not depend on the numbers that an expression carries. -/
@[simp] theorem number_unnumbered (n : Nat) (e : Expr) : e.unnumbered.number n = e.number n := by
  match e with
  | constant .. | name .. | breakLoop _ | continueLoop _ | ret _ none
  | localVariable _ _ _ _ none => simp [unnumbered, number]
  | block _ statements => simp [unnumbered, number, numberAll_unnumberedAll _ statements]
  | call _ _ arguments => simp [unnumbered, number, numberAll_unnumberedAll _ arguments]
  | dot _ e _ | ret _ (some e) | localVariable _ _ _ _ (some e) | lambda _ _ e =>
      simp [unnumbered, number, number_unnumbered _ e]
  | cond _ e e' none | whileLoop _ e e' | doWhileLoop _ e e' | binary _ _ e e' | assign _ e e' =>
      simp [unnumbered, number, number_unnumbered _ e, number_unnumbered _ e']
  | cond _ e e' (some e'') =>
      simp [unnumbered, number, number_unnumbered _ e, number_unnumbered _ e',
        number_unnumbered _ e'']

@[simp] theorem numberAll_unnumberedAll (n : Nat) (es : List Expr) :
    numberAll n (unnumberedAll es) = numberAll n es := by
  match es with
  | [] => rfl
  | e :: rest =>
      simp [unnumberedAll, numberAll, number_unnumbered _ e, numberAll_unnumberedAll _ rest]

end

@[simp] theorem nodeCountOf_map_unnumbered (es : List Expr) :
    nodeCountOf (es.map unnumbered) = nodeCountOf es := by
  rw [← unnumberedAll_eq_map, nodeCountOf_unnumberedAll]

@[simp] theorem numberAll_map_unnumbered (n : Nat) (es : List Expr) :
    numberAll n (es.map unnumbered) = numberAll n es := by
  rw [← unnumberedAll_eq_map, numberAll_unnumberedAll]

@[simp] theorem optionalCount_unnumbered (e : Option Expr) :
    optionalCount (e.map unnumbered) = optionalCount e := by
  cases e with
  | none => rfl
  | some e => exact nodeCount_unnumbered e

@[simp] theorem number_comp_unnumbered (n : Nat) : number n ∘ unnumbered = number n :=
  funext (number_unnumbered n)

end Expr

namespace ImportDirective

@[simp] theorem nodeCountOf_unnumbered (is : List ImportDirective) :
    nodeCountOf (is.map unnumbered) = nodeCountOf is := by
  induction is with
  | nil => rfl
  | cons i rest ih => simp [nodeCountOf, nodeCount, unnumbered, ih]

@[simp] theorem numberAll_unnumbered (n : Nat) (is : List ImportDirective) :
    numberAll n (is.map unnumbered) = numberAll n is := by
  induction is generalizing n with
  | nil => rfl
  | cons i rest ih => simp [numberAll, number, nodeCount, unnumbered, ih]

end ImportDirective

namespace DelegationSpecifier

@[simp] theorem nodeCount_unnumbered (s : DelegationSpecifier) :
    s.unnumbered.nodeCount = s.nodeCount := by
  cases s with
  | _ => simp [unnumbered, nodeCount]

@[simp] theorem number_unnumbered (n : Nat) (s : DelegationSpecifier) :
    s.unnumbered.number n = s.number n := by
  cases s with
  | _ => simp [unnumbered, number]

@[simp] theorem nodeCountOf_unnumbered (ss : List DelegationSpecifier) :
    nodeCountOf (ss.map unnumbered) = nodeCountOf ss := by
  induction ss with
  | nil => rfl
  | cons s rest ih => simp [nodeCountOf, ih]

@[simp] theorem numberAll_unnumbered (n : Nat) (ss : List DelegationSpecifier) :
    numberAll n (ss.map unnumbered) = numberAll n ss := by
  induction ss generalizing n with
  | nil => rfl
  | cons s rest ih => simp [numberAll, ih]

end DelegationSpecifier

namespace Accessor

@[simp] theorem optionalParameterCount_unnumbered (p : Option Parameter) :
    optionalParameterCount (p.map Parameter.unnumbered) = optionalParameterCount p := by
  cases p with
  | none => rfl
  | some p => exact p.nodeCount_unnumbered

@[simp] theorem optionalCount_unnumbered (a : Option Accessor) :
    optionalCount (a.map unnumbered) = optionalCount a := by
  cases a with
  | none => rfl
  | some a => simp [optionalCount, nodeCount, unnumbered]

@[simp] theorem number_comp_unnumbered (n : Nat) : number n ∘ unnumbered = number n := by
  funext a
  simp [number, unnumbered]

end Accessor

namespace ClassHead

theorem primaryCount_unnumbered (h : ClassHead) : h.unnumbered.primaryCount = h.primaryCount := by
  unfold primaryCount unnumbered
  cases h.primaryConstructor with
  | none => rfl
  | some ps => exact parameterCount_unnumbered ps

theorem nodeCount_unnumbered (h : ClassHead) : h.unnumbered.nodeCount = h.nodeCount := by
  rw [nodeCount, nodeCount, primaryCount_unnumbered]
  simp [unnumbered]

theorem number_unnumbered (n : Nat) (h : ClassHead) : h.unnumbered.number n = h.number n := by
  have hparameters : ∀ n, numberParameters n ∘ List.map Parameter.unnumbered = numberParameters n :=
    fun n => funext (numberParameters_unnumbered n)
  rw [number, number, primaryCount_unnumbered]
  simp [unnumbered, hparameters]

end ClassHead

namespace Declaration

mutual

theorem nodeCount_unnumbered (d : Declaration) : d.unnumbered.nodeCount = d.nodeCount := by
  match d with
  | namespaceDecl head members =>
      simp [unnumbered, nodeCount, NamespaceHead.nodeCount, NamespaceHead.unnumbered,
        nodeCountOf_unnumberedAll members]
  | classDecl head members =>
      simp [unnumbered, nodeCount, head.nodeCount_unnumbered, nodeCountOf_unnumberedAll members]
  | typedefDecl .. | extensionDecl .. => rfl
  | functionDecl decl =>
      simp [unnumbered, nodeCount, FunctionDecl.nodeCount, FunctionDecl.unnumbered]
  | propertyDecl decl =>
      simp [unnumbered, nodeCount, PropertyDecl.nodeCount, PropertyDecl.unnumbered]
  | constructorDecl decl =>
      simp [unnumbered, nodeCount, ConstructorDecl.nodeCount, ConstructorDecl.unnumbered]
  | classObject _ members => simp [unnumbered, nodeCount, nodeCountOf_unnumberedAll members]

theorem nodeCountOf_unnumberedAll (ds : List Declaration) :
    nodeCountOf (unnumberedAll ds) = nodeCountOf ds := by
  match ds with
  | [] => rfl
  | d :: rest =>
      simp [unnumberedAll, nodeCountOf, nodeCount_unnumbered d, nodeCountOf_unnumberedAll rest]

end

mutual

/-- Numbering does not depend on the numbers that a declaration carries. -/
theorem number_unnumbered (n : Nat) (d : Declaration) : d.unnumbered.number n = d.number n := by
  match d with
  | namespaceDecl head members =>
      simp [unnumbered, number, NamespaceHead.number, NamespaceHead.nodeCount,
        NamespaceHead.unnumbered, numberAll_unnumberedAll _ members]
  | classDecl head members =>
      simp [unnumbered, number, head.nodeCount_unnumbered, head.number_unnumbered,
        numberAll_unnumberedAll _ members]
  | typedefDecl .. | extensionDecl .. => rfl
  | functionDecl decl => simp [unnumbered, number, FunctionDecl.number, FunctionDecl.unnumbered]
  | propertyDecl decl => simp [unnumbered, number, PropertyDecl.number, PropertyDecl.unnumbered]
  | constructorDecl decl =>
      simp [unnumbered, number, ConstructorDecl.number, ConstructorDecl.unnumbered]
  | classObject _ members => simp [unnumbered, number, numberAll_unnumberedAll _ members]

theorem numberAll_unnumberedAll (n : Nat) (ds : List Declaration) :
    numberAll n (unnumberedAll ds) = numberAll n ds := by
  match ds with
  | [] => rfl
  | d :: rest =>
      simp [unnumberedAll, numberAll, number_unnumbered _ d, nodeCount_unnumbered d,
        numberAll_unnumberedAll _ rest]

end

end Declaration

/-! ## What numbering keeps -/

@[simp] theorem TypeRef.unnumbered_number (n : Nat) (t : TypeRef) :
    (t.number n).unnumbered = t.unnumbered := rfl

@[simp] theorem TypeRef.unnumbered_comp_number (n : Nat) :
    TypeRef.unnumbered ∘ TypeRef.number n = TypeRef.unnumbered := rfl

@[simp] theorem Parameter.unnumbered_number (n : Nat) (p : Parameter) :
    (p.number n).unnumbered = p.unnumbered := by
  simp [unnumbered, number]

@[simp] theorem Parameter.unnumbered_comp_number (n : Nat) :
    Parameter.unnumbered ∘ Parameter.number n = Parameter.unnumbered :=
  funext (Parameter.unnumbered_number n)

@[simp] theorem map_unnumbered_numberParameters (n : Nat) (ps : List Parameter) :
    (numberParameters n ps).map Parameter.unnumbered = ps.map Parameter.unnumbered := by
  induction ps generalizing n with
  | nil => rfl
  | cons p rest ih => simp [numberParameters, ih]

namespace Expr

mutual

/-- Numbering changes nothing but the numbers of an expression. -/
@[simp] theorem unnumbered_number (n : Nat) (e : Expr) :
    (e.number n).unnumbered = e.unnumbered := by
  match e with
  | constant .. | name .. | breakLoop _ | continueLoop _ | ret _ none
  | localVariable _ _ _ _ none => simp [number, unnumbered]
  | block _ statements => simp [number, unnumbered, unnumberedAll_numberAll _ statements]
  | call _ _ arguments => simp [number, unnumbered, unnumberedAll_numberAll _ arguments]
  | dot _ e _ | ret _ (some e) | localVariable _ _ _ _ (some e) | lambda _ _ e =>
      simp [number, unnumbered, unnumbered_number _ e]
  | cond _ e e' none | whileLoop _ e e' | doWhileLoop _ e e' | binary _ _ e e' | assign _ e e' =>
      simp [number, unnumbered, unnumbered_number _ e, unnumbered_number _ e']
  | cond _ e e' (some e'') =>
      simp [number, unnumbered, unnumbered_number _ e, unnumbered_number _ e',
        unnumbered_number _ e'']

@[simp] theorem unnumberedAll_numberAll (n : Nat) (es : List Expr) :
    unnumberedAll (numberAll n es) = unnumberedAll es := by
  match es with
  | [] => rfl
  | e :: rest =>
      simp [numberAll, unnumberedAll, unnumbered_number _ e, unnumberedAll_numberAll _ rest]

end

@[simp] theorem map_unnumbered_numberAll (n : Nat) (es : List Expr) :
    (numberAll n es).map unnumbered = es.map unnumbered := by
  rw [← unnumberedAll_eq_map, unnumberedAll_numberAll, unnumberedAll_eq_map]

@[simp] theorem unnumbered_comp_number (n : Nat) : unnumbered ∘ number n = unnumbered :=
  funext (unnumbered_number n)

end Expr

@[simp] theorem ImportDirective.map_unnumbered_numberAll (n : Nat) (is : List ImportDirective) :
    (numberAll n is).map unnumbered = is.map unnumbered := by
  induction is generalizing n with
  | nil => rfl
  | cons i rest ih => simp [numberAll, number, unnumbered, ih]

@[simp] theorem DelegationSpecifier.map_unnumbered_numberAll
    (n : Nat) (ss : List DelegationSpecifier) :
    (numberAll n ss).map unnumbered = ss.map unnumbered := by
  induction ss generalizing n with
  | nil => rfl
  | cons s rest ih => cases s <;> simp [numberAll, number, unnumbered, ih]

@[simp] theorem Accessor.unnumbered_comp_number (n : Nat) :
    unnumbered ∘ number n = unnumbered := by
  funext a
  simp [number, unnumbered]

theorem ClassHead.unnumbered_number (n : Nat) (h : ClassHead) :
    (h.number n).unnumbered = h.unnumbered := by
  have hparameters : ∀ n, List.map Parameter.unnumbered ∘ numberParameters n =
      List.map Parameter.unnumbered :=
    fun n => funext (map_unnumbered_numberParameters n)
  simp [number, unnumbered, hparameters]

namespace Declaration

mutual

/-- Numbering changes nothing but the numbers of a declaration. -/
theorem unnumbered_number (n : Nat) (d : Declaration) : (d.number n).unnumbered = d.unnumbered := by
  match d with
  | namespaceDecl head members =>
      simp [number, unnumbered, NamespaceHead.number, NamespaceHead.unnumbered,
        unnumberedAll_numberAll _ members]
  | classDecl head members =>
      simp [number, unnumbered, head.unnumbered_number, unnumberedAll_numberAll _ members]
  | typedefDecl .. | extensionDecl .. => rfl
  | functionDecl decl => simp [number, unnumbered, FunctionDecl.number, FunctionDecl.unnumbered]
  | propertyDecl decl => simp [number, unnumbered, PropertyDecl.number, PropertyDecl.unnumbered]
  | constructorDecl decl =>
      simp [number, unnumbered, ConstructorDecl.number, ConstructorDecl.unnumbered]
  | classObject _ members => simp [number, unnumbered, unnumberedAll_numberAll _ members]

theorem unnumberedAll_numberAll (n : Nat) (ds : List Declaration) :
    unnumberedAll (numberAll n ds) = unnumberedAll ds := by
  match ds with
  | [] => rfl
  | d :: rest =>
      simp [numberAll, unnumberedAll, unnumbered_number _ d, unnumberedAll_numberAll _ rest]

end

end Declaration

namespace SourceFile

/-- A file has the declarations that it is made of, but for their numbers. -/
theorem map_unnumbered_ofDeclarations (name : String) (ds : List Declaration) :
    (ofDeclarations name ds).declarations.map Declaration.unnumbered =
      ds.map Declaration.unnumbered := by
  rw [← Declaration.unnumberedAll_eq_map, ← Declaration.unnumberedAll_eq_map]
  exact Declaration.unnumberedAll_numberAll 1 ds

/-- The file of some declarations does not depend on the numbers that they carry. -/
theorem ofDeclarations_unnumbered (name : String) (ds : List Declaration) :
    ofDeclarations name (ds.map Declaration.unnumbered) = ofDeclarations name ds := by
  unfold ofDeclarations
  rw [← Declaration.unnumberedAll_eq_map, Declaration.numberAll_unnumberedAll]

end SourceFile

end DeclAnalysis

import DeclAnalysis.Proofs.Tree.Bodies
import DeclAnalysis.Proofs.Tree.Records
import DeclAnalysis.Proofs.Tree.Unnumbered

/-!
# Trees survive their interchange format

Every tree is read back, but for the numbers of its nodes, from the JSON value that is written for
it. Numbering makes up for the missing numbers, so the file that is read is the file of the tree.
-/

namespace DeclAnalysis

open Schema

variable (brief : Bool)

theorem provides_name {name : String} (text? : Option String) :
    Provides (.optional name .text) (text?.map Json.string) text? := by
  cases text? <;> rfl

/-! ## Expressions -/

theorem TypeRef.reads (t : TypeRef) : Reads t.toJson .one .typeRef t.unnumbered :=
  typeRef.ofLayer_record (t.name, ()) (by decide) (by simp) ⟨rfl, trivial⟩

theorem Parameter.reads (p : Parameter) : Reads (p.toJson brief) .one .parameter p.unnumbered :=
  parameter.ofLayer_record (p.name, p.typeRef.map TypeRef.unnumbered, p.mutable, ()) (by decide)
    (by simp) ⟨rfl, provides_optional fun t _ => t.reads, provides_flag brief _, trivial⟩

/-- Of an integer constant, only 64 bits are read. -/
def Literal.Bounded : Literal → Prop
  | int value => -maxInteger - 1 ≤ value ∧ value ≤ maxInteger
  | _ => True

theorem Literal.reads {l : Literal} (h : l.Bounded) : Reads l.toJson .one .literal l := by
  cases l with
  | int value =>
      show Except.map Literal.int (if value ≤ maxInteger then _ else _) = _
      rw [if_pos h.2]
      rfl
  | _ => rfl

theorem BinaryOperator.reads (operator : BinaryOperator) :
    Reads operator.toJson .one .operator operator := by
  cases operator <;> rfl

namespace Expr

/-- All integer constants in an expression have 64 bits. -/
def Bounded (e : Expr) : Prop :=
  ∀ id literal, constant id literal ∈ e.subexpressions → literal.Bounded

theorem Bounded.child {e c : Expr} (h : e.Bounded) (hc : c ∈ e.children) : c.Bounded :=
  fun id literal hmem => h id literal (mem_subexpressions_iff.mpr (Or.inr ⟨c, hc, hmem⟩))

/-- An expression is read from the record of one of the kinds of expressions. -/
theorem reads_record
    {fields : List (String × Option Json)} (v : Variant Expr) (values : Values v.fields)
    (hv : exprs.find? (·.tag = v.tag) = some v)
    (hfields : (tagField :: v.fields.map Field.name).Nodup)
    (hnames : (fields.map Prod.fst).Nodup)
    (hkind : fields.lookup tagField = some (some (.string v.tag)))
    (h : ProvidesAll fields v.fields values) :
    Reads (Json.record fields) .one .expr (v.build values) :=
  readTagged_record true "" v values hv hfields hnames hkind h

theorem reads {e : Expr} (h : e.Bounded) : Reads (e.toJson brief) .one .expr e.unnumbered := by
  induction e using induction_children with
  | _ e ih =>
    have hchild : ∀ c ∈ e.children, Reads (c.toJson brief) .one .expr c.unnumbered :=
      fun c hc => ih c hc (h.child hc)
    clear ih
    cases e with
    | constant id value =>
        have hvalue := value.reads (h id value (self_mem_subexpressions _))
        exact reads_record exprs[0] (value, ()) rfl (by decide) (by simp) rfl ⟨hvalue, trivial⟩
    | name id text =>
        exact reads_record exprs[1] (text, ()) rfl (by decide) (by simp) rfl ⟨rfl, trivial⟩
    | dot id receiver text =>
        simp only [children, List.forall_mem_singleton] at hchild
        exact reads_record exprs[2] (receiver.unnumbered, text, ()) rfl (by decide) (by simp) rfl
          ⟨hchild, rfl, trivial⟩
    | block id statements =>
        rw [toJson, unnumbered, toJsonAll_eq_map, unnumberedAll_eq_map]
        exact reads_record exprs[3] (statements.map unnumbered, ()) rfl (by decide) (by simp) rfl
          ⟨provides_many brief hchild, trivial⟩
    | cond id condition thenBranch elseBranch =>
        simp only [children, List.forall_mem_cons, Option.mem_toList] at hchild
        rw [toJson_cond, unnumbered_cond]
        exact reads_record exprs[4]
          (condition.unnumbered, thenBranch.unnumbered, elseBranch.map unnumbered, ()) rfl
          (by decide) (by simp) rfl
          ⟨hchild.1, hchild.2.1, provides_optional hchild.2.2, trivial⟩
    | whileLoop id condition body =>
        simp only [children, List.forall_mem_cons] at hchild
        exact reads_record exprs[5] (condition.unnumbered, body.unnumbered, ()) rfl (by decide)
          (by simp) rfl ⟨hchild.1, hchild.2.1, trivial⟩
    | doWhileLoop id body condition =>
        simp only [children, List.forall_mem_cons] at hchild
        exact reads_record exprs[6] (body.unnumbered, condition.unnumbered, ()) rfl (by decide)
          (by simp) rfl ⟨hchild.1, hchild.2.1, trivial⟩
    | breakLoop id => exact reads_record exprs[7] () rfl (by decide) (by simp) rfl trivial
    | continueLoop id => exact reads_record exprs[8] () rfl (by decide) (by simp) rfl trivial
    | ret id value =>
        simp only [children, Option.mem_toList] at hchild
        rw [toJson_ret, unnumbered_ret]
        exact reads_record exprs[9] (value.map unnumbered, ()) rfl (by decide) (by simp) rfl
          ⟨provides_optional hchild, trivial⟩
    | binary id operator left right =>
        simp only [children, List.forall_mem_cons] at hchild
        exact reads_record exprs[10] (operator, left.unnumbered, right.unnumbered, ()) rfl
          (by decide) (by simp) rfl ⟨operator.reads, hchild.1, hchild.2.1, trivial⟩
    | assign id target value =>
        simp only [children, List.forall_mem_cons] at hchild
        exact reads_record exprs[11] (target.unnumbered, value.unnumbered, ()) rfl (by decide)
          (by simp) rfl ⟨hchild.1, hchild.2.1, trivial⟩
    | call id callee arguments =>
        rw [toJson, unnumbered, toJsonAll_eq_map, unnumberedAll_eq_map]
        exact reads_record exprs[12] (callee, arguments.map unnumbered, ()) rfl (by decide)
          (by simp) rfl ⟨rfl, provides_many brief hchild, trivial⟩
    | localVariable id text mutable typeRef initializer =>
        simp only [children, Option.mem_toList] at hchild
        rw [toJson_localVariable, unnumbered_localVariable]
        exact reads_record exprs[13]
          (text, mutable, typeRef.map TypeRef.unnumbered, initializer.map unnumbered, ()) rfl
          (by decide) (by simp) rfl
          ⟨rfl, provides_flag brief mutable, provides_optional fun t _ => t.reads,
            provides_optional hchild, trivial⟩
    | lambda id parameters body =>
        simp only [children, List.forall_mem_singleton] at hchild
        exact reads_record exprs[14] (parameters.map Parameter.unnumbered, body.unnumbered, ()) rfl
          (by decide) (by simp) rfl
          ⟨provides_many brief fun p _ => p.reads brief, hchild, trivial⟩

end Expr

/-! ## Declarations -/

theorem ImportDirective.reads {i : ImportDirective} (h : ∀ e ∈ i.imported, e.Bounded) :
    Reads (i.toJson brief) .one .importDirective i.unnumbered :=
  importDirective.ofLayer_record
    (i.imported.map Expr.unnumbered, i.allUnder, i.absoluteInRoot, ()) (by decide) (by simp)
    ⟨provides_optional fun e he => Expr.reads brief (h e he), provides_flag brief _,
      provides_flag brief _, trivial⟩

theorem DelegationSpecifier.reads
    {s : DelegationSpecifier} (h : ∀ e ∈ s.expressions, e.Bounded) :
    Reads (s.toJson brief) .one .specifier s.unnumbered := by
  have hread : ∀ e ∈ s.expressions, Reads (e.toJson brief) .one .expr e.unnumbered :=
    fun e he => Expr.reads brief (h e he)
  cases s with
  | byExpression id typeRef delegate =>
      simp only [expressions, Option.mem_toList] at hread
      exact readTagged_record true specifierTitle specifiers[0]
        (typeRef.unnumbered, delegate.map Expr.unnumbered, ()) rfl (by decide) (by simp) rfl
        ⟨typeRef.reads, provides_optional hread, trivial⟩
  | superCall id typeRef arguments =>
      exact readTagged_record true specifierTitle specifiers[1]
        (typeRef.map TypeRef.unnumbered, arguments.map Expr.unnumbered, ()) rfl (by decide)
        (by simp) rfl
        ⟨provides_optional fun t _ => t.reads, provides_many brief hread, trivial⟩
  | superClass id typeRef =>
      exact readTagged_record true specifierTitle specifiers[2] (typeRef.unnumbered, ()) rfl
        (by decide) (by simp) rfl ⟨typeRef.reads, trivial⟩
  | thisCall id arguments =>
      exact readTagged_record true specifierTitle specifiers[3] (arguments.map Expr.unnumbered, ())
        rfl (by decide) (by simp) rfl ⟨provides_many brief hread, trivial⟩

theorem Accessor.reads {a : Accessor} (h : ∀ e ∈ a.body, e.Bounded) :
    Reads (a.toJson brief) .one .accessor a.unnumbered :=
  accessor.ofLayer_record
    (a.parameter.map Parameter.unnumbered, a.returnType.map TypeRef.unnumbered,
      a.body.map Expr.unnumbered, ())
    (by decide) (by simp)
    ⟨provides_optional fun p _ => p.reads brief, provides_optional fun t _ => t.reads,
      provides_optional fun e he => Expr.reads brief (h e he), trivial⟩

namespace Declaration

/-- The declaration is read from its JSON value, also where kinds of declarations are `indexed`. -/
def IsRead (d : Declaration) : Prop :=
  ∀ indexed,
    readTagged indexed declarationTitle declarations (layer (d.toJson brief)) = .ok d.unnumbered

variable {brief}

theorem isRead_function
    {f : FunctionDecl} (h : ∀ e ∈ f.body, e.Bounded) : (functionDecl f).IsRead brief :=
  fun indexed => readTagged_record indexed declarationTitle declarations[4]
    (f.name, f.parameters.map Parameter.unnumbered, f.returnType.map TypeRef.unnumbered,
      f.body.map Expr.unnumbered, ())
    rfl (by decide) (by simp) rfl
    ⟨rfl, provides_many brief fun p _ => p.reads brief, provides_optional fun t _ => t.reads,
      provides_optional fun e he => Expr.reads brief (h e he), trivial⟩

theorem isRead_property
    {p : PropertyDecl} (hinitializer : ∀ e ∈ p.initializer, e.Bounded)
    (hgetter : ∀ a ∈ p.getter, ∀ e ∈ a.body, e.Bounded)
    (hsetter : ∀ a ∈ p.setter, ∀ e ∈ a.body, e.Bounded) : (propertyDecl p).IsRead brief :=
  fun indexed => readTagged_record indexed declarationTitle declarations[5]
    (p.name, p.mutable, p.typeRef.map TypeRef.unnumbered, p.initializer.map Expr.unnumbered,
      p.getter.map Accessor.unnumbered, p.setter.map Accessor.unnumbered, ())
    rfl (by decide) (by simp) rfl
    ⟨rfl, provides_flag brief _, provides_optional fun t _ => t.reads,
      provides_optional fun e he => Expr.reads brief (hinitializer e he),
      provides_optional fun a ha => Accessor.reads brief (hgetter a ha),
      provides_optional fun a ha => Accessor.reads brief (hsetter a ha), trivial⟩

theorem isRead_constructor
    {c : ConstructorDecl}
    (hinitializers : ∀ s ∈ c.initializers, ∀ e ∈ s.expressions, e.Bounded)
    (hbody : ∀ e ∈ c.body, e.Bounded) : (constructorDecl c).IsRead brief :=
  fun indexed => readTagged_record indexed declarationTitle declarations[6]
    (c.parameters.map Parameter.unnumbered, c.initializers.map DelegationSpecifier.unnumbered,
      c.body.map Expr.unnumbered, ())
    rfl (by decide) (by simp) rfl
    ⟨provides_many brief fun p _ => p.reads brief,
      provides_many brief fun s hs => DelegationSpecifier.reads brief (hinitializers s hs),
      provides_optional fun e he => Expr.reads brief (hbody e he), trivial⟩

theorem isRead_namespace
    {head : NamespaceHead} {members : List Declaration}
    (himports : ∀ i ∈ head.imports, ∀ e ∈ i.imported, e.Bounded)
    (hmembers : ∀ d ∈ members, d.IsRead brief) : (namespaceDecl head members).IsRead brief := by
  intro indexed
  rw [toJson, unnumbered, toJsonAll_eq_map, unnumberedAll_eq_map]
  exact readTagged_record indexed declarationTitle declarations[0]
    (head.name, head.imports.map ImportDirective.unnumbered, members.map unnumbered, ())
    rfl (by decide) (by simp) rfl
    ⟨provides_name head.name,
      provides_many brief fun i hi => ImportDirective.reads brief (himports i hi),
      provides_many brief fun d hd => hmembers d hd true, trivial⟩

theorem isRead_class
    {head : ClassHead} {members : List Declaration}
    (hspecifiers : ∀ s ∈ head.delegationSpecifiers, ∀ e ∈ s.expressions, e.Bounded)
    (hmembers : ∀ d ∈ members, d.IsRead brief) : (classDecl head members).IsRead brief := by
  intro indexed
  rw [toJson, unnumbered, toJsonAll_eq_map, unnumberedAll_eq_map]
  exact readTagged_record indexed declarationTitle declarations[1]
    (head.name, head.primaryConstructor.map (List.map Parameter.unnumbered),
      head.delegationSpecifiers.map DelegationSpecifier.unnumbered, members.map unnumbered, ())
    rfl (by decide) (by simp) rfl
    ⟨provides_name head.name, provides_optionalMany fun ps _ p _ => p.reads brief,
      provides_many brief fun s hs => DelegationSpecifier.reads brief (hspecifiers s hs),
      provides_many brief fun d hd => hmembers d hd true, trivial⟩

theorem isRead_classObject
    {id : Nat} {members : List Declaration} (hmembers : ∀ d ∈ members, d.IsRead brief) :
    (classObject id members).IsRead brief := by
  intro indexed
  rw [toJson, unnumbered, toJsonAll_eq_map, unnumberedAll_eq_map]
  exact readTagged_record indexed declarationTitle declarations[7] (members.map unnumbered, ())
    rfl (by decide) (by simp) rfl
    ⟨provides_many brief fun d hd => hmembers d hd true, trivial⟩

mutual

/-- A declaration is read if all constants in it and in the declarations inside it are. -/
theorem isRead
    (d : Declaration) (h : ∀ x ∈ d.nested, ∀ e ∈ x.ownExpressions, e.Bounded) :
    d.IsRead brief := by
  match d with
  | namespaceDecl head members =>
      rw [nested, List.forall_mem_cons] at h
      refine isRead_namespace (fun i hi e he => h.1 e ?_) (isRead_of_mem members h.2)
      simp only [ownExpressions, List.mem_append, List.mem_flatMap, Option.mem_toList]
      exact Or.inl ⟨i, hi, he⟩
  | classDecl head members =>
      rw [nested, List.forall_mem_cons] at h
      refine isRead_class (fun s hs e he => h.1 e ?_) (isRead_of_mem members h.2)
      simp only [ownExpressions, List.mem_append, List.mem_flatMap]
      exact Or.inl ⟨s, hs, he⟩
  | classObject _ members =>
      rw [nested, List.forall_mem_cons] at h
      exact isRead_classObject (isRead_of_mem members h.2)
  | typedefDecl _ name =>
      exact fun indexed => readTagged_record indexed declarationTitle declarations[2] (name, ())
        rfl (by decide) (by simp) rfl ⟨provides_name name, trivial⟩
  | extensionDecl _ name =>
      exact fun indexed => readTagged_record indexed declarationTitle declarations[3] (name, ())
        rfl (by decide) (by simp) rfl ⟨provides_name name, trivial⟩
  | functionDecl f =>
      have hown := h _ List.mem_cons_self
      simp only [ownExpressions, List.nil_append, List.forall_mem_map] at hown
      exact isRead_function fun e he => hown _ (Body.mem_ofExpr he)
  | propertyDecl p =>
      have hown := h _ List.mem_cons_self
      simp only [ownExpressions, List.nil_append, List.forall_mem_map, ownBodies,
        PropertyDecl.bodies, List.forall_mem_append] at hown
      exact isRead_property (fun e he => hown.1.1 _ (Body.mem_ofExpr he))
        (fun a ha e he => hown.1.2 _ (Body.mem_ofAccessor (Option.mem_toList.mpr ha) he))
        fun a ha e he => hown.2 _ (Body.mem_ofAccessor (Option.mem_toList.mpr ha) he)
  | constructorDecl c =>
      have hown := h _ List.mem_cons_self
      simp only [ownExpressions, List.forall_mem_append, List.forall_mem_map,
        List.mem_flatMap] at hown
      exact isRead_constructor (fun s hs e he => hown.1 e ⟨s, hs, he⟩) fun e he =>
        hown.2 _ (Body.mem_ofExpr he)

theorem isRead_of_mem
    (ds : List Declaration) (h : ∀ x ∈ nestedIn ds, ∀ e ∈ x.ownExpressions, e.Bounded) :
    ∀ d ∈ ds, d.IsRead brief := by
  match ds with
  | [] => exact List.forall_mem_nil _
  | d :: rest =>
      rw [nestedIn, List.forall_mem_append] at h
      exact List.forall_mem_cons.mpr ⟨isRead d h.1, isRead_of_mem rest h.2⟩

end

end Declaration

/-! ## Files -/

namespace SourceFile

/-- All integer constants of some declarations have 64 bits, as every integer constant that a
program can hold has. -/
def Bounded (ds : List Declaration) : Prop :=
  ∀ id literal, Expr.constant id literal ∈ expressionsOf ds → literal.Bounded

variable {brief} {ds : List Declaration}

theorem isRead_of_bounded (h : Bounded ds) : ∀ d ∈ ds, d.IsRead brief := by
  refine Declaration.isRead_of_mem ds fun x hx e he id literal hmem => h id literal ?_
  rw [expressionsOf, Expr.subexpressionsOf_eq_flatMap, List.mem_flatMap]
  exact ⟨e, List.mem_flatMap.mpr ⟨x, hx, he⟩, hmem⟩

theorem readFile_fileToJson (h : Bounded ds) :
    readFile (Declaration.fileToJson brief ds) = .ok ("", ds.map Declaration.unnumbered) := by
  have hread : ∀ d ∈ ds, Reads (d.toJson brief) .one .topDeclaration d.unnumbered :=
    fun d hd => isRead_of_bounded h d hd false
  exact file.ofFields_present ("", ds.map Declaration.unnumbered, ()) (by decide) (by simp)
    ⟨rfl, reads_many hread, trivial⟩

/-- What is written for some declarations is a canonical value, and the file that is read from it
is the file of these declarations, with the same numbers and labels. -/
theorem ofJson_fileToJson (name : String) (brief : Bool) (ds : List Declaration) (h : Bounded ds) :
    (Declaration.fileToJson brief ds).canonical = Declaration.fileToJson brief ds ∧
      ofJson name (Declaration.fileToJson brief ds) = .ok (ofDeclarations name ds) := by
  refine ⟨Declaration.isCanonical_fileToJson brief ds, ?_⟩
  rw [ofJson, readFile_fileToJson h]
  exact congrArg Except.ok (ofDeclarations_unnumbered name ds)

/-- A class with a property and a constructor beside a namespace and a type alias. -/
def assorted : List Declaration :=
  [ .namespaceDecl ⟨7, some "shapes", [⟨8, some (.dot 9 (.name 9 "a") "b"), true, false⟩]⟩
      [.typedefDecl 3 none, .extensionDecl 3 (some "ext")],
    .classDecl
      ⟨1, some "Circle", some [⟨2, "radius", some ⟨3, "Double"⟩, true⟩],
        [.superCall 4 (some ⟨5, "Shape"⟩) [.constant 6 (.int 9223372036854775807)]]⟩
      [ .propertyDecl
          { id := 1, name := "area", mutable := true,
            initializer := some (.constant 0 (.bool true)),
            getter := some { body := some (.name 0 "$area") } },
        .constructorDecl
          { initializers := [.thisCall 0 [.constant 0 (.int (-9223372036854775808))]],
            body := some (.ret 0 none) },
        .classObject 5
          [ .functionDecl
              { id := 5, name := "unit",
                body := some (.block 2 [.constant 3 (.double (.zero true))]) } ] ] ]

theorem ofJson_fileToJson_assorted :
    Bounded assorted ∧
      (Declaration.fileToJson true assorted).canonical = Declaration.fileToJson true assorted ∧
      ofJson "shapes" (Declaration.fileToJson true assorted) =
        .ok (ofDeclarations "shapes" assorted) := by
  have h : Bounded assorted := by
    intro id literal hmem
    simp [assorted, expressionsOf, Declaration.nestedIn, Declaration.nested,
      Declaration.ownExpressions, Declaration.ownBodies, Expr.subexpressionsOf,
      Expr.subexpressions, Body.ofExpr, Body.ofAccessor, PropertyDecl.bodies,
      DelegationSpecifier.expressions] at hmem
    rcases hmem with h | h | h | h <;> obtain ⟨-, rfl⟩ := h
    all_goals simp [Literal.Bounded, maxInteger]
  exact ⟨h, ofJson_fileToJson "shapes" true assorted h⟩

end SourceFile

end DeclAnalysis

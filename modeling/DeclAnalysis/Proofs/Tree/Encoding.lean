import DeclAnalysis.Json.Value
import DeclAnalysis.Proofs.Tree.Children
import Mathlib.Data.String.Basic

/-!
# Trees as JSON values

Every tree can be written as a JSON value: a node as an object of its fields, a literal as an object
of one field, and an operator as its name. Nodes of which several kinds may stand in one place name
their kind. Fields are sorted by their names. An option that holds nothing is left out, and numbers
of nodes are not written. A `brief` value also leaves out truth values that are false and lists that
are empty.
-/

namespace DeclAnalysis

namespace Json

/-- Those of some fields that have a value. -/
def present (fields : List (String × Option Json)) : List (String × Json) :=
  fields.filterMap fun field => field.2.map (Prod.mk field.1)

/-- The object of those of some fields that have a value. -/
def record (fields : List (String × Option Json)) : Json := .object (present fields)

/-- The field in which a node names its kind. -/
def kind (name : String) : String × Option Json := ("kind", some (.string name))

/-- A field that holds a truth value. -/
def flag (brief : Bool) (name : String) (value : Bool) : String × Option Json :=
  (name, if brief && !value then none else some (.bool value))

/-- A field that holds a list. -/
def list (brief : Bool) (name : String) (items : List Json) : String × Option Json :=
  (name, if brief && items.isEmpty then none else some (.array items))

@[simp]
theorem kind_fst (name : String) : (kind name).1 = "kind" := rfl

@[simp]
theorem flag_fst (brief : Bool) (name : String) (value : Bool) :
    (flag brief name value).1 = name := rfl

@[simp]
theorem list_fst (brief : Bool) (name : String) (items : List Json) :
    (list brief name items).1 = name := rfl

end Json

open Json (record kind flag list)

variable (brief : Bool)

/-! ## Expressions -/

/-- The JSON value of a type reference. -/
def TypeRef.toJson (t : TypeRef) : Json := record [("name", some (.string t.name))]

/-- The JSON value of a parameter. -/
def Parameter.toJson (p : Parameter) : Json :=
  record [
    flag brief "mutable" p.mutable,
    ("name", some (.string p.name)),
    ("type_ref", p.typeRef.map TypeRef.toJson)]

/-- The JSON value of a literal. -/
def Literal.toJson : Literal → Json
  | int value => .object [("int", .number (.integer value))]
  | double value => .object [("double", .number (.double value))]
  | string value => .object [("string", .string value)]
  | bool value => .object [("bool", .bool value)]

/-- The JSON value of an operator. -/
def BinaryOperator.toJson : BinaryOperator → Json
  | plus => .string "plus"
  | minus => .string "minus"
  | times => .string "times"
  | div => .string "div"
  | rem => .string "rem"
  | lt => .string "lt"
  | gt => .string "gt"
  | ltEq => .string "lt_eq"
  | gtEq => .string "gt_eq"
  | eq => .string "eq"
  | notEq => .string "not_eq"
  | and => .string "and"
  | or => .string "or"

namespace Expr

mutual

/-- The JSON value of an expression. -/
def toJson : Expr → Json
  | constant _ value => record [kind "constant", ("value", some value.toJson)]
  | name _ text => record [kind "name", ("name", some (.string text))]
  | dot _ receiver text =>
    record [kind "dot", ("name", some (.string text)), ("receiver", some receiver.toJson)]
  | block _ statements =>
    record [kind "block", list brief "statements" (toJsonAll statements)]
  | cond _ condition thenBranch none =>
    record [
      ("condition", some condition.toJson), ("else_branch", none), kind "if",
      ("then_branch", some thenBranch.toJson)]
  | cond _ condition thenBranch (some elseBranch) =>
    record [
      ("condition", some condition.toJson), ("else_branch", some elseBranch.toJson), kind "if",
      ("then_branch", some thenBranch.toJson)]
  | whileLoop _ condition body =>
    record [("body", some body.toJson), ("condition", some condition.toJson), kind "while"]
  | doWhileLoop _ body condition =>
    record [("body", some body.toJson), ("condition", some condition.toJson), kind "do_while"]
  | breakLoop _ => record [kind "break"]
  | continueLoop _ => record [kind "continue"]
  | ret _ none => record [kind "return", ("value", none)]
  | ret _ (some value) => record [kind "return", ("value", some value.toJson)]
  | binary _ operator left right =>
    record [
      kind "binary", ("left", some left.toJson), ("operator", some operator.toJson),
      ("right", some right.toJson)]
  | assign _ target value =>
    record [kind "assign", ("target", some target.toJson), ("value", some value.toJson)]
  | call _ callee arguments =>
    record [
      list brief "arguments" (toJsonAll arguments), ("callee", some (.string callee)),
      kind "call"]
  | localVariable _ text mutable typeRef none =>
    record [
      ("initializer", none), kind "local_variable", flag brief "mutable" mutable,
      ("name", some (.string text)), ("type_ref", typeRef.map TypeRef.toJson)]
  | localVariable _ text mutable typeRef (some initializer) =>
    record [
      ("initializer", some initializer.toJson), kind "local_variable",
      flag brief "mutable" mutable, ("name", some (.string text)),
      ("type_ref", typeRef.map TypeRef.toJson)]
  | lambda _ parameters body =>
    record [
      ("body", some body.toJson), kind "lambda",
      list brief "parameters" (parameters.map (Parameter.toJson brief))]

/-- The JSON values of several expressions. -/
def toJsonAll : List Expr → List Json
  | [] => []
  | e :: rest => e.toJson :: toJsonAll rest

end

theorem toJsonAll_eq_map (es : List Expr) : toJsonAll brief es = es.map (toJson brief) := by
  induction es with
  | nil => rfl
  | cons e rest ih => rw [toJsonAll, ih, List.map_cons]

theorem toJson_cond (id : Nat) (condition thenBranch : Expr) (elseBranch : Option Expr) :
    (cond id condition thenBranch elseBranch).toJson brief =
      record [
        ("condition", some (condition.toJson brief)),
        ("else_branch", elseBranch.map (toJson brief)), kind "if",
        ("then_branch", some (thenBranch.toJson brief))] := by
  cases elseBranch <;> rw [toJson] <;> rfl

theorem toJson_ret (id : Nat) (value : Option Expr) :
    (ret id value).toJson brief = record [kind "return", ("value", value.map (toJson brief))] := by
  cases value <;> rw [toJson] <;> rfl

theorem toJson_localVariable
    (id : Nat) (text : String) (mutable : Bool) (typeRef : Option TypeRef)
    (initializer : Option Expr) :
    (localVariable id text mutable typeRef initializer).toJson brief =
      record [
        ("initializer", initializer.map (toJson brief)), kind "local_variable",
        flag brief "mutable" mutable, ("name", some (.string text)),
        ("type_ref", typeRef.map TypeRef.toJson)] := by
  cases initializer <;> rw [toJson] <;> rfl

end Expr

/-! ## Declarations -/

/-- The JSON value of an import directive. -/
def ImportDirective.toJson (i : ImportDirective) : Json :=
  record [
    flag brief "absolute_in_root" i.absoluteInRoot,
    flag brief "all_under" i.allUnder,
    ("imported", i.imported.map (Expr.toJson brief))]

/-- The JSON value of a delegation specifier. -/
def DelegationSpecifier.toJson : DelegationSpecifier → Json
  | byExpression _ typeRef delegate =>
    record [
      ("delegate", delegate.map (Expr.toJson brief)), kind "by_expression",
      ("type_ref", some typeRef.toJson)]
  | superCall _ typeRef arguments =>
    record [
      list brief "arguments" (arguments.map (Expr.toJson brief)), kind "super_call",
      ("type_ref", typeRef.map TypeRef.toJson)]
  | superClass _ typeRef => record [kind "super_class", ("type_ref", some typeRef.toJson)]
  | thisCall _ arguments =>
    record [list brief "arguments" (arguments.map (Expr.toJson brief)), kind "this_call"]

/-- The JSON value of an accessor. -/
def Accessor.toJson (a : Accessor) : Json :=
  record [
    ("body", a.body.map (Expr.toJson brief)),
    ("parameter", a.parameter.map (Parameter.toJson brief)),
    ("return_type", a.returnType.map TypeRef.toJson)]

/-- The JSON value of a function. -/
def FunctionDecl.toJson (f : FunctionDecl) : Json :=
  record [
    ("body", f.body.map (Expr.toJson brief)), kind "function", ("name", some (.string f.name)),
    list brief "parameters" (f.parameters.map (Parameter.toJson brief)),
    ("return_type", f.returnType.map TypeRef.toJson)]

/-- The JSON value of a property. -/
def PropertyDecl.toJson (p : PropertyDecl) : Json :=
  record [
    ("getter", p.getter.map (Accessor.toJson brief)),
    ("initializer", p.initializer.map (Expr.toJson brief)), kind "property",
    flag brief "mutable" p.mutable, ("name", some (.string p.name)),
    ("setter", p.setter.map (Accessor.toJson brief)),
    ("type_ref", p.typeRef.map TypeRef.toJson)]

/-- The JSON value of a constructor. -/
def ConstructorDecl.toJson (c : ConstructorDecl) : Json :=
  record [
    ("body", c.body.map (Expr.toJson brief)),
    list brief "initializers" (c.initializers.map (DelegationSpecifier.toJson brief)),
    kind "constructor", list brief "parameters" (c.parameters.map (Parameter.toJson brief))]

namespace Declaration

mutual

/-- The JSON value of a declaration. -/
def toJson : Declaration → Json
  | namespaceDecl head members =>
    record [
      list brief "declarations" (toJsonAll members),
      list brief "imports" (head.imports.map (ImportDirective.toJson brief)), kind "namespace",
      ("name", head.name.map Json.string)]
  | classDecl head members =>
    record [
      list brief "declarations" (toJsonAll members),
      list brief "delegation_specifiers"
        (head.delegationSpecifiers.map (DelegationSpecifier.toJson brief)),
      kind "class", ("name", head.name.map Json.string),
      ("primary_constructor",
        head.primaryConstructor.map fun ps => .array (ps.map (Parameter.toJson brief)))]
  | typedefDecl _ name => record [kind "typedef", ("name", name.map Json.string)]
  | extensionDecl _ name => record [kind "extension", ("name", name.map Json.string)]
  | functionDecl decl => decl.toJson brief
  | propertyDecl decl => decl.toJson brief
  | constructorDecl decl => decl.toJson brief
  | classObject _ members =>
    record [list brief "declarations" (toJsonAll members), kind "class_object"]

/-- The JSON values of several declarations. -/
def toJsonAll : List Declaration → List Json
  | [] => []
  | d :: rest => d.toJson :: toJsonAll rest

end

theorem toJsonAll_eq_map (ds : List Declaration) : toJsonAll brief ds = ds.map (toJson brief) := by
  induction ds with
  | nil => rfl
  | cons d rest ih => rw [toJsonAll, ih, List.map_cons]

/-- The JSON value of a file of declarations. -/
def fileToJson (ds : List Declaration) : Json :=
  record [("declarations", some (.array (ds.map (toJson brief))))]

end Declaration

/-! ## Canonical values -/

namespace Json

/-- The value is the same as the one of which the fields are sorted by name. -/
def IsCanonical (json : Json) : Prop := json.canonical = json

/-- The value that a field holds, if any, is canonical. -/
def HoldsCanonical (field : String × Option Json) : Prop :=
  ∀ value ∈ field.2, value.IsCanonical

@[simp]
theorem isCanonical_array {items : List Json} (h : ∀ item ∈ items, item.IsCanonical) :
    (array items).IsCanonical := by
  have hitems : canonicalItems items = items := by
    induction items with
    | nil => rfl
    | cons item rest ih =>
        rw [canonicalItems, h item List.mem_cons_self,
          ih fun item hitem => h item (List.mem_cons_of_mem _ hitem)]
  exact congrArg array hitems

/-- A field that comes after all others is put at the end. -/
theorem insertField_eq_append
    {name : String} {fields : List (String × Json)} (h : ∀ field ∈ fields, field.1 < name)
    (value : Json) : insertField name value fields = fields ++ [(name, value)] := by
  induction fields with
  | nil => rfl
  | cons field rest ih =>
      have hlt := h field List.mem_cons_self
      rw [insertField, if_neg (String.lt_asymm hlt), if_neg (String.ne_of_lt hlt).symm,
        ih fun field hfield => h field (List.mem_cons_of_mem _ hfield)]
      rfl

/-- Fields that are sorted by name already. -/
theorem canonicalFields_eq_append
    {fields sorted : List (String × Json)} (hvalues : ∀ field ∈ fields, field.2.IsCanonical)
    (hsorted : ((sorted ++ fields).map Prod.fst).Pairwise (· < ·)) :
    canonicalFields fields sorted = sorted ++ fields := by
  induction fields generalizing sorted with
  | nil => exact (List.append_nil sorted).symm
  | cons field rest ih =>
      rw [canonicalFields, hvalues field List.mem_cons_self]
      have hbefore : ∀ other ∈ sorted, other.1 < field.1 := by
        rw [List.map_append, List.pairwise_append] at hsorted
        exact fun other hother => hsorted.2.2 other.1 (List.mem_map_of_mem hother) field.1
          List.mem_cons_self
      have happend : sorted ++ field :: rest = sorted ++ [field] ++ rest := by simp
      rw [insertField_eq_append hbefore, happend]
      rw [happend] at hsorted
      exact ih (fun field hfield => hvalues field (List.mem_cons_of_mem _ hfield)) hsorted

theorem map_fst_present_sublist (fields : List (String × Option Json)) :
    ((present fields).map Prod.fst).Sublist (fields.map Prod.fst) := by
  induction fields with
  | nil => exact .slnil
  | cons field rest ih =>
      obtain ⟨name, value⟩ := field
      cases value with
      | none => exact ih.cons name
      | some value => exact ih.cons_cons name

theorem isCanonical_record
    {fields : List (String × Option Json)} (hsorted : (fields.map Prod.fst).Pairwise (· < ·))
    (hvalues : ∀ field ∈ fields, HoldsCanonical field) :
    (record fields).IsCanonical := by
  refine congrArg object (canonicalFields_eq_append ?_ ?_ : _ = [] ++ present fields)
  · intro field hfield
    obtain ⟨field', hfield', hvalue⟩ := List.mem_filterMap.mp hfield
    obtain ⟨value, hsome, rfl⟩ := Option.map_eq_some_iff.mp hvalue
    exact hvalues field' hfield' value hsome
  · exact hsorted.sublist (map_fst_present_sublist fields)

@[simp]
theorem isCanonical_string (text : String) : (string text).IsCanonical := rfl

@[simp]
theorem holdsCanonical_none (name : String) : HoldsCanonical (name, none) := by
  intro value hvalue
  cases hvalue

@[simp]
theorem holdsCanonical_some {name : String} {value : Json} :
    HoldsCanonical (name, some value) ↔ value.IsCanonical := by
  simp [HoldsCanonical]

@[simp]
theorem holdsCanonical_map {α : Type} {name : String} {a? : Option α} {encode : α → Json} :
    HoldsCanonical (name, a?.map encode) ↔ ∀ a ∈ a?, (encode a).IsCanonical := by
  simp [HoldsCanonical]

@[simp]
theorem holdsCanonical_kind (name : String) : HoldsCanonical (kind name) := by
  simp [kind]

@[simp]
theorem holdsCanonical_flag (name : String) (b : Bool) : HoldsCanonical (flag brief name b) := by
  rw [flag]
  split
  · exact holdsCanonical_none name
  · exact holdsCanonical_some.mpr rfl

@[simp]
theorem holdsCanonical_list
    {items : List Json} (h : ∀ item ∈ items, item.IsCanonical) (name : String) :
    HoldsCanonical (list brief name items) := by
  rw [list]
  split
  · exact holdsCanonical_none name
  · exact holdsCanonical_some.mpr (isCanonical_array h)

end Json

open Json

@[simp]
theorem TypeRef.isCanonical_toJson (t : TypeRef) : t.toJson.IsCanonical := by
  exact isCanonical_record (by simp [-String.lt_iff_ltb]) (by simp)

@[simp]
theorem Parameter.isCanonical_toJson (p : Parameter) : (p.toJson brief).IsCanonical := by
  exact isCanonical_record (by simp [-String.lt_iff_ltb]) (by simp)

@[simp]
theorem Literal.isCanonical_toJson (l : Literal) : l.toJson.IsCanonical := by
  cases l <;> rfl

@[simp]
theorem BinaryOperator.isCanonical_toJson (operator : BinaryOperator) :
    operator.toJson.IsCanonical := by
  cases operator <;> rfl

@[simp]
theorem Expr.isCanonical_toJson (e : Expr) : (e.toJson brief).IsCanonical := by
  induction e using induction_children with
  | _ e ih =>
    cases e with
    | cond id condition thenBranch elseBranch =>
        rw [toJson_cond]
        exact isCanonical_record (by simp [-String.lt_iff_ltb]) (by simp_all [children])
    | ret id value =>
        rw [toJson_ret]
        exact isCanonical_record (by simp [-String.lt_iff_ltb]) (by simp_all [children])
    | localVariable id text mutable typeRef initializer =>
        rw [toJson_localVariable]
        exact isCanonical_record (by simp [-String.lt_iff_ltb]) (by simp_all [children])
    | _ =>
        rw [toJson]
        exact isCanonical_record (by simp [-String.lt_iff_ltb]) (by simp_all [children, toJsonAll_eq_map])

@[simp]
theorem ImportDirective.isCanonical_toJson (i : ImportDirective) :
    (i.toJson brief).IsCanonical := by
  exact isCanonical_record (by simp [-String.lt_iff_ltb]) (by simp)

@[simp]
theorem DelegationSpecifier.isCanonical_toJson (s : DelegationSpecifier) :
    (s.toJson brief).IsCanonical := by
  cases s <;> exact isCanonical_record (by simp [-String.lt_iff_ltb]) (by simp)

@[simp]
theorem Accessor.isCanonical_toJson (a : Accessor) : (a.toJson brief).IsCanonical := by
  exact isCanonical_record (by simp [-String.lt_iff_ltb]) (by simp)

namespace Declaration

mutual

@[simp]
theorem isCanonical_toJson (d : Declaration) : (d.toJson brief).IsCanonical := by
  match d with
  | namespaceDecl head members | classDecl head members | classObject _ members =>
      have hmembers := isCanonical_toJsonAll members
      exact isCanonical_record (by simp [-String.lt_iff_ltb]) (by simp_all)
  | typedefDecl .. | extensionDecl .. | functionDecl _ | propertyDecl _ | constructorDecl _ =>
      exact isCanonical_record (by simp [-String.lt_iff_ltb]) (by simp)

theorem isCanonical_toJsonAll (ds : List Declaration) :
    ∀ item ∈ toJsonAll brief ds, item.IsCanonical := by
  match ds with
  | [] => exact List.forall_mem_nil _
  | d :: rest =>
      rw [toJsonAll, List.forall_mem_cons]
      exact ⟨isCanonical_toJson d, isCanonical_toJsonAll rest⟩

end

theorem isCanonical_fileToJson (ds : List Declaration) : (fileToJson brief ds).IsCanonical := by
  exact isCanonical_record (by simp [-String.lt_iff_ltb]) (by simp)

end Declaration

end DeclAnalysis

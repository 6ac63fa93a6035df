import DeclAnalysis.Proofs.Session.Kinds
import DeclAnalysis.Proofs.Typing.Infer

/-!
# Typing keeps sessions well-kinded

The type of an expression refers to descriptors that exist and are of the right sort, and so does
everything that is recorded on the way to it.
-/

namespace DeclAnalysis

/-! ## Names of types -/

namespace Model

variable {m : Model} {t : DescriptorTable}

theorem names_of_classBelow?
    (hm : m.scopes.WellKinded m.descriptors) {ns id : Nat} {path : List String}
    (h : m.classBelow? ns path = some id) : ∃ name, m.descriptors.Names .classSort name id := by
  match path with
  | [] => cases h
  | [simple] =>
      obtain ⟨members, -, h⟩ := Option.bind_eq_some_iff.mp h
      exact ⟨simple, hm.memberClassifier? h⟩
  | segment :: next :: rest =>
      obtain ⟨members, -, h⟩ := Option.bind_eq_some_iff.mp h
      obtain ⟨inner, -, h⟩ := Option.bind_eq_some_iff.mp h
      exact names_of_classBelow? hm h

theorem wellKinded_builtin? {name : String} {type : Ty} (h : Ty.builtin? name = some type) :
    type.WellKinded t := by
  unfold Ty.builtin? at h
  split at h
  all_goals first
    | (obtain rfl := Option.some.inj h; trivial)
    | cases h

theorem wellKinded_lookupType?
    (hm : m.scopes.WellKinded m.descriptors) {scope : Nat} {name : String} {type : Ty}
    (h : m.lookupType? scope name = some type) : type.WellKinded m.descriptors := by
  unfold lookupType? at h
  split at h
  · obtain ⟨ns, -, h⟩ := Option.bind_eq_some_iff.mp h
    obtain ⟨c, hc, h⟩ := Option.bind_eq_some_iff.mp h
    obtain rfl := Option.some.inj h
    obtain ⟨_, hnames⟩ := names_of_classBelow? hm hc
    exact hnames.toHas.wellKinded_classType
  · cases hclass : m.scopes.classifier? scope name with
    | some id =>
        rw [hclass] at h
        obtain rfl := Option.some.inj h
        exact (hm.classifier? hclass).toHas.wellKinded_classType
    | none =>
        rw [hclass] at h
        exact wellKinded_builtin? h

end Model

namespace Analysis

variable {s : Session}

/-! ## Type references, names and members -/

section

variable (hs : s.WellKinded)

include hs

theorem afterMaturing_resolveTypeRef (scope : Nat) (ref : TypeRef) :
    AfterMaturing (resolveTypeRef scope ref) s fun type s' =>
      type.WellKinded s'.descriptors ∧ s'.model = s.model := by
  refine .get_bind ?_
  split
  · rename_i type htype
    exact .pure hs ⟨hs.trace.typeReferences htype, rfl⟩
  · have hrecord : ∀ {s₁ : Session} {type : Ty}, s₁.WellKinded → s₁.model = s.model →
        type.WellKinded s₁.descriptors → AfterMaturing (do
          recordTypeReference ref.id type
          return type) s₁ fun type s' => type.WellKinded s'.descriptors ∧ s'.model = s.model := by
      intro s₁ type hs₁ hmodel htype
      refine (afterMaturing_recordTypeReference hs₁ ref.id htype).bind fun _ s₂ hs₂ h₂ hmodel₂ => ?_
      exact .pure hs₂ ⟨h₂.type htype, hmodel₂.trans hmodel⟩
    dsimp only
    split
    · rename_i type htype
      exact hrecord hs rfl (Model.wellKinded_lookupType? hs.scopes htype)
    · refine (afterMaturing_reportCode hs _ _ _).bind fun _ s₁ hs₁ h₁ hmodel => ?_
      exact hrecord hs₁ hmodel trivial

theorem afterMaturing_declaredType (scope : Nat) (typeRef : Option TypeRef) :
    AfterMaturing (typeRef.mapM (resolveTypeRef scope)) s fun type s' =>
      WellKindedType s'.descriptors type ∧ s'.model = s.model := by
  cases typeRef with
  | none => exact .pure hs ⟨wellKindedType_none, rfl⟩
  | some ref =>
      refine .map ((afterMaturing_resolveTypeRef hs scope ref).mono fun type s' _ _ h => ?_)
      exact ⟨wellKindedType_some h.1, h.2⟩

theorem afterMaturing_unresolved (node : Nat) (name : String) :
    AfterMaturing (unresolved node name) s fun type s' => type.WellKinded s'.descriptors :=
  (afterMaturing_reportCode hs _ _ _).bind fun _ _ hs₁ _ _ => .pure hs₁ trivial

theorem afterMaturing_referToValue
    (node : Nat) {kind : ReferenceKind} (name : String) {value : Nat}
    (hvalue : value < s.descriptors.size)
    (hfield : kind = .fieldIdentifier → s.descriptors.Has .propertySort value) :
    AfterMaturing (referToValue node kind name value) s fun type s' =>
      type.WellKinded s'.descriptors := by
  refine (afterMaturing_recordReference hs node kind hvalue hfield).bind fun _ s₁ hs₁ _ _ => ?_
  refine .get_bind (.pure hs₁ ?_)
  cases htype : s₁.descriptors.valueType? value with
  | none => trivial
  | some type => exact hs₁.descriptors.valueType? value type htype

theorem afterMaturing_referToNamespace
    (node : Nat) {ns : Nat} (hns : s.descriptors.Has .namespaceSort ns) :
    AfterMaturing (referToNamespace node ns) s fun type s' => type.WellKinded s'.descriptors := by
  refine (afterMaturing_recordReference hs node .identifier hns.lt_size
    (fun h => absurd h (by decide))).bind fun _ s₁ hs₁ h₁ _ => ?_
  exact .get_bind (.pure hs₁ (h₁.has hns).wellKinded_namespaceType)

omit hs in
theorem lt_size_of_namesValue
    {t : DescriptorTable} {name : String} {id : Nat} (h : t.NamesValue name id) : id < t.size :=
  h.elim (·.lt_size) (·.lt_size)

theorem afterMaturing_inferName (scope node : Nat) (name : String) :
    AfterMaturing (inferName scope node name) s fun type s' => type.WellKinded s'.descriptors := by
  refine .get_bind ?_
  dsimp only
  split
  · split
    · rename_i property hproperty
      have hnames := hs.scopes.field? hproperty
      exact afterMaturing_referToValue hs node name hnames.lt_size fun _ => hnames.toHas
    · exact afterMaturing_unresolved hs ..
  · split
    · rename_i value _ hvalue
      exact afterMaturing_referToValue hs node name
        (lt_size_of_namesValue (hs.scopes.value? hvalue)) (fun h => absurd h (by decide))
    · rename_i ns _ hns
      exact afterMaturing_referToNamespace hs node (hs.scopes.namespace? hns).toHas
    · exact afterMaturing_unresolved hs ..

theorem afterMaturing_inferMember
    (node : Nat) {receiver : Ty} (hreceiver : receiver.WellKinded s.descriptors) (name : String) :
    AfterMaturing (inferMember node receiver name) s fun type s' =>
      type.WellKinded s'.descriptors := by
  unfold inferMember
  split
  · exact .pure hs hreceiver
  · refine .get_bind ?_
    split
    · exact (afterMaturing_reportCode hs _ _ _).bind fun _ _ hs₁ _ _ => .pure hs₁ trivial
    · split
      · rename_i value _ hvalue
        exact afterMaturing_referToValue hs node name
          (lt_size_of_namesValue (hs.scopes.memberValue? hvalue)) (fun h => absurd h (by decide))
      · rename_i ns _ hns
        exact afterMaturing_referToNamespace hs node (hs.scopes.memberNamespace? hns).toHas
      · exact afterMaturing_unresolved hs ..

/-! ## Operators, assignments and calls -/

theorem afterMaturing_expectType (node : Nat) (expected actual : Ty) :
    AfterMaturing (expectType node expected actual) s fun _ _ => True := by
  refine .get_bind ?_
  split
  · exact (afterMaturing_reportMismatch hs ..).mono fun _ _ _ _ _ => trivial
  · exact .pure hs trivial

theorem afterMaturing_expectKnownType (node : Nat) (expected actual : Option Ty) :
    AfterMaturing (expectKnownType node expected actual) s fun _ _ => True := by
  unfold expectKnownType
  split
  · exact afterMaturing_expectType hs ..
  · exact .pure hs trivial

omit hs in
theorem wellKinded_operatorType?
    {t : DescriptorTable} {operator : BinaryOperator} {left right type : Ty}
    (h : operatorType? operator left right = some type) : type.WellKinded t := by
  rcases operatorType?_cases h with rfl | rfl | rfl | rfl <;> trivial

theorem afterMaturing_inferOperator
    (node : Nat) (operator : BinaryOperator) {left right : Ty}
    (hleft : left.WellKinded s.descriptors) (hright : right.WellKinded s.descriptors) :
    AfterMaturing (inferOperator node operator left right) s fun type s' =>
      type.WellKinded s'.descriptors := by
  unfold inferOperator
  split
  · exact .pure hs hleft
  · split
    · exact .pure hs hright
    · split
      · rename_i type htype
        exact .pure hs (wellKinded_operatorType? htype)
      · exact (afterMaturing_reportCode hs _ _ _).bind fun _ _ hs₁ _ _ => .pure hs₁ trivial

theorem afterMaturing_checkReassignment (target : Expr) :
    AfterMaturing (checkReassignment target) s fun _ _ => True := by
  refine .get_bind ?_
  split
  · exact .pure hs trivial
  · split
    · exact (afterMaturing_reportCode hs _ _ _).mono fun _ _ _ _ _ => trivial
    · exact .pure hs trivial

/-- A candidate that is selected is one of the candidates. -/
theorem afterMaturing_selectCandidate? (candidates : List Nat) (arguments : List (Option Ty)) :
    AfterMaturing (selectCandidate? candidates arguments) s fun selected s' =>
      s' = s ∧ ∀ c ∈ selected, c ∈ candidates :=
  .get_bind (.pure hs ⟨rfl, fun _ hc => List.mem_of_find?_eq_some hc⟩)

theorem afterMaturing_callFunction
    (node : Nat) (name : String) {functions : List Nat}
    (hfunctions : ∀ f ∈ functions, f < s.descriptors.size) (arguments : List (Option Ty)) :
    AfterMaturing (callFunction node name functions arguments) s fun type s' =>
      type.WellKinded s'.descriptors := by
  refine (afterMaturing_selectCandidate? hs functions arguments).bind ?_
  rintro selected s₁ - - ⟨rfl, hmem⟩
  cases selected with
  | some function =>
      refine (afterMaturing_recordReference hs node .identifier
        (hfunctions function (hmem function rfl)) (fun h => absurd h (by decide))).bind
          fun _ s₂ hs₂ _ _ => ?_
      refine .get_bind (.pure hs₂ ?_)
      cases htype : s₂.descriptors.returnType? function with
      | none => trivial
      | some type => exact hs₂.descriptors.returnType? function type htype
  | none => exact (afterMaturing_reportCode hs _ _ _).bind fun _ _ hs₁ _ _ => .pure hs₁ trivial

theorem afterMaturing_matchConstructor
    (node classId : Nat) (classType : Ty) (arguments : List (Option Ty)) :
    AfterMaturing (matchConstructor node classId classType arguments) s fun _ _ => True := by
  rw [matchConstructor_eq]
  refine .get_bind ?_
  have hconstructors : ∀ c ∈ (s.descriptors.classData? classId).elim [] ClassData.constructors,
      c < s.descriptors.size := by
    cases hdata : s.descriptors.classData? classId with
    | none => exact nofun
    | some data =>
        have hid := DescriptorTable.lt_size_of_classData? (Option.isSome_of_eq_some hdata)
        exact fun c hc => ((hs.descriptors.classData hid hdata).constructors c hc).lt_size
  dsimp only
  split
  · exact .pure hs trivial
  · refine (afterMaturing_selectCandidate? hs ..).bind ?_
    rintro selected s₁ - - ⟨rfl, hmem⟩
    cases selected with
    | some constructor =>
        exact (afterMaturing_recordReference hs node .identifier
          (hconstructors constructor (hmem constructor rfl)) (fun h => absurd h (by decide))).mono
            fun _ _ _ _ _ => trivial
    | none => exact (afterMaturing_reportCode hs _ _ _).mono fun _ _ _ _ _ => trivial

theorem afterMaturing_inferCall
    (scope node : Nat) (callee : String) (arguments : List (Option Ty)) :
    AfterMaturing (inferCall scope node callee arguments) s fun type s' =>
      type.WellKinded s'.descriptors := by
  refine .get_bind ?_
  split
  · split
    · rename_i classId hclass
      have hclassId := (hs.scopes.classifier? hclass).toHas
      refine (afterMaturing_matchConstructor hs ..).bind fun _ s₁ hs₁ h₁ _ => ?_
      exact .pure hs₁ (h₁.type hclassId.wellKinded_classType)
    · exact afterMaturing_unresolved hs ..
  · rename_i hfunctions
    exact afterMaturing_callFunction hs node callee
      (fun f hf => (hs.scopes.functions f hf).lt_size) arguments

/-! ## Local variables -/

theorem afterMaturing_localType
    (node : Nat) {declared initialized : Option Ty}
    (hdeclared : WellKindedType s.descriptors declared)
    (hinitialized : WellKindedType s.descriptors initialized) :
    AfterMaturing (localType node declared initialized) s fun type s' =>
      type.WellKinded s'.descriptors := by
  unfold localType
  split
  · rename_i type htype
    exact .pure hs (hdeclared.orElse hinitialized type htype)
  · exact (afterMaturing_reportCode hs _ _ _).bind fun _ _ hs₁ _ _ => .pure hs₁ trivial

/-- A variable that is created with a type of the right kind. -/
theorem afterMaturing_createVariable
    {name : String} {container : Option Nat} {type : Option Ty} {mutable : Bool}
    (hcontainer : ∀ c ∈ container, c < s.descriptors.size)
    (htype : WellKindedType s.descriptors type) :
    AfterMaturing (createDescriptor name container (.variableKind ⟨type, mutable⟩)) s
      fun id s' => (id = s.descriptors.size ∧ s'.descriptors =
        (s.descriptors.create name container (.variableKind ⟨type, mutable⟩)).2) ∧
          s'.descriptors.Names .variableSort name id := by
  have hmatures := DescriptorTable.Matures.create s.descriptors name container
    (.variableKind ⟨type, mutable⟩)
  have hnew : Descriptor.WellKinded
      (s.descriptors.create name container (.variableKind ⟨type, mutable⟩)).2 s.scopes.size
      s.descriptors.size { name, container, kind := .variableKind ⟨type, mutable⟩ } := by
    refine Descriptor.wellKinded_variableKind (fun c hc => ?_) (htype.of_matures hmatures)
    exact (hcontainer c hc).trans_le hmatures.size_le
  refine (afterMaturing_createDescriptor hs hnew).mono ?_
  rintro id s' - - ⟨rfl, heq⟩
  refine ⟨⟨rfl, heq⟩, ⟨?_, ?_⟩, ?_⟩
  · rw [heq, DescriptorTable.size_create]
    exact Nat.lt_succ_self _
  · rw [heq, DescriptorTable.get_create_size]
    rfl
  · unfold DescriptorTable.name
    rw [heq, DescriptorTable.get_create_size]

theorem afterMaturing_declareLocal
    (scope node : Nat) (name : String) (mutable : Bool) {declared initialized : Option Ty}
    (hdeclared : WellKindedType s.descriptors declared)
    (hinitialized : WellKindedType s.descriptors initialized) :
    AfterMaturing (declareLocal scope node name mutable declared initialized) s
      fun _ _ => True := by
  rw [declareLocal_eq]
  refine (afterMaturing_localType hs node hdeclared hinitialized).bind fun type s₁ hs₁ _ htype => ?_
  refine .get_bind ?_
  refine (afterMaturing_createVariable hs₁
    (fun c hc => hs₁.scopes.containingDeclaration?_lt hc)
    (wellKindedType_some htype)).bind fun v s₂ hs₂ _ hv => ?_
  refine (afterMaturing_onScopes hs₂ (hs₂.scopes.addVariable scope (.inl hv.2))
    (ScopeTree.size_bind ..).ge).bind fun _ s₃ hs₃ h₃ _ => ?_
  exact (afterMaturing_recordDeclaration hs₃ node (h₃.descriptor hv.2.lt_size)).mono
    fun _ _ _ _ _ => trivial

theorem afterMaturing_recordKnownType
    (node : Nat) {type : Option Ty} (htype : WellKindedType s.descriptors type) :
    AfterMaturing (recordKnownType node type) s fun _ _ => True := by
  cases type with
  | none => exact .pure hs trivial
  | some type =>
      exact (afterMaturing_recordExpressionType hs node (htype type rfl)).mono
        fun _ _ _ _ _ => trivial

end

/-! ## Expressions -/

theorem afterMaturing_known
    {s : Session} (hs : s.WellKinded) {type : Ty} (htype : type.WellKinded s.descriptors) :
    AfterMaturing (pure (some type)) s fun type s' => WellKindedType s'.descriptors type :=
  .pure hs (wellKindedType_some htype)

mutual

/-- The type of an expression refers to descriptors of the right sort. -/
theorem afterMaturing_infer {s : Session} (hs : s.WellKinded) {scope : Nat}
    (hscope : scope < s.scopes.size) (e : Expr) :
    AfterMaturing (infer scope e) s fun type s' => WellKindedType s'.descriptors type := by
  rw [infer_eq]
  refine AfterMaturing.bind (q := fun type s' => WellKindedType s'.descriptors type) ?_
    fun type s₁ hs₁ _ htype => (afterMaturing_recordKnownType hs₁ e.id htype).bind
      fun _ s₂ hs₂ h₂ _ => .pure hs₂ (h₂.optionalType htype)
  match e with
  | .constant _ (.int _) | .constant _ (.double _) | .constant _ (.string _)
  | .constant _ (.bool _) | .breakLoop _ | .continueLoop _ | .ret _ none =>
      exact afterMaturing_known hs trivial
  | .lambda .. => exact .pure hs wellKindedType_none
  | .name node name =>
      exact .map ((afterMaturing_inferName hs scope node name).mono
        fun _ _ _ _ h => wellKindedType_some h)
  | .dot node receiver name =>
      refine (afterMaturing_infer hs hscope receiver).bind fun type s₁ hs₁ _ htype => ?_
      cases type with
      | none => exact .pure hs₁ wellKindedType_none
      | some type =>
          exact .map ((afterMaturing_inferMember hs₁ node (htype type rfl) name).mono
            fun _ _ _ _ h => wellKindedType_some h)
  | .block _ statements =>
      refine (afterMaturing_createScope hs .block (some scope) none (fun p hp => ?_)
        fun c hc => absurd hc (Option.not_mem_none c)).bind
        fun block s₁ hs₁ _ hblock => ?_
      · obtain rfl := Option.mem_some.mp hp
        exact hscope
      · have hunit : WellKindedType s₁.descriptors (some .unit) :=
          wellKindedType_some (show Ty.unit.WellKinded _ from trivial)
        exact afterMaturing_inferStatements hs₁ hblock.1 hunit statements
  | .cond _ condition thenBranch none =>
      refine (afterMaturing_infer hs hscope condition).bind fun type s₁ hs₁ h₁ _ => ?_
      refine (afterMaturing_expectKnownType hs₁ ..).bind fun _ s₂ hs₂ h₂ _ => ?_
      refine (afterMaturing_infer hs₂ (h₂.scope (h₁.scope hscope)) thenBranch).bind
        fun _ s₃ hs₃ _ _ => ?_
      exact afterMaturing_known hs₃ trivial
  | .cond _ condition thenBranch (some elseBranch) =>
      refine (afterMaturing_infer hs hscope condition).bind fun type s₁ hs₁ h₁ _ => ?_
      refine (afterMaturing_expectKnownType hs₁ ..).bind fun _ s₂ hs₂ h₂ _ => ?_
      have hscope₂ := h₂.scope (h₁.scope hscope)
      refine (afterMaturing_infer hs₂ hscope₂ thenBranch).bind fun a s₃ hs₃ h₃ ha => ?_
      refine (afterMaturing_infer hs₃ (h₃.scope hscope₂) elseBranch).bind
        fun b s₄ hs₄ h₄ hb => ?_
      split
      · rename_i a b
        refine .get_bind (afterMaturing_known hs₄ ?_)
        exact DescriptorTable.wellKinded_join (h₄.type (ha a rfl)) (hb b rfl)
      · exact .pure hs₄ wellKindedType_none
  | .whileLoop _ condition body =>
      refine (afterMaturing_infer hs hscope condition).bind fun type s₁ hs₁ h₁ _ => ?_
      refine (afterMaturing_expectKnownType hs₁ ..).bind fun _ s₂ hs₂ h₂ _ => ?_
      refine (afterMaturing_infer hs₂ (h₂.scope (h₁.scope hscope)) body).bind
        fun _ s₃ hs₃ _ _ => ?_
      exact afterMaturing_known hs₃ trivial
  | .doWhileLoop _ body condition =>
      refine (afterMaturing_infer hs hscope body).bind fun _ s₁ hs₁ h₁ _ => ?_
      refine (afterMaturing_infer hs₁ (h₁.scope hscope) condition).bind fun type s₂ hs₂ _ _ => ?_
      refine (afterMaturing_expectKnownType hs₂ ..).bind fun _ s₃ hs₃ _ _ => ?_
      exact afterMaturing_known hs₃ trivial
  | .ret _ (some value) =>
      refine (afterMaturing_infer hs hscope value).bind fun _ s₁ hs₁ _ _ => ?_
      exact afterMaturing_known hs₁ trivial
  | .binary node operator left right =>
      refine (afterMaturing_infer hs hscope left).bind fun a s₁ hs₁ h₁ ha => ?_
      refine (afterMaturing_infer hs₁ (h₁.scope hscope) right).bind fun b s₂ hs₂ h₂ hb => ?_
      split
      · rename_i a b
        exact .map ((afterMaturing_inferOperator hs₂ node operator (h₂.type (ha a rfl))
          (hb b rfl)).mono fun _ _ _ _ h => wellKindedType_some h)
      · exact .pure hs₂ wellKindedType_none
  | .assign _ target value =>
      have htarget : AfterMaturing (inferTarget scope target) s fun _ _ => True := by
        unfold inferTarget
        split
        · exact (afterMaturing_infer hs hscope target).mono fun _ _ _ _ _ => trivial
        · exact (afterMaturing_reportCode hs _ _ _).bind fun _ _ hs₁ _ _ => .pure hs₁ trivial
      refine htarget.bind fun targetType s₁ hs₁ h₁ _ => ?_
      refine (afterMaturing_checkReassignment hs₁ target).bind fun _ s₂ hs₂ h₂ _ => ?_
      refine (afterMaturing_infer hs₂ (h₂.scope (h₁.scope hscope)) value).bind
        fun valueType s₃ hs₃ _ _ => ?_
      refine (afterMaturing_expectKnownType hs₃ ..).bind fun _ s₄ hs₄ _ _ => ?_
      exact afterMaturing_known hs₄ trivial
  | .call node callee arguments =>
      refine (afterMaturing_inferArguments hs hscope arguments).bind fun types s₁ hs₁ _ _ => ?_
      exact .map ((afterMaturing_inferCall hs₁ scope node callee types).mono
        fun _ _ _ _ h => wellKindedType_some h)
  | .localVariable node name mutable typeRef none =>
      refine (afterMaturing_declaredType hs scope typeRef).bind
        fun declared s₁ hs₁ _ hdeclared => ?_
      refine (afterMaturing_declareLocal hs₁ scope node name mutable hdeclared.1
        wellKindedType_none).bind fun _ s₂ hs₂ _ _ => ?_
      exact afterMaturing_known hs₂ trivial
  | .localVariable node name mutable typeRef (some initializer) =>
      refine (afterMaturing_declaredType hs scope typeRef).bind
        fun declared s₁ hs₁ h₁ hdeclared => ?_
      refine (afterMaturing_infer hs₁ (h₁.scope hscope) initializer).bind
        fun initialized s₂ hs₂ h₂ hinitialized => ?_
      refine (afterMaturing_expectKnownType hs₂ ..).bind fun _ s₃ hs₃ h₃ _ => ?_
      refine (afterMaturing_declareLocal hs₃ scope node name mutable
        (h₃.optionalType (h₂.optionalType hdeclared.1)) (h₃.optionalType hinitialized)).bind
          fun _ s₄ hs₄ _ _ => ?_
      exact afterMaturing_known hs₄ trivial

theorem afterMaturing_inferStatements {s : Session} (hs : s.WellKinded) {scope : Nat}
    (hscope : scope < s.scopes.size) {last : Option Ty}
    (hlast : WellKindedType s.descriptors last) (es : List Expr) :
    AfterMaturing (inferStatements scope last es) s fun type s' =>
      WellKindedType s'.descriptors type := by
  match es with
  | [] => exact .pure hs hlast
  | e :: rest =>
      refine (afterMaturing_infer hs hscope e).bind fun type s₁ hs₁ h₁ htype => ?_
      exact afterMaturing_inferStatements hs₁ (h₁.scope hscope) htype rest

theorem afterMaturing_inferArguments {s : Session} (hs : s.WellKinded) {scope : Nat}
    (hscope : scope < s.scopes.size) (es : List Expr) :
    AfterMaturing (inferArguments scope es) s fun _ _ => True := by
  match es with
  | [] => exact .pure hs trivial
  | e :: rest =>
      refine (afterMaturing_infer hs hscope e).bind fun type s₁ hs₁ h₁ _ => ?_
      refine (afterMaturing_inferArguments hs₁ (h₁.scope hscope) rest).bind
        fun types s₂ hs₂ _ _ => ?_
      exact .pure hs₂ trivial

end

end Analysis

end DeclAnalysis

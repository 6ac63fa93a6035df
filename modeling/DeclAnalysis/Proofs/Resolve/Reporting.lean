import DeclAnalysis.Proofs.Resolve.Places
import DeclAnalysis.Proofs.Resolve.ReturnChecks

/-!
# Where declarations are reported

Resolving the signature or the body of a declaration reports at the places of the declaration
only, and at each of them at most once, whether or not a fault stops the resolution.
-/

namespace DeclAnalysis

namespace Analysis

variable {nodes : List Nat}

/-! ## Signatures -/

theorem postsOr_setReturnType (function : Nat) (type : Ty) :
    PostsOr (Session.Posts nodes) [] (setReturnType function type) :=
  postsOr_tryDescriptors _

theorem posts_supertypeOf (ref : TypeRef) (type : Ty) :
    Posts nodes [.quoting ref.id] (supertypeOf ref type) := by
  unfold supertypeOf
  split
  · exact (Posts.pure _).mono List.nil_subperm
  · exact (Posts.pure _).mono List.nil_subperm
  · exact (Posts.pure _).mono List.nil_subperm
  · exact (posts_reportSemantic _ (by simp)).bind_last fun _ => .pure _

theorem postsOr_resolveClass
    {head : ClassHead} (hnodes : head.supertypeRefs.map TypeRef.id ⊆ nodes)
    (scope descriptor : Nat) :
    PostsOr (Session.Posts nodes)
      (head.delegationSpecifiers.flatMap DelegationSpecifier.supertypePlaces)
      (resolveClass scope head descriptor) := by
  have hplaces : head.delegationSpecifiers.flatMap DelegationSpecifier.supertypePlaces =
      head.supertypeRefs.flatMap fun ref => [.quoting ref.id] := by
    unfold ClassHead.supertypeRefs
    rw [List.filterMap_eq_flatMap_toList, List.flatMap_assoc]
    rfl
  have hsupertypes : Posts nodes (head.supertypeRefs.flatMap fun ref => [.quoting ref.id])
      (resolveSupertypes scope head) := by
    refine Posts.bind_last (Posts.mapM _ fun ref href => ?_) fun _ => .pure _
    have hmem : ref.id ∈ nodes := hnodes (List.mem_map_of_mem href)
    exact (posts_resolveTypeRef hmem scope).bind_first fun type => posts_supertypeOf ref type
  rw [hplaces]
  exact hsupertypes.lift.bind_last fun _ => postsOr_tryDescriptors _

theorem posts_resolveParameter
    {p : Parameter} (hnodes : p.nodes ⊆ nodes) (scope function : Nat) :
    Posts nodes [.semantic p.id 'A'] (resolveParameter scope function p) := by
  have htype : Posts nodes [.semantic p.id 'A'] (parameterType scope p) := by
    obtain ⟨-, hnodes⟩ := List.cons_subset.mp hnodes
    unfold parameterType
    split
    · rename_i ref href
      have hmem : ref.id ∈ nodes := typeRef_mem_of_subset hnodes ref href
      exact (posts_resolveTypeRef hmem scope).mono List.nil_subperm
    · exact (posts_reportSemantic _ (by rfl)).bind_last fun _ => .pure _
  refine htype.bind_last fun type => (posts_createDescriptor ..).bind_first fun descriptor => ?_
  exact (posts_recordDeclaration ..).bind_first fun _ => .pure _

theorem posts_resolveSignature
    {parameters : List Parameter} (hnodes : parameterNodes parameters ⊆ nodes) (scope : Nat)
    (role : FunctionRole) (name : String) (container : Option Nat) :
    Posts nodes (parameterPlaces parameters)
      (resolveSignature scope role name container parameters) := by
  refine (posts_createDescriptor ..).bind_first fun function => ?_
  refine Posts.bind_last (Posts.mapM _ fun p hp => ?_) fun _ => ?_
  · exact posts_resolveParameter
      (fun node hnode => hnodes (List.mem_flatMap.mpr ⟨p, hp, hnode⟩)) scope function
  · exact (posts_onDescriptors _).bind_first fun _ => .pure _

/-- The signature of an accessor has no parameters at first. -/
theorem posts_resolveSignature_nil
    (scope : Nat) (role : FunctionRole) (name : String) (container : Option Nat) :
    Posts nodes [] (resolveSignature scope role name container []) := by
  have hsignature : Posts nodes (parameterPlaces []) _ :=
    posts_resolveSignature (List.nil_subset _) scope role name container
  exact hsignature

theorem postsOr_resolvePrimaryConstructor
    {head : ClassHead} (hnodes : parameterNodes (head.primaryConstructor.getD []) ⊆ nodes)
    (classId : Nat) :
    PostsOr (Session.Posts nodes) (parameterPlaces (head.primaryConstructor.getD []))
      (resolvePrimaryConstructor classId head) := by
  unfold resolvePrimaryConstructor
  cases hprimary : head.primaryConstructor with
  | none => exact .pure _
  | some parameters =>
      rw [hprimary] at hnodes
      refine .get_bind fun s => ?_
      split
      · exact (PostsOr.throw _).none
      · refine (posts_resolveSignature hnodes ..).lift.bind_last fun constructor => ?_
        refine .get_bind fun s => (postsOr_setReturnType ..).bind_first fun _ => ?_
        refine .get_bind fun s => ?_
        dsimp only
        refine PostsOr.bind_last ?_ fun properties => .pure _
        refine KeepsOr.mapM _ fun (p, type) _ => Posts.lift ?_
        exact (posts_createDescriptor ..).bind_first fun property =>
          (posts_recordDeclaration ..).bind_first fun _ => .pure _

theorem postsOr_resolveConstructor
    {decl : ConstructorDecl} (hnodes : decl.nodes ⊆ nodes) (scope classId : Nat) :
    PostsOr (Session.Posts nodes) (parameterPlaces decl.parameters)
      (resolveConstructor scope classId decl) := by
  obtain ⟨-, hnodes⟩ := List.cons_subset.mp hnodes
  simp only [List.append_subset] at hnodes
  refine (posts_resolveSignature hnodes.1.1 ..).lift.bind_last fun constructor => ?_
  refine .get_bind fun s => (postsOr_setReturnType ..).bind_first fun _ => ?_
  exact (posts_recordDeclaration ..).lift.bind_first fun _ => .pure _

theorem postsOr_resolveFunction
    {decl : FunctionDecl} (hnodes : decl.nodes ⊆ nodes) (scope : Nat) (container : Option Nat) :
    PostsOr (Session.Posts nodes) (parameterPlaces decl.parameters)
      (resolveFunction scope container decl) := by
  obtain ⟨-, hnodes⟩ := List.cons_subset.mp hnodes
  simp only [List.append_subset] at hnodes
  refine (posts_resolveSignature hnodes.1.1 ..).lift.bind_last fun function => ?_
  have hrest : PostsOr (Session.Posts nodes) [] (do
      recordDeclaration decl.id function
      return function : FaultyAnalysis Nat) :=
    (posts_recordDeclaration ..).lift.bind_first fun _ => .pure _
  dsimp only
  split
  · rename_i ref href
    have hmem : ref.id ∈ nodes := typeRef_mem_of_subset hnodes.1.2 ref href
    exact (posts_resolveTypeRef hmem scope).lift.bind_first fun type =>
      (postsOr_setReturnType ..).bind_first fun _ => hrest
  · exact hrest

theorem postsOr_resolveGetter
    {getter : Accessor} (hnodes : getter.nodes ⊆ nodes) (scope property : Nat) (name : String)
    (propertyType : Option Ty) :
    PostsOr (Session.Posts nodes) [] (resolveGetter scope property name propertyType getter) := by
  obtain ⟨-, hnodes⟩ := List.cons_subset.mp hnodes
  simp only [List.append_subset] at hnodes
  refine (posts_resolveSignature_nil ..).lift.bind_first fun function => ?_
  have hset : ∀ type : Option Ty,
      PostsOr (Session.Posts nodes) [] (declareGetter getter function type) := by
    intro type
    unfold declareGetter
    have hrecord : PostsOr (Session.Posts nodes) [] (do
        recordDeclaration getter.id function
        return function : FaultyAnalysis Nat) :=
      (posts_recordDeclaration ..).lift.bind_first fun _ => .pure _
    cases type with
    | none => exact hrecord
    | some type => exact (postsOr_setReturnType ..).bind_first fun _ => hrecord
  cases href : getter.returnType with
  | none => exact hset propertyType
  | some ref =>
      have hmem : ref.id ∈ nodes := typeRef_mem_of_subset hnodes.1.2 ref href
      exact ((posts_resolveTypeRef hmem scope).map some).lift.bind_first fun type => hset type

theorem posts_setterParameterType
    {parameter : Option Parameter} (hnodes : parameterNodes parameter.toList ⊆ nodes)
    (scope : Nat) (propertyType : Option Ty) :
    Posts nodes [] (setterParameterType scope propertyType parameter) := by
  unfold setterParameterType
  split
  · rename_i ref href
    obtain ⟨p, rfl, htype⟩ := Option.bind_eq_some_iff.mp href
    have hmem : ref.id ∈ nodes := by
      refine hnodes (List.mem_flatMap.mpr ⟨p, List.mem_cons_self, ?_⟩)
      rw [Parameter.nodes, htype]
      exact List.mem_cons_of_mem _ List.mem_cons_self
    exact (posts_resolveTypeRef hmem scope).map some
  · exact .pure _

theorem postsOr_resolveSetter
    {setter : Accessor} (hnodes : setter.nodes ⊆ nodes) (scope property : Nat) (name : String)
    (propertyType : Option Ty) :
    PostsOr (Session.Posts nodes) [] (resolveSetter scope property name propertyType setter) := by
  obtain ⟨-, hnodes⟩ := List.cons_subset.mp hnodes
  simp only [List.append_subset] at hnodes
  refine (posts_resolveSignature_nil ..).lift.bind_first fun function => ?_
  refine (posts_setterParameterType hnodes.1.1 ..).lift.bind_first fun type => ?_
  refine (posts_createDescriptor ..).lift.bind_first fun value => ?_
  have hrest : PostsOr (Session.Posts nodes) [] (do
      onDescriptors (·.editSignature function fun s =>
        { s with parameters := s.parameters ++ [value] })
      setReturnType function .unit
      recordDeclaration setter.id function
      return function : FaultyAnalysis Nat) := by
    refine (posts_onDescriptors _).lift.bind_first fun _ => ?_
    refine (postsOr_setReturnType ..).bind_first fun _ => ?_
    exact (posts_recordDeclaration ..).lift.bind_first fun _ => .pure _
  cases hparameter : setter.parameter with
  | none => exact hrest
  | some p => exact (posts_recordDeclaration ..).lift.bind_first fun _ => hrest

theorem postsOr_resolveProperty
    {decl : PropertyDecl} (hnodes : decl.nodes ⊆ nodes) (scope : Nat) (container : Option Nat) :
    PostsOr (Session.Posts nodes) [] (resolveProperty scope container decl) := by
  obtain ⟨-, hnodes⟩ := List.cons_subset.mp hnodes
  simp only [List.append_subset] at hnodes
  refine PostsOr.bind_first (KeepsOr.optionMapM _ fun ref href => Posts.lift ?_) fun type => ?_
  · exact posts_resolveTypeRef (typeRef_mem_of_subset hnodes.1.1.1 ref href) scope
  refine (posts_createDescriptor ..).lift.bind_first fun property => ?_
  refine (posts_recordDeclaration ..).lift.bind_first fun _ => ?_
  refine PostsOr.bind_first (KeepsOr.optionMapM _ fun getter hgetter => ?_) fun getter => ?_
  · refine postsOr_resolveGetter (fun node hnode => hnodes.1.2 ?_) ..
    exact List.mem_flatMap.mpr ⟨getter, Option.mem_toList.mpr hgetter, hnode⟩
  refine PostsOr.bind_first (KeepsOr.optionMapM _ fun setter hsetter => ?_) fun setter => ?_
  · refine postsOr_resolveSetter (fun node hnode => hnodes.2 ?_) ..
    exact List.mem_flatMap.mpr ⟨setter, Option.mem_toList.mpr hsetter, hnode⟩
  exact (posts_onDescriptors _).lift.bind_first fun _ => .pure _

/-! ## Delegation lists -/

theorem posts_checkClassConstructorCall
    {node : Nat} {arguments : List Expr} (hnodes : Expr.nodesOf arguments ⊆ nodes)
    (scope classId : Nat) (classType : Ty) :
    Posts nodes (Expr.placesOf arguments ++ [.semantic node 'N'])
      (checkClassConstructorCall scope classId classType node arguments) :=
  (posts_inferArguments scope arguments hnodes).bind fun _ => posts_matchConstructor ..

theorem posts_checkConstructorCall
    {ref : TypeRef} (href : ref.id ∈ nodes) {node : Nat} {arguments : List Expr}
    (hnodes : Expr.nodesOf arguments ⊆ nodes) (scope : Nat) :
    Posts nodes (Expr.placesOf arguments ++ [.semantic node 'N', .quoting node])
      (checkConstructorCall scope ref node arguments) := by
  refine (posts_resolveTypeRef href scope).bind_first fun type => ?_
  split
  · refine (posts_checkClassConstructorCall hnodes ..).mono ?_
    exact ((List.Sublist.refl _).append (List.sublist_append_left [_] _)).subperm
  · refine (posts_inferArguments scope arguments hnodes).bind fun _ => ?_
    split
    · have hreport : Posts nodes [.quoting node] (reportCode .semanticError node
          ("'" ++ type.text ++ "' is not a class and has no constructors")) :=
        posts_reportSemantic node (by simp)
      exact hreport.mono (List.sublist_cons_self ..).subperm
    · exact (Posts.pure _).mono List.nil_subperm

theorem posts_reportBareSupertype
    (id : Nat) {message : String} (hletter : message.toList.head? = some 'C') :
    Posts nodes [.bareSupertype id] (reportCode .constructorParametersRequired id message) := by
  have hcode : DiagnosticCode.constructorParametersRequired ≠ .unresolvedReference := by decide
  exact posts_reportCode hcode id hletter

theorem postsOr_resolveDelegation
    {d : DelegationSpecifier} (hnodes : d.nodes ⊆ nodes) (members : Nat) (hasPrimary : Bool) :
    PostsOr (Session.Posts nodes) d.classPlaces (resolveDelegation members hasPrimary d) := by
  match d with
  | .byExpression id ref (some delegate) =>
      simp only [DelegationSpecifier.nodes, List.cons_subset] at hnodes
      refine (posts_infer members delegate hnodes.2.2).lift.bind fun type => ?_
      cases type with
      | none => exact (PostsOr.pure _).none
      | some actual =>
          refine (posts_resolveTypeRef hnodes.2.1 members).lift.bind_first fun supertype => ?_
          refine .get_bind fun s => ?_
          split
          · exact (posts_reportMismatch ..).lift
          · exact (PostsOr.pure _).none
  | .superCall id (some ref) arguments =>
      simp only [DelegationSpecifier.nodes, List.cons_subset, List.append_subset] at hnodes
      exact (posts_checkConstructorCall (hnodes.2.1 List.mem_cons_self) hnodes.2.2 members).lift
  | .superClass id ref =>
      cases hasPrimary with
      | true => exact (posts_reportBareSupertype id (by rfl)).lift
      | false => exact (PostsOr.pure _).none
  | .thisCall id arguments => exact .throw _
  | .byExpression id ref none | .superCall id none arguments => exact .pure _

theorem postsOr_resolveDelegations
    {head : ClassHead} (hnodes : head.nodes ⊆ nodes) (descriptor : Nat) :
    PostsOr (Session.Posts nodes)
      (head.delegationSpecifiers.flatMap DelegationSpecifier.classPlaces)
      (resolveDelegations head descriptor) := by
  obtain ⟨-, hnodes⟩ := List.cons_subset.mp hnodes
  rw [List.append_subset] at hnodes
  refine .get_bind fun s => ?_
  split
  · exact (PostsOr.throw _).none
  · refine PostsOr.forM _ fun d hd => postsOr_resolveDelegation (fun node hnode => ?_) ..
    exact hnodes.2 (List.mem_flatMap.mpr ⟨d, hd, hnode⟩)

theorem posts_resolveConstructorInitializer
    {d : DelegationSpecifier} (hnodes : d.nodes ⊆ nodes) (scope classId : Nat) :
    Posts nodes d.constructorPlaces (resolveConstructorInitializer scope classId d) := by
  match d with
  | .byExpression id ref delegate => exact posts_reportSemantic id (by rfl)
  | .superCall id (some ref) arguments =>
      simp only [DelegationSpecifier.nodes, List.cons_subset, List.append_subset] at hnodes
      exact posts_checkConstructorCall (hnodes.2.1 List.mem_cons_self) hnodes.2.2 scope
  | .superCall id none arguments => exact .pure _
  | .superClass id ref => exact posts_reportBareSupertype id (by rfl)
  | .thisCall id arguments =>
      obtain ⟨-, hnodes⟩ := List.cons_subset.mp hnodes
      exact .get_bind fun s => posts_checkClassConstructorCall hnodes ..

/-! ## Bodies -/

theorem postsOr_reportUnreachable
    (options : AnalysisOptions) (flow : FlowInformation) (node : Nat) (body : Expr) :
    PostsOr (Session.Posts nodes) body.unreachablePlaces
      (reportUnreachable options flow node body) := by
  unfold reportUnreachable
  split
  · exact (PostsOr.throw _).none
  · rename_i elements _
    split
    · have hcode : DiagnosticCode.unreachableCode ≠ .unresolvedReference := by decide
      refine PostsOr.mono (PostsOr.forM_map (g := .unreachable) _ fun element _ => ?_)
        ((body.roots_sublist_nodes elements).map _).subperm
      exact (posts_reportCode hcode element (by rfl)).lift
    · exact (PostsOr.pure _).none

section

variable {node : Nat} {body : Expr} (hnumber : ∃ n e, body = Expr.number n e)

include hnumber

/-- Each opaque return point is reported once. -/
theorem postsOr_reportUnsupported :
    PostsOr (Session.Posts nodes) (body.nodes.map .unsupported)
      ((FlowGraph.ofBody node body).returned.unsupported.forM fun element =>
        (report (.unsupportedElement element) : FaultyAnalysis Unit)) := by
  obtain ⟨n, e, rfl⟩ := hnumber
  have hlists := FlowGraph.lists_returned_ofBody node n e
  have hsub : (FlowGraph.ofBody node (e.number n)).returned.unsupported.Subperm
      (e.number n).nodes := by
    refine List.subperm_of_subset hlists.nodup_unsupported fun x hx => ?_
    exact Expr.lastNodes_subset (Expr.nodup_nodes_number n e)
      ((hlists.mem_unsupported x).mp hx).element_mem_lastNodes
  have hcode : DiagnosticCode.unsupportedConstruct ≠ .unresolvedReference := by decide
  have hplaces := List.Subperm.map (f := Place.unsupported)
    (fun _ _ h => congrArg Place.node h) hsub
  refine PostsOr.mono (PostsOr.forM_map _ fun element _ => ?_) hplaces
  exact (posts_reportCode hcode element (by rfl)).lift

/-- The return points are compared with the expected type, each once. -/
theorem postsOr_checkReturnPoints (expected : Ty) :
    PostsOr (Session.Posts nodes) ((body.nodes.filter (· ∉ body.demands)).map .mismatch)
      (checkReturnPoints expected (FlowGraph.ofBody node body).returned) := by
  obtain ⟨n, e, rfl⟩ := hnumber
  have hnodup := Expr.nodup_nodes_number n e
  have hlists := FlowGraph.lists_returned_ofBody node n e
  generalize (FlowGraph.ofBody node (e.number n)).returned = points at hlists
  have hsub : (points.expressions ++ points.unitReturning).Subperm
      ((e.number n).nodes.filter (· ∉ (e.number n).demands)) := by
    refine List.subperm_of_subset ?_ fun x hx => ?_
    · exact hlists.nodup_expressions.append hlists.nodup_unitReturning
        fun x hx hx' => hlists.not_mem_unitReturning hx hx'
    · obtain ⟨t, ht, rfl, -⟩ := hlists.exists_isReturnPoint (List.mem_append.mp hx)
      have hlast := ht.element_mem_lastNodes
      refine List.mem_filter.mpr ⟨Expr.lastNodes_subset hnodup hlast, ?_⟩
      exact decide_eq_true fun hdemand =>
        Expr.not_mem_lastNodes_of_mem_demands hnodup hdemand hlast
  have hplaces := List.Subperm.map (f := Place.mismatch) (fun _ _ h => congrArg Place.node h) hsub
  rw [List.map_append] at hplaces
  refine PostsOr.mono (PostsOr.bind ?_ fun _ => ?_) hplaces
  · refine PostsOr.forM_map _ fun element _ => .get_bind fun s => ?_
    exact (posts_expectKnownType ..).lift
  · refine .get_bind fun s => ?_
    split
    · exact PostsOr.forM_map _ fun element _ => (posts_reportMismatch ..).lift
    · exact (PostsOr.pure _).none

/-- The body of a function is typed, and then its return points are looked at. -/
theorem postsOr_checkReturnType
    (hnodes : body.nodes ⊆ nodes) (scope function : Nat) :
    PostsOr (Session.Posts nodes) (body.places ++ body.returnPlaces)
      (checkReturnType (.data (.ofBody node body)) scope node (some body) function) := by
  refine .get_bind fun s => ?_
  split
  · exact (PostsOr.throw _).none
  · rename_i expected _
    refine (posts_infer scope body hnodes).lift.bind fun _ => ?_
    rw [returnPoints_ofBody, bind_assoc]
    exact (postsOr_reportUnsupported hnumber).bind fun _ =>
      postsOr_checkReturnPoints hnumber expected

theorem postsOr_inferReturnType
    (hnodes : body.nodes ⊆ nodes) (scope : Nat) :
    PostsOr (Session.Posts nodes) (body.places ++ body.returnPlaces)
      (inferReturnType (.data (.ofBody node body)) scope node (some body)) := by
  refine (posts_infer scope body hnodes).lift.bind fun _ => ?_
  rw [returnPoints_ofBody, bind_assoc]
  refine PostsOr.mono ((postsOr_reportUnsupported hnumber).bind_last fun _ => ?_)
    (List.sublist_append_left ..).subperm
  rw [pure_bind]
  exact .get_bind fun s => .pure _

end

/-- The body of a function is resolved. -/
theorem postsOr_resolveFunctionBody
    (options : AnalysisOptions) (node : Nat) {body : Option Expr}
    (hnumber : ∀ e ∈ body, ∃ n e₀, e = Expr.number n e₀)
    (hnodes : Expr.optionalNodes body ⊆ nodes) (function scope : Nat) :
    PostsOr (Session.Posts nodes) (Expr.functionPlaces node body)
      (resolveFunctionBody options node body function scope) := by
  refine .get_bind fun s => ?_
  dsimp only
  cases body with
  | none =>
      dsimp only
      split
      · have hcode : DiagnosticCode.missingReturnTypeAndBody ≠ .unresolvedReference := by decide
        exact (posts_reportCode hcode node (by rfl)).lift.bind_last fun _ =>
          postsOr_setReturnType ..
      · exact (PostsOr.pure _).none
  | some body =>
      dsimp only
      have hbody := hnumber body rfl
      refine (postsOr_functionInnerScope ..).bind_first fun inner => ?_
      split
      · exact (postsOr_checkReturnType hbody hnodes ..).bind fun _ => postsOr_reportUnreachable ..
      · refine (postsOr_inferReturnType hbody hnodes inner).bind fun inferred => ?_
        exact (postsOr_setReturnType ..).bind_first fun _ => postsOr_reportUnreachable ..

/-! ## Properties -/

theorem posts_fillPropertyType (property : Nat) (type : Ty) :
    Posts nodes [] (onDescriptors (·.fillPropertyType property type)) :=
  posts_onDescriptors _

theorem posts_resolveInitializer
    {initializer : Expr} (hnodes : initializer.nodes ⊆ nodes) (scope property : Nat)
    (setter : Option Nat) :
    Posts nodes (initializer.places ++ [.mismatch initializer.id])
      (resolveInitializer scope property setter initializer) := by
  refine (posts_infer scope initializer hnodes).bind fun inferred => .get_bind fun s => ?_
  refine (posts_expectKnownType ..).bind_last fun _ => ?_
  cases inferred with
  | none => exact .pure _
  | some actual => exact posts_fillPropertyType ..

/-- The bodies of a property are numbered. -/
def HasNumberedBodies (decl : PropertyDecl) : Prop :=
  ∀ a ∈ decl.getter.toList ++ decl.setter.toList, ∀ e ∈ a.body, ∃ n e₀, e = Expr.number n e₀

theorem HasNumberedBodies.getter
    {decl : PropertyDecl} (h : HasNumberedBodies decl) {a : Accessor} (ha : decl.getter = some a) :
    ∀ e ∈ a.body, ∃ n e₀, e = Expr.number n e₀ :=
  h a (List.mem_append_left _ (Option.mem_toList.mpr ha))

theorem HasNumberedBodies.setter
    {decl : PropertyDecl} (h : HasNumberedBodies decl) {a : Accessor} (ha : decl.setter = some a) :
    ∀ e ∈ a.body, ∃ n e₀, e = Expr.number n e₀ :=
  h a (List.mem_append_right _ (Option.mem_toList.mpr ha))

theorem postsOr_resolveAccessors
    (options : AnalysisOptions) {decl : PropertyDecl} (hnumber : HasNumberedBodies decl)
    (hnodes : decl.nodes ⊆ nodes) (property : Nat) (data : PropertyData) (scope : Nat) :
    PostsOr (Session.Posts nodes) (accessorPlaces decl.getter ++ accessorPlaces decl.setter)
      (resolveAccessors options decl property data scope) := by
  obtain ⟨-, hnodes⟩ := List.cons_subset.mp hnodes
  simp only [List.append_subset] at hnodes
  have hset : PostsOr (Session.Posts nodes) (accessorPlaces decl.setter)
      (resolveSetterBody options decl data scope) := by
    unfold resolveSetterBody
    split
    · rename_i accessor setter heq
      have haccessor := (Prod.mk.inj heq).1
      have hresolve : PostsOr (Session.Posts nodes) _ _ := postsOr_resolveFunctionBody options
        accessor.id (hnumber.setter haccessor) (accessor_body_subset hnodes.2 haccessor) setter scope
      rw [haccessor, accessorPlaces, Option.toList_some, List.flatMap_singleton]
      exact hresolve
    · exact (PostsOr.pure _).none
  unfold resolveAccessors
  dsimp only
  split
  · rename_i accessor getter heq
    have haccessor := (Prod.mk.inj heq).1
    have hresolve : PostsOr (Session.Posts nodes) _ _ := postsOr_resolveFunctionBody options
      accessor.id (hnumber.getter haccessor) (accessor_body_subset hnodes.1.2 haccessor) getter scope
    rw [haccessor, accessorPlaces, Option.toList_some, List.flatMap_singleton]
    refine hresolve.bind fun _ => .get_bind fun s => ?_
    split
    · exact (posts_fillPropertyType ..).lift.bind_first fun _ => hset
    · exact hset
  · exact hset.mono (List.sublist_append_right ..).subperm

theorem posts_concludeProperty (decl : PropertyDecl) (property : Nat) :
    Posts nodes decl.conclusionPlaces (concludeProperty decl property) := by
  have hinitializer : Posts nodes
      (decl.initializer.toList.flatMap fun e => [⟨.initializerNotAllowed, e.id, 'I'⟩])
      (judgeInitializer decl property) := by
    unfold judgeInitializer
    have hcode : DiagnosticCode.initializerNotAllowed ≠ .unresolvedReference := by decide
    cases decl.initializer with
    | none => exact .pure _
    | some initializer =>
        refine .get_bind fun s => ?_
        split
        · exact posts_reportCode hcode _ (by rfl)
        · exact (Posts.pure _).mono List.nil_subperm
  have hfield : Posts nodes
      (decl.initializer.toList.flatMap fun e => [⟨.initializerNotAllowed, e.id, 'I'⟩])
      (concludeField decl property) := by
    unfold concludeField
    dsimp only
    split
    · exact (posts_recordBackingField property).bind_first fun _ => hinitializer
    · exact hinitializer
  refine .get_bind fun s => ?_
  dsimp only
  split
  · have hreport : Posts nodes [.semantic decl.id 'T']
        (reportCode .semanticError decl.id untypedProperty) :=
      posts_reportSemantic _ (by rfl)
    refine hreport.bind fun _ => ?_
    exact (posts_fillPropertyType ..).bind_first fun _ => hfield
  · exact hfield.mono (List.sublist_cons_self ..).subperm

theorem postsOr_resolvePropertyBodies
    (options : AnalysisOptions) {decl : PropertyDecl} (hnumber : HasNumberedBodies decl)
    (hnodes : decl.nodes ⊆ nodes) (scope property : Nat) :
    PostsOr (Session.Posts nodes) decl.places
      (resolvePropertyBodies options scope decl property) := by
  refine .get_bind fun s => ?_
  split
  · exact (PostsOr.throw _).none
  · rename_i data _
    have hrest : PostsOr (Session.Posts nodes)
        (accessorPlaces decl.getter ++ accessorPlaces decl.setter ++ decl.conclusionPlaces)
        (finishProperty options scope decl property data) := by
      refine (posts_createScope ..).lift.bind_first fun accessorScope => ?_
      refine (posts_onScopes _).lift.bind_first fun _ => ?_
      refine (postsOr_observed _ (postsOr_resolveAccessors options hnumber hnodes ..)).bind
        fun _ => ?_
      exact (posts_concludeProperty decl property).lift
    obtain ⟨-, hnodes⟩ := List.cons_subset.mp hnodes
    simp only [List.append_subset] at hnodes
    dsimp only
    split
    · rename_i initializer heq
      have hinitializer : initializer.nodes ⊆ nodes := by
        rw [heq] at hnodes
        exact hnodes.1.1.2
      have hplaces : decl.initializerPlaces = initializer.places ++ [.mismatch initializer.id] := by
        rw [PropertyDecl.initializerPlaces, heq, Option.toList_some, List.flatMap_singleton]
      rw [PropertyDecl.places, hplaces]
      exact (posts_resolveInitializer hinitializer ..).lift.bind fun _ => hrest
    · exact hrest.mono (List.sublist_append_right ..).subperm

/-! ## Constructors -/

/-- A constructor is resolved with its delegation list. References to missing backing fields are
only noted. -/
theorem postsOr_resolveConstructorParts
    (options : AnalysisOptions) {decl : ConstructorDecl} (hnodes : decl.nodes ⊆ nodes)
    (scope classId : Nat) :
    PostsOr (Session.Posts nodes) (FunctionLike.constructor decl).places
      (resolveConstructorParts options scope classId decl) := by
  obtain ⟨-, hnodes⟩ := List.cons_subset.mp hnodes
  simp only [List.append_subset] at hnodes
  refine PostsOr.bind (PostsOr.forM _ fun d hd => Posts.lift ?_) fun _ => ?_
  · refine posts_resolveConstructorInitializer (fun node hnode => hnodes.1.2 ?_) ..
    exact List.mem_flatMap.mpr ⟨d, hd, hnode⟩
  · cases hbody : decl.body with
    | none => exact .pure _
    | some body =>
        rw [hbody] at hnodes
        rw [Option.toList_some, List.flatMap_singleton]
        exact (posts_infer scope body hnodes.2).lift.bind fun _ => postsOr_reportUnreachable ..

/-- What has been noted is reported at the end. -/
theorem postsOr_resolveConstructorBody
    (options : AnalysisOptions) (properties : Nat → List Nat) {decl : ConstructorDecl}
    (hnodes : decl.nodes ⊆ nodes) (scope constructor : Nat) :
    PostsOr (Session.PostsUnwatched nodes) (FunctionLike.constructor decl).places
      (resolveConstructorBody options properties scope decl constructor) := by
  refine .get_bind fun s => ?_
  split
  · exact (PostsOr.throw _).none
  · rename_i classId _
    refine (posts_createScope ..).lift.unwatched.bind_first fun fieldScope => .get_bind fun s => ?_
    refine (posts_onScopes _).lift.unwatched.bind_first fun _ => ?_
    refine (postsOr_functionInnerScope ..).unwatched.bind_first fun inner => ?_
    have hparts := postsOr_resolveConstructorParts options hnodes inner classId
    have hcode : DiagnosticCode.backingFieldMisuse ≠ .unresolvedReference := by decide
    have hviolations : ∀ noted : List Nat, PostsOr (Session.Posts nodes) (noted.map .misuse)
        (noted.forM fun node => (reportCode .backingFieldMisuse node
          "This property does not have a backing field" : FaultyAnalysis Unit)) :=
      fun noted => PostsOr.forM_map noted fun node _ =>
        (posts_reportCode hcode node (by rfl)).lift
    refine KeepsOr.of_afterOr fun s => AfterAny.imp fun hnone => ?_
    have hrun := hparts.afterOr { s with recorder := s.recorder.watch (.guard []) }
    refine afterOr_bind.mpr (AfterOr.observed ?_)
    refine AfterOr.mono hrun (fun _ s' hs' => ?_) fun _ s' hs' => ?_
    · obtain ⟨reported, hreported, hsub⟩ := Session.Posts.unwatch_guard hnone hs'
      refine AfterAny.mono ((hviolations _).afterOr _) fun s'' hs'' => ?_
      exact (hreported.append hs'').mono hsub
    · exact Session.Posts.unwatch hs'

end Analysis

end DeclAnalysis

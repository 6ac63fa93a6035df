import DeclAnalysis.Proofs.Tree.Enclosing
import DeclAnalysis.Proofs.Tree.Roots
import DeclAnalysis.Proofs.Typing.Places

/-!
# The places of declarations

To every declaration belong the places at which one of the passes may report something about it,
the declarations inside it left aside. If no two nodes have the same number, no place belongs to
two declarations, or twice to one of them.
-/

namespace DeclAnalysis

namespace Place

/-- Something that is not supported. -/
def unsupported (node : Nat) : Place := ⟨.unsupportedConstruct, node, 'U'⟩

/-- An expression that is never executed. -/
def unreachable (node : Nat) : Place := ⟨.unreachableCode, node, 'U'⟩

/-- A supertype without arguments for its constructor. -/
def bareSupertype (node : Nat) : Place := ⟨.constructorParametersRequired, node, 'C'⟩

end Place

/-! ## Bodies -/

namespace Expr

/-- The places at which something may be reported about the return points of a body. No type is
demanded there while the body is typed. -/
def returnPlaces (body : Expr) : List Place :=
  body.nodes.map .unsupported ++ (body.nodes.filter (· ∉ body.demands)).map .mismatch

/-- The places at which parts of a body may be reported to be unreachable. -/
def unreachablePlaces (body : Expr) : List Place := body.nodes.map .unreachable

/-- What is reported about return points is not reported while the body is typed. -/
theorem spread_returnPlaces {body : Expr} (hnodup : body.nodes.Nodup) :
    Place.Spread body.nodes (body.places ++ body.returnPlaces) := by
  have htyping := body.spread_places hnodup
  have hunsupported : Place.Spread body.nodes (body.nodes.map .unsupported) :=
    .map (fun _ => rfl) hnodup
  have hmismatch : Place.Spread (body.nodes.filter (· ∉ body.demands)) _ :=
    .map (f := .mismatch) (fun _ => rfl) (hnodup.filter _)
  have hreturn : Place.Spread body.nodes body.returnPlaces := by
    refine .append_codes [.typeMismatch] hunsupported
      (hmismatch.mono (List.filter_sublist ..).subset) ?_ ?_
    · intro p hp
      obtain ⟨node, -, rfl⟩ := List.mem_map.mp hp
      simp [Place.unsupported]
    · intro p hp
      obtain ⟨node, -, rfl⟩ := List.mem_map.mp hp
      exact List.mem_cons_self
  refine ⟨htyping.nodup.append hreturn.nodup fun p hp hp' => ?_, fun p hp => ?_⟩
  · have hcases := body.ofTyping_of_mem p hp
    rcases List.mem_append.mp hp' with hp' | hp'
    · obtain ⟨node, -, rfl⟩ := List.mem_map.mp hp'
      simp [OfTyping, Place.unsupported] at hcases
    · obtain ⟨node, hnode, rfl⟩ := List.mem_map.mp hp'
      rw [List.mem_filter, decide_eq_true_eq] at hnode
      rcases hcases with h | h | h | ⟨h, -⟩
      · exact hnode.2 h.2
      · cases h
      · cases h
      · cases h
  · exact (List.mem_append.mp hp).elim (htyping.node_mem p) (hreturn.node_mem p)

/-- The places at which something may be reported about a body that is resolved as that of a
function. -/
def bodyPlaces (body : Expr) : List Place :=
  (body.places ++ body.returnPlaces) ++ body.unreachablePlaces

/-- Only what is never executed is reported to be unreachable. -/
theorem spread_append_unreachablePlaces
    {body : Expr} {places : List Place} (hnodup : body.nodes.Nodup)
    (hspread : Place.Spread body.nodes places)
    (hcodes : ∀ p ∈ places, p.code ≠ .unreachableCode) :
    Place.Spread body.nodes (places ++ body.unreachablePlaces) := by
  have hunreachable : Place.Spread body.nodes body.unreachablePlaces := .map (fun _ => rfl) hnodup
  refine hspread.append_codes [.unreachableCode] hunreachable ?_ ?_
  · exact fun p hp h => hcodes p hp (List.mem_singleton.mp h)
  · intro p hp
    obtain ⟨node, -, rfl⟩ := List.mem_map.mp hp
    exact List.mem_cons_self

theorem code_ne_of_mem_places {body : Expr} {p : Place} (hp : p ∈ body.places) :
    p.code ≠ .unreachableCode := by
  rcases body.ofTyping_of_mem p hp with h | h | h | ⟨h, -⟩
  · rw [h.1]
    decide
  all_goals
    rw [h]
    decide

theorem spread_bodyPlaces {body : Expr} (hnodup : body.nodes.Nodup) :
    Place.Spread body.nodes body.bodyPlaces := by
  refine spread_append_unreachablePlaces hnodup (spread_returnPlaces hnodup) fun p hp => ?_
  rcases List.mem_append.mp hp with hp | hp
  · exact code_ne_of_mem_places hp
  · rcases List.mem_append.mp hp with hp | hp
    · obtain ⟨node, -, rfl⟩ := List.mem_map.mp hp
      nofun
    · obtain ⟨node, -, rfl⟩ := List.mem_map.mp hp
      nofun

/-- The places at which something may be reported about the body of a function, of which there
may be none. -/
def functionPlaces (node : Nat) : Option Expr → List Place
  | none => [⟨.missingReturnTypeAndBody, node, 'T'⟩]
  | some body => body.bodyPlaces

theorem spread_functionPlaces
    {node : Nat} {body : Option Expr} (hnodup : (node :: optionalNodes body).Nodup) :
    Place.Spread (node :: optionalNodes body) (functionPlaces node body) := by
  cases body with
  | none => exact .one rfl
  | some body =>
      exact (spread_bodyPlaces (List.nodup_cons.mp hnodup).2).mono (List.subset_cons_self ..)

end Expr

/-! ## Parts of declarations -/

/-- The places at which parameters may be reported that have no type. -/
def parameterPlaces (ps : List Parameter) : List Place :=
  ps.flatMap fun p => [.semantic p.id 'A']

theorem spread_parameterPlaces {ps : List Parameter} (hnodup : (parameterNodes ps).Nodup) :
    Place.Spread (parameterNodes ps) (parameterPlaces ps) := by
  refine .flatMap hnodup fun p _ _ => ?_
  have hone : Place.Spread [p.id] [.semantic p.id 'A'] := .one rfl
  exact hone.mono (List.cons_subset_cons _ (List.nil_subset _))

/-- The places at which an import directive may be reported. -/
def ImportDirective.places (i : ImportDirective) : List Place :=
  i.imported.toList.flatMap fun e => e.places ++ [.semantic e.id 'C']

theorem Expr.semantic_not_mem_places (e : Expr) : Place.semantic e.id 'C' ∉ e.places := by
  intro h
  have hcases := e.ofTyping_of_mem _ h
  simp [OfTyping, Place.semantic] at hcases

namespace DelegationSpecifier

/-- The place at which a type may be reported that is no supertype. -/
def supertypePlaces (d : DelegationSpecifier) : List Place :=
  d.typeRef?.toList.flatMap fun ref => [.quoting ref.id]

/-- The places at which an entry of the delegation list of a class may be reported. -/
def classPlaces : DelegationSpecifier → List Place
  | byExpression _ _ (some e) => e.places ++ [.mismatch e.id]
  | superCall id (some _) arguments =>
    Expr.placesOf arguments ++ [.semantic id 'N', .quoting id]
  | superClass id _ => [.bareSupertype id]
  | byExpression _ _ none | superCall _ none _ | thisCall .. => []

/-- The places at which an entry of the delegation list of a constructor may be reported. -/
def constructorPlaces : DelegationSpecifier → List Place
  | byExpression id _ _ => [.quoting id]
  | superCall id (some _) arguments =>
    Expr.placesOf arguments ++ [.semantic id 'N', .quoting id]
  | superClass id _ => [.bareSupertype id]
  | superCall _ none _ => []
  | thisCall id arguments => Expr.placesOf arguments ++ [.semantic id 'N']

theorem spread_arguments
    {id : Nat} {arguments : List Expr} {p q : Place} (hne : p ≠ q) (hp : p.node = id)
    (hq : q.node = id) (hnodup : (id :: Expr.nodesOf arguments).Nodup) :
    Place.Spread (id :: Expr.nodesOf arguments) (Expr.placesOf arguments ++ [p, q]) := by
  obtain ⟨hid, hnodup⟩ := List.nodup_cons.mp hnodup
  have hown : Place.Spread [id] [p, q] := .two hne hp hq
  have hdisjoint : (Expr.nodesOf arguments).Disjoint [id] := List.disjoint_singleton.mpr hid
  refine ((Expr.spread_placesOf arguments hnodup).append hown hdisjoint).mono fun node hnode => ?_
  rcases List.mem_append.mp hnode with h | h
  · exact List.mem_cons_of_mem id h
  · exact List.mem_cons.mpr (.inl (List.mem_singleton.mp h))

/-- What is reported about the delegation list of a class is reported beside its supertypes. -/
theorem spread_classPlaces {d : DelegationSpecifier} (hnodup : d.nodes.Nodup) :
    Place.Spread d.nodes (d.supertypePlaces ++ d.classPlaces) := by
  have hsupertype (ref : TypeRef) : Place.Spread [ref.id] [.quoting ref.id] := .one rfl
  match d with
  | byExpression id ref none =>
      exact (hsupertype ref).mono fun node hnode => List.mem_cons_of_mem id hnode
  | byExpression id ref (some e) =>
      obtain ⟨-, hnodup⟩ := List.nodup_cons.mp hnodup
      obtain ⟨href, hnodup⟩ := List.nodup_cons.mp hnodup
      have hdelegate : Place.Spread e.nodes (e.places ++ [.mismatch e.id]) :=
        Expr.spread_concluded (e.spread_places hnodup) rfl (Expr.mismatch_id_not_mem_places hnodup)
      refine ((hsupertype ref).append hdelegate (List.singleton_disjoint.mpr href)).mono ?_
      exact List.subset_cons_self ..
  | superCall id none arguments => exact .nil _
  | superCall id (some ref) arguments =>
      change (id :: ref.id :: Expr.nodesOf arguments).Nodup at hnodup
      obtain ⟨hid, hnodup⟩ := List.nodup_cons.mp hnodup
      obtain ⟨href, hnodup⟩ := List.nodup_cons.mp hnodup
      rw [List.mem_cons, not_or] at hid
      have hdisjoint : List.Disjoint [ref.id] (id :: Expr.nodesOf arguments) := by
        rw [List.singleton_disjoint, List.mem_cons, not_or]
        exact ⟨Ne.symm hid.1, href⟩
      have hcall : Place.Spread (id :: Expr.nodesOf arguments)
          (Expr.placesOf arguments ++ [.semantic id 'N', .quoting id]) :=
        spread_arguments (by simp [Place.semantic, Place.quoting]) rfl rfl (List.nodup_cons.mpr ⟨hid.2, hnodup⟩)
      exact ((hsupertype ref).append hcall hdisjoint).mono (List.Perm.swap ..).subset
  | superClass id ref =>
      have hdisjoint : List.Disjoint [ref.id] [id] := by
        rw [List.singleton_disjoint]
        exact fun h => (List.nodup_cons.mp hnodup).1 (List.mem_singleton.mp h ▸ List.mem_cons_self)
      have hown : Place.Spread [id] [.bareSupertype id] := .one rfl
      exact ((hsupertype ref).append hown hdisjoint).mono (List.Perm.swap ..).subset
  | thisCall .. => exact .nil _

theorem spread_constructorPlaces {d : DelegationSpecifier} (hnodup : d.nodes.Nodup) :
    Place.Spread d.nodes d.constructorPlaces := by
  match d with
  | byExpression id ref delegate =>
      have hown : Place.Spread [id] [.quoting id] := .one rfl
      exact hown.mono (List.cons_subset_cons _ (List.nil_subset _))
  | superCall id none arguments => exact .nil _
  | superCall id (some ref) arguments =>
      have hsub : (id :: Expr.nodesOf arguments).Sublist (superCall id (some ref) arguments).nodes :=
        (List.sublist_cons_self ..).cons_cons id
      have hcall : Place.Spread (id :: Expr.nodesOf arguments)
          (Expr.placesOf arguments ++ [.semantic id 'N', .quoting id]) :=
        spread_arguments (by simp [Place.semantic, Place.quoting]) rfl rfl (hnodup.sublist hsub)
      exact hcall.mono hsub.subset
  | superClass id ref =>
      have hown : Place.Spread [id] [.bareSupertype id] := .one rfl
      exact hown.mono (List.cons_subset_cons _ (List.nil_subset _))
  | thisCall id arguments =>
      have hcall : Place.Spread (id :: Expr.nodesOf arguments)
          (Expr.placesOf arguments ++ [.semantic id 'N', .quoting id]) :=
        spread_arguments (by simp [Place.semantic, Place.quoting]) rfl rfl hnodup
      refine ⟨hcall.nodup.sublist ?_, fun p hp => hcall.node_mem p ?_⟩
      · exact (List.Sublist.refl _).append (List.sublist_append_left [_] _)
      · exact ((List.Sublist.refl _).append (List.sublist_append_left [_] _)).subset hp

end DelegationSpecifier

theorem ImportDirective.spread_places {i : ImportDirective} (hnodup : i.nodes.Nodup) :
    Place.Spread i.nodes i.places := by
  unfold nodes places at *
  cases himported : i.imported with
  | none => exact .nil _
  | some e =>
      rw [himported] at hnodup
      have hspread := e.spread_places (List.nodup_cons.mp hnodup).2
      have htarget : Place.Spread e.nodes (e.places ++ [.semantic e.id 'C']) :=
        Expr.spread_concluded hspread rfl e.semantic_not_mem_places
      rw [Option.toList_some, List.flatMap_singleton]
      exact htarget.mono (List.subset_cons_self ..)

/-! ## Properties -/

/-- The places at which the initializer of a property may be reported. -/
def PropertyDecl.initializerPlaces (decl : PropertyDecl) : List Place :=
  decl.initializer.toList.flatMap fun e => e.places ++ [.mismatch e.id]

/-- The places at which an accessor may be reported. -/
def accessorPlaces (a : Option Accessor) : List Place :=
  a.toList.flatMap fun a => Expr.functionPlaces a.id a.body

/-- The places at which a property may be reported when its accessors have been resolved. -/
def PropertyDecl.conclusionPlaces (decl : PropertyDecl) : List Place :=
  .semantic decl.id 'T' ::
    decl.initializer.toList.flatMap fun e => [⟨.initializerNotAllowed, e.id, 'I'⟩]

/-- The places at which a property may be reported. -/
def PropertyDecl.places (decl : PropertyDecl) : List Place :=
  decl.initializerPlaces ++ (accessorPlaces decl.getter ++ accessorPlaces decl.setter
    ++ decl.conclusionPlaces)

theorem spread_accessorPlaces
    {a : Option Accessor} (hnodup : (a.toList.flatMap Accessor.nodes).Nodup) :
    Place.Spread (a.toList.flatMap Accessor.nodes) (accessorPlaces a) := by
  refine .flatMap hnodup fun a _ ha => ?_
  have hsub : (a.id :: Expr.optionalNodes a.body).Sublist a.nodes :=
    (List.sublist_append_right ..).cons_cons a.id
  exact (Expr.spread_functionPlaces (ha.sublist hsub)).mono hsub.subset

theorem PropertyDecl.spread_initializer
    {decl : PropertyDecl} (hnodup : (Expr.optionalNodes decl.initializer).Nodup) :
    Place.Spread (Expr.optionalNodes decl.initializer) (decl.initializerPlaces ++
      decl.initializer.toList.flatMap fun e => [⟨.initializerNotAllowed, e.id, 'I'⟩]) := by
  unfold initializerPlaces
  cases hinitializer : decl.initializer with
  | none => exact .nil _
  | some e =>
      rw [hinitializer] at hnodup
      have hown : Place.Spread e.nodes (e.places ++ [.mismatch e.id]) :=
        Expr.spread_concluded (e.spread_places hnodup) rfl (Expr.mismatch_id_not_mem_places hnodup)
      have hrefused : Place.Spread e.nodes [⟨.initializerNotAllowed, e.id, 'I'⟩] :=
        (Place.Spread.one rfl).mono (List.cons_subset.mpr ⟨e.id_mem_nodes, List.nil_subset _⟩)
      simp only [Option.toList_some, List.flatMap_singleton]
      refine hown.append_codes [.initializerNotAllowed] hrefused ?_ ?_
      · intro p hp
        rcases List.mem_append.mp hp with hp | hp
        · rcases e.ofTyping_of_mem p hp with h | h | h | ⟨h, -⟩
          · simp [h.1]
          all_goals simp [h]
        · simp [List.mem_singleton.mp hp, Place.mismatch]
      · intro p hp
        rw [List.mem_singleton.mp hp]
        exact List.mem_cons_self

theorem PropertyDecl.spread_places {decl : PropertyDecl} (hnodup : decl.nodes.Nodup) :
    Place.Spread decl.nodes decl.places := by
  obtain ⟨hid, hnodup⟩ := List.nodup_cons.mp hnodup
  obtain ⟨hnodup, hsetter, hsetterDisjoint⟩ := List.nodup_append'.mp hnodup
  obtain ⟨hnodup, hgetter, hgetterDisjoint⟩ := List.nodup_append'.mp hnodup
  obtain ⟨-, hinitializer, -⟩ := List.nodup_append'.mp hnodup
  have hown : Place.Spread [decl.id] [.semantic decl.id 'T'] := .one rfl
  have hparts := (((spread_initializer hinitializer).append (spread_accessorPlaces hgetter)
    fun n hn => hgetterDisjoint (List.mem_append_right _ hn)).append
      (spread_accessorPlaces hsetter) ?_).append hown ?_
  · refine (hparts.perm ?_).mono ?_
    · classical
      exact List.perm_iff_count.mpr fun p => by
        simp only [places, conclusionPlaces, List.count_append, List.count_cons, List.count_nil]
        omega
    · intro n hn
      simp only [nodes, List.mem_append, List.mem_cons, List.not_mem_nil] at hn ⊢
      tauto
  · intro n hn
    refine hsetterDisjoint ?_
    simp only [List.mem_append] at hn ⊢
    tauto
  · refine List.disjoint_singleton.mpr fun h => hid ?_
    simp only [List.mem_append] at h ⊢
    tauto

/-- At the node of a property itself it is only reported that no type has been found. -/
theorem PropertyDecl.eq_of_mem_places
    {decl : PropertyDecl} (hnodup : decl.nodes.Nodup) {p : Place} (hp : p ∈ decl.places)
    (hnode : p.node = decl.id) : p = .semantic decl.id 'T' := by
  obtain ⟨hid, hnodup⟩ := List.nodup_cons.mp hnodup
  obtain ⟨hnodup, hsetter, -⟩ := List.nodup_append'.mp hnodup
  obtain ⟨hnodup, hgetter, -⟩ := List.nodup_append'.mp hnodup
  obtain ⟨-, hinitializer, -⟩ := List.nodup_append'.mp hnodup
  rw [← hnode] at hid
  simp only [List.mem_append, not_or] at hid
  have hinside := (spread_initializer hinitializer).node_mem p
  simp only [places, conclusionPlaces, List.mem_append, List.mem_cons] at hp hinside
  rcases hp with hp | (hp | hp) | rfl | hp
  · exact absurd (hinside (.inl hp)) hid.1.1.2
  · exact absurd ((spread_accessorPlaces hgetter).node_mem p hp) hid.1.2
  · exact absurd ((spread_accessorPlaces hsetter).node_mem p hp) hid.2
  · rfl
  · exact absurd (hinside (.inr hp)) hid.1.1.2

/-! ## Declarations -/

/-- The places at which a function or constructor may be reported when its body is resolved. -/
def FunctionLike.places : FunctionLike → List Place
  | .function decl => Expr.functionPlaces decl.id decl.body
  | .constructor decl =>
    decl.initializers.flatMap DelegationSpecifier.constructorPlaces ++
      decl.body.toList.flatMap fun body => body.places ++ body.unreachablePlaces

namespace Declaration

/-- The places at which a declaration may be reported when it is collected. -/
def collectPlaces : Declaration → List Place
  | namespaceDecl head _ => head.imports.flatMap ImportDirective.places
  | _ => []

/-- The places at which the supertypes of a class may be reported. -/
def supertypePlaces (d : Declaration) : List Place :=
  d.classHead?.toList.flatMap fun head =>
    head.delegationSpecifiers.flatMap DelegationSpecifier.supertypePlaces

/-- The places at which a declaration may be reported when it is registered. -/
def registerPlaces : Declaration → List Place
  | classDecl head _ => parameterPlaces (head.primaryConstructor.getD [])
  | classObject id _ => [⟨.unsupportedConstruct, id, 'C'⟩]
  | typedefDecl id _ | extensionDecl id _ => [.unsupported id]
  | functionDecl decl => parameterPlaces decl.parameters
  | constructorDecl decl =>
    ⟨.misplacedConstructor, decl.id, 'C'⟩ :: parameterPlaces decl.parameters
  | namespaceDecl .. | propertyDecl _ => []

/-- The places at which the delegation list of a class may be reported. -/
def delegationPlaces (d : Declaration) : List Place :=
  d.classHead?.toList.flatMap fun head =>
    head.delegationSpecifiers.flatMap DelegationSpecifier.classPlaces

/-- The places at which the bodies of a property may be reported. -/
def propertyPlaces (d : Declaration) : List Place :=
  d.property?.toList.flatMap PropertyDecl.places

/-- The places at which the body of a function or constructor may be reported. -/
def functionPlaces : Declaration → List Place
  | functionDecl decl => (FunctionLike.function decl).places
  | constructorDecl decl => (FunctionLike.constructor decl).places
  | _ => []

/-- The places at which a declaration may be reported, in the order of the passes. -/
def places (d : Declaration) : List Place :=
  d.collectPlaces ++ (d.supertypePlaces ++ (d.registerPlaces ++
    (d.delegationPlaces ++ (d.propertyPlaces ++ d.functionPlaces))))

theorem places_propertyDecl (decl : PropertyDecl) :
    (Declaration.propertyDecl decl).places = decl.places := by
  simp [places, collectPlaces, supertypePlaces, registerPlaces, delegationPlaces, propertyPlaces,
    functionPlaces, classHead?, property?]

theorem spread_class {head : ClassHead} (hnodup : head.nodes.Nodup) :
    Place.Spread head.nodes
      (head.delegationSpecifiers.flatMap DelegationSpecifier.supertypePlaces ++
        (parameterPlaces (head.primaryConstructor.getD []) ++
          head.delegationSpecifiers.flatMap DelegationSpecifier.classPlaces)) := by
  obtain ⟨-, hnodup⟩ := List.nodup_cons.mp hnodup
  obtain ⟨hparameters, hspecifiers, hdisjoint⟩ := List.nodup_append'.mp hnodup
  have hdelegations : Place.Spread _ (head.delegationSpecifiers.flatMap fun d =>
      d.supertypePlaces ++ d.classPlaces) :=
    .flatMap hspecifiers fun _ _ => DelegationSpecifier.spread_classPlaces
  have hparts := (spread_parameterPlaces hparameters).append hdelegations hdisjoint
  refine (hparts.perm ?_).mono (List.subset_cons_self ..)
  refine ((List.flatMap_append_perm ..).symm.append_left _).trans ?_
  rw [← List.append_assoc, ← List.append_assoc]
  exact List.perm_append_comm.append_right _

theorem spread_function {decl : FunctionDecl} (hnodup : decl.nodes.Nodup) :
    Place.Spread decl.nodes
      (parameterPlaces decl.parameters ++ Expr.functionPlaces decl.id decl.body) := by
  obtain ⟨hid, hnodup⟩ := List.nodup_cons.mp hnodup
  obtain ⟨hnodup, hbody, hdisjoint⟩ := List.nodup_append'.mp hnodup
  have hparameters := (List.nodup_append'.mp hnodup).1
  rw [List.mem_append, List.mem_append, not_or, not_or] at hid
  have hown : (decl.id :: Expr.optionalNodes decl.body).Nodup :=
    List.nodup_cons.mpr ⟨hid.2, hbody⟩
  have hparts := (spread_parameterPlaces hparameters).append (Expr.spread_functionPlaces hown)
    (List.disjoint_cons_right.mpr ⟨hid.1.1, fun n hn => hdisjoint (List.mem_append_left _ hn)⟩)
  refine hparts.mono fun n hn => ?_
  simp only [FunctionDecl.nodes, List.mem_append, List.mem_cons] at hn ⊢
  tauto

theorem spread_constructorBody
    {body : Option Expr} (hnodup : (Expr.optionalNodes body).Nodup) :
    Place.Spread (Expr.optionalNodes body)
      (body.toList.flatMap fun body => body.places ++ body.unreachablePlaces) := by
  cases body with
  | none => exact .nil _
  | some body =>
      rw [Option.toList_some, List.flatMap_singleton]
      exact Expr.spread_append_unreachablePlaces hnodup (body.spread_places hnodup)
        fun _ => Expr.code_ne_of_mem_places

theorem spread_constructor {decl : ConstructorDecl} (hnodup : decl.nodes.Nodup) :
    Place.Spread decl.nodes
      ((⟨.misplacedConstructor, decl.id, 'C'⟩ :: parameterPlaces decl.parameters) ++
        (FunctionLike.constructor decl).places) := by
  obtain ⟨hid, hnodup⟩ := List.nodup_cons.mp hnodup
  obtain ⟨hhead, hbody, hbodyDisjoint⟩ := List.nodup_append'.mp hnodup
  obtain ⟨hparameters, hinitializers, hdisjoint⟩ := List.nodup_append'.mp hhead
  have hown : Place.Spread [decl.id] [⟨.misplacedConstructor, decl.id, 'C'⟩] := .one rfl
  have hlist : Place.Spread _ (decl.initializers.flatMap DelegationSpecifier.constructorPlaces) :=
    .flatMap hinitializers fun _ _ => DelegationSpecifier.spread_constructorPlaces
  have hparts := hown.append (((spread_parameterPlaces hparameters).append hlist hdisjoint).append
    (spread_constructorBody hbody) hbodyDisjoint) (List.singleton_disjoint.mpr hid)
  rw [List.append_assoc (parameterPlaces _)] at hparts
  exact hparts

/-- All that may be reported about a declaration is reported at different places. -/
theorem spread_places {d : Declaration} (hnodup : d.ownNodes.Nodup) :
    Place.Spread d.ownNodes d.places := by
  cases d with
  | namespaceDecl head members =>
      obtain ⟨-, himports⟩ := List.nodup_cons.mp hnodup
      have hspread : Place.Spread _ (head.imports.flatMap ImportDirective.places) :=
        .flatMap himports fun _ _ => ImportDirective.spread_places
      have hplaces : (namespaceDecl head members).places =
          head.imports.flatMap ImportDirective.places := List.append_nil _
      rw [hplaces]
      exact hspread.mono (List.subset_cons_self head.id _)
  | classDecl head members =>
      have hplaces : (classDecl head members).places =
          head.delegationSpecifiers.flatMap DelegationSpecifier.supertypePlaces ++
            (parameterPlaces (head.primaryConstructor.getD []) ++
              head.delegationSpecifiers.flatMap DelegationSpecifier.classPlaces) := by
        simp [places, collectPlaces, supertypePlaces, registerPlaces, delegationPlaces,
          propertyPlaces, functionPlaces, classHead?, property?]
      rw [hplaces]
      exact spread_class hnodup
  | typedefDecl id _ | extensionDecl id _ | classObject id _ => exact .one rfl
  | functionDecl decl => exact spread_function hnodup
  | propertyDecl decl =>
      have hplaces : (propertyDecl decl).places = decl.places := by
        simp [places, collectPlaces, supertypePlaces, registerPlaces, delegationPlaces,
          propertyPlaces, functionPlaces, classHead?, property?]
      rw [hplaces]
      exact PropertyDecl.spread_places hnodup
  | constructorDecl decl => exact spread_constructor hnodup

end Declaration

end DeclAnalysis

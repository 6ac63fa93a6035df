import DeclAnalysis.Proofs.Resolve.Body
import DeclAnalysis.Proofs.Resolve.SignatureFrame

/-!
# Bodies within a frame

Bodies, accessors and constructors are resolved in scopes of their own, so that anything may
be declared in them. The initializer of a property is resolved in the scope that the property
stands in, and a delegation list in the scope of the members of the class: these are the only
scopes in which resolving bodies may bind a name that are there already.
-/

namespace DeclAnalysis

theorem Accessor.typeRefs_body_subset
    {o : Option Accessor} {refs : List TypeRef} (h : o.toList.flatMap Accessor.typeRefs ⊆ refs)
    {a : Accessor} (ha : o = some a) : Expr.optionalTypeRefs a.body ⊆ refs := by
  subst ha
  intro ref href
  refine h (List.mem_flatMap.mpr ⟨a, List.mem_cons_self, ?_⟩)
  exact List.mem_append_right _ href

/-- The names that the initializer of a property declares outside of its blocks. -/
def PropertyDecl.openLocals (decl : PropertyDecl) : List String :=
  decl.initializer.toList.flatMap Expr.openLocals

/-- The names that the delegation list of a class declares outside of blocks. -/
def ClassHead.openLocals (head : ClassHead) : List String :=
  head.delegationSpecifiers.flatMap DelegationSpecifier.openLocals

namespace Analysis

open Session (AllowsFilling AllowsMismatches AllowsRemarks Ground)

variable {R : Session → Session → Prop} {g : Ground} {nodes : List Nat} {locals : List String}
  {refs : List TypeRef} [hR : g.Allows nodes R] [hM : AllowsMismatches nodes R]
  [hU : AllowsRemarks .unreachableCode nodes R] [hF : AllowsFilling R]

include hR hM hU hF

/-! ### Functions and accessors -/

/-- A body is resolved in a new scope. -/
theorem keepsFrom_resolveFunctionBody
    (options : AnalysisOptions) (node : Nat) {body : Option Expr}
    (hnodes : Expr.optionalNodes body ⊆ nodes) (hrefs : Expr.optionalTypeRefs body ⊆ refs)
    (function scope : Nat) :
    KeepsOr (From (g.admits locals refs scope) R)
      (resolveFunctionBody options node body function scope) := by
  refine KeepsOr.get_bind fun s => ?_
  cases body with
  | none =>
      dsimp only
      split
      · refine KeepsOr.bind (KeepsOr.lift (keeps_reportOther (by decide) ..)) fun _ => ?_
        exact (keepsTypes_setReturnType ..).from
      · exact KeepsOr.pure _
  | some body =>
      refine KeepsOr.bind_from (fun s hs => afterOr_functionInnerScope hs function)
        fun inner => ?_
      split
      · exact (keepsFrom_checkReturnType inner node hnodes hrefs function).bind fun _ =>
          keepsOr_reportUnreachable hnodes ..
      · refine (keepsFrom_inferReturnType _ inner node hnodes hrefs).bind fun inferred => ?_
        exact (keepsTypes_setReturnType ..).from.bind fun _ =>
          keepsOr_reportUnreachable hnodes ..

/-! ### Properties -/

omit hU in
/-- The initializer of a property is resolved in the scope that the property stands in. -/
theorem keepsFrom_resolveInitializer
    {initializer : Expr} (hnodes : initializer.nodes ⊆ nodes)
    (hrefs : initializer.typeRefs ⊆ refs) (hlocals : initializer.openLocals ⊆ locals)
    (scope property : Nat) (setter : Option Nat) :
    Keeps (From (g.admits locals refs scope) R)
      (resolveInitializer scope property setter initializer) := by
  refine (keepsFrom_inferWithin scope initializer hnodes hrefs hlocals).bind fun inferred => ?_
  refine Keeps.get_bind fun s => ?_
  refine (keeps_expectKnownType (hnodes initializer.id_mem_nodes) ..).bind fun _ => ?_
  split
  · exact (keepsTypes_fillPropertyType ..).from
  · exact Keeps.pure _

theorem keepsFrom_resolveAccessors
    (options : AnalysisOptions) {decl : PropertyDecl} (hnodes : decl.nodes ⊆ nodes)
    (hrefs : decl.typeRefs ⊆ refs) (property : Nat) (data : PropertyData) (scope : Nat) :
    KeepsOr (From (g.admits locals refs scope) R)
      (resolveAccessors options decl property data scope) := by
  obtain ⟨-, hparts⟩ := List.cons_subset.mp hnodes
  simp only [List.append_subset] at hparts
  simp only [PropertyDecl.typeRefs, List.append_subset] at hrefs
  have hsetter : KeepsOr (From (g.admits locals refs scope) R)
      (resolveSetterBody options decl data scope) := by
    unfold resolveSetterBody
    split
    · rename_i accessor setter heq
      have haccessor := (Prod.mk.inj heq).1
      exact keepsFrom_resolveFunctionBody options accessor.id
        (accessor_body_subset hparts.2 haccessor)
        (Accessor.typeRefs_body_subset hrefs.2 haccessor) setter scope
    · exact KeepsOr.pure _
  unfold resolveAccessors
  dsimp only
  split
  · rename_i accessor getter heq
    have haccessor := (Prod.mk.inj heq).1
    refine KeepsOr.bind (keepsFrom_resolveFunctionBody options accessor.id
      (accessor_body_subset hparts.1.2 haccessor)
      (Accessor.typeRefs_body_subset hrefs.1.2 haccessor) getter scope) fun _ => ?_
    refine KeepsOr.get_bind fun s => ?_
    split
    · exact KeepsOr.bind (KeepsOr.from (KeepsOr.lift (keepsTypes_fillPropertyType ..)))
        fun _ => hsetter
    · exact hsetter
  · exact hsetter

omit hM hU in
theorem keepsTypes_concludeProperty (decl : PropertyDecl) (property : Nat) :
    Keeps R (concludeProperty decl property) := by
  refine Keeps.get_bind fun s => ?_
  dsimp only
  split
  · refine (keeps_reportOther (by decide) ..).bind fun _ => ?_
    exact (keepsTypes_fillPropertyType ..).bind fun _ => keeps_concludeField decl property
  · exact keeps_concludeField decl property

/-- The accessors of a property are resolved in a new scope. -/
theorem keepsFrom_resolvePropertyBodies
    (options : AnalysisOptions) {decl : PropertyDecl} (hnodes : decl.nodes ⊆ nodes)
    (hrefs : decl.typeRefs ⊆ refs) (hlocals : decl.openLocals ⊆ locals) (scope property : Nat) :
    KeepsOr (From (g.admits locals refs scope) R)
      (resolvePropertyBodies options scope decl property) := by
  refine KeepsOr.get_bind fun s => ?_
  split
  · exact KeepsOr.throw _
  rename_i data _
  have hrest : KeepsOr (From (g.admits locals refs scope) R)
      (finishProperty options scope decl property data) := by
    refine KeepsOr.bind_from (fun s hs => AfterOr.lift
      (Ground.Allows.createScope hs .accessor none)) fun inner => ?_
    have hfield : Keeps (From (g.fresh refs inner) R)
        (onScopes (·.addField inner decl.name property)) :=
      ⟨fun s hs => Ground.Allows.bind hs (fun _ => rfl) (fun _ => rfl) fun _ => rfl⟩
    refine KeepsOr.bind (KeepsOr.lift hfield) fun _ => ?_
    have hkeeps : KeepsOr (From (g.admits [] refs inner) R)
        (resolveAccessors options decl property data inner) :=
      keepsFrom_resolveAccessors options hnodes hrefs property data inner
    have haccessors : KeepsOr (From (g.fresh refs inner) R)
        (resolveAccessors options decl property data inner) :=
      hkeeps.mono fun _ _ h hs => h (Ground.Allows.admits_of_fresh R hs [])
    refine (keepsOr_observed _ haccessors).bind fun _ => ?_
    exact KeepsOr.from (KeepsOr.lift (keepsTypes_concludeProperty (g := g) decl property))
  dsimp only
  split
  · rename_i initializer heq
    obtain ⟨-, hparts⟩ := List.cons_subset.mp hnodes
    simp only [List.append_subset, heq] at hparts
    simp only [PropertyDecl.typeRefs, List.append_subset, heq] at hrefs
    have hlocal : initializer.openLocals ⊆ locals := fun name hname =>
      hlocals (List.mem_flatMap.mpr ⟨initializer, Option.mem_toList.mpr heq, hname⟩)
    exact KeepsOr.bind (KeepsOr.lift (keepsFrom_resolveInitializer hparts.1.1.2 hrefs.1.1.2
      hlocal ..)) fun _ => hrest
  · exact hrest

end Analysis

end DeclAnalysis

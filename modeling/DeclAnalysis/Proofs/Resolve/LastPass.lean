import DeclAnalysis.Proofs.Resolve.Body
import DeclAnalysis.Proofs.Resolve.Pass
import DeclAnalysis.Proofs.Tree.Enclosing

/-!
# Steps of the last pass

The last pass enters nothing in the tables. While it resolves the bodies of some declarations,
it fills in types and looks at no node outside of these declarations.
-/

namespace DeclAnalysis

open Session (Proceeds)

namespace PassState

/-- Nothing has been entered in the tables, and the session has proceeded at some nodes. -/
structure Advances (nodes : List Nat) (s s' : PassState) : Prop where
  proceeds : Proceeds nodes s.toSession s'.toSession
  tables_eq : s'.tables = s.tables

variable {nodes : List Nat}

theorem Advances.trans
    {s s' s'' : PassState} (h : Advances nodes s s') (h' : Advances nodes s' s'') :
    Advances nodes s s'' :=
  ⟨h.proceeds.trans h'.proceeds, h'.tables_eq.trans h.tables_eq⟩

instance : IsPreorder PassState (Advances nodes) where
  refl s := ⟨.refl nodes s.toSession, rfl⟩
  trans _ _ _ := .trans

instance {R : Session → Session → Prop} [IsPreorder Session R] :
    IsPreorder PassState (InvImage R toSession) where
  refl s := refl_of R s.toSession
  trans _ _ _ := trans_of R

end PassState

namespace Pass

open Analysis
open PassState (Advances)

variable {nodes : List Nat}

section

variable {R : PassState → PassState → Prop} [IsPreorder PassState R]

theorem keepsOr_ofExcept {α : Type} (e : Except Fault α) : KeepsOr R (ofExcept e) := by
  cases e with
  | ok a => exact KeepsOr.pure a
  | error fault => exact KeepsOr.throw fault

theorem keepsOr_tables : KeepsOr R tables :=
  .of_afterOr fun s => afterOr_tables.mpr (refl_of R s)

theorem keepsOr_session : KeepsOr R session :=
  .of_afterOr fun s => afterOr_session.mpr (refl_of R s)

/-- After its body, only the return type of a function or constructor is looked at. -/
theorem keepsOr_requireReturnType (node descriptor : Nat) :
    KeepsOr R (do
      if ((← session).descriptors.returnType? descriptor).isNone then
        throw (.at_ node .returnTypeUnset) : Pass Unit) := by
  refine keepsOr_session.bind fun s => ?_
  split
  · exact KeepsOr.throw _
  · exact KeepsOr.pure _

end

theorem keepsOr_faultyAnalysis
    {α : Type} {x : FaultyAnalysis α} (h : KeepsOr (Proceeds nodes) x) :
    KeepsOr (Advances nodes) (liftM x : Pass α) := by
  refine KeepsOr.of_afterOr fun s => afterOr_faultyAnalysis.mpr ?_
  exact AfterAny.mono (h.afterOr s.toSession) fun _ h => ⟨h, rfl⟩

/-- It is enough that the bodies of functions and those of constructors are resolved so. -/
theorem keepsOr_resolveFunctionLike_of
    {R : PassState → PassState → Prop} [IsPreorder PassState R] {options : AnalysisOptions}
    {f : FunctionLike} {descriptor : Nat}
    (hfunction : ∀ decl, f = .function decl → ∀ scope, KeepsOr R
      (liftM (resolveFunctionBody options decl.id decl.body descriptor scope) : Pass Unit))
    (hconstructor : ∀ decl, f = .constructor decl → ∀ properties scope, KeepsOr R
      (liftM (resolveConstructorBody options properties scope decl descriptor) : Pass Unit)) :
    KeepsOr R (resolveFunctionLike options f descriptor) := by
  refine keepsOr_tables.bind fun tables => (keepsOr_ofExcept _).bind fun scope => ?_
  cases f with
  | function decl => exact (hfunction decl rfl scope).bind fun _ => keepsOr_requireReturnType ..
  | constructor decl =>
      exact (hconstructor decl rfl _ scope).bind fun _ => keepsOr_requireReturnType ..

theorem keepsOr_resolveFunctionLike
    (options : AnalysisOptions) {f : FunctionLike} (hnodes : f.nodes.tail ⊆ nodes)
    (descriptor : Nat) :
    KeepsOr (Advances nodes) (resolveFunctionLike options f descriptor) := by
  refine keepsOr_resolveFunctionLike_of (fun decl hf scope => ?_) fun decl hf properties scope => ?_
  · subst hf
    have hbody : Expr.optionalNodes decl.body ⊆ nodes := fun node hnode =>
      hnodes (List.mem_append_right _ hnode)
    exact keepsOr_faultyAnalysis
      (keepsOr_resolveFunctionBody options decl.id hbody descriptor scope)
  · subst hf
    exact keepsOr_faultyAnalysis
      (keepsOr_resolveConstructorBody options properties hnodes scope descriptor)

/-- The bodies of a property, after the scope that it stands in has been found. -/
theorem keepsOr_resolveProperty
    (options : AnalysisOptions) {decl : PropertyDecl} (hnodes : decl.nodes.tail ⊆ nodes)
    (t : Tables) (property : Nat) :
    KeepsOr (Advances nodes) (do
      let scope ← ofExcept (t.declaringScope decl.id)
      resolvePropertyBodies options scope decl property : Pass Unit) :=
  (keepsOr_ofExcept _).bind fun scope =>
    keepsOr_faultyAnalysis (keepsOr_resolvePropertyBodies options hnodes scope property)

end Pass

end DeclAnalysis

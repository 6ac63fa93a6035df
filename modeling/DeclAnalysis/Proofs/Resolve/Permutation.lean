import DeclAnalysis.Report
import DeclAnalysis.Proofs.Resolve.Outcome

/-!
# The order of declarations

Numbering leaves the constructs alone at which an analysis stops, so the order of the
declarations of a file has no influence on whether it is analysed to its end. It does have an
influence on what is reported then: bodies are resolved in the order of the declarations, and
the call of a function whose return type is found out only later is not checked.
-/

namespace DeclAnalysis

theorem ImportDirective.length_unhandled_numberAll (n : Nat) (is : List ImportDirective) :
    ((numberAll n is).flatMap unhandled).length = (is.flatMap unhandled).length := by
  induction is generalizing n with
  | nil => rfl
  | cons i rest ih =>
      have hhead : (i.number n).unhandled.length = i.unhandled.length := by
        cases habsolute : i.absoluteInRoot <;> cases hall : i.allUnder <;>
          simp [unhandled, number, habsolute, hall]
      simp only [numberAll, List.flatMap_cons, List.length_append, hhead, ih]

theorem DelegationSpecifier.length_thisCalls_numberAll (n : Nat) (ss : List DelegationSpecifier) :
    ((numberAll n ss).flatMap (·.thisCall?.toList)).length =
      (ss.flatMap (·.thisCall?.toList)).length := by
  induction ss generalizing n with
  | nil => rfl
  | cons s rest ih =>
      have hhead : (s.number n).thisCall?.toList.length = s.thisCall?.toList.length := by
        cases s <;> rfl
      simp only [numberAll, List.flatMap_cons, List.length_append, hhead, ih]

theorem ClassHead.length_thisCallFaults (head : ClassHead) :
    head.thisCallFaults.length =
      (head.delegationSpecifiers.flatMap (·.thisCall?.toList)).length := by
  unfold thisCallFaults
  induction head.delegationSpecifiers with
  | nil => rfl
  | cons s rest ih =>
      simp only [List.flatMap_cons, List.length_append, List.length_map, ih]

namespace Declaration

/-- The faults that a declaration itself may lead to. -/
def faults (d : Declaration) : List Fault := d.unhandled ++ d.thisCallFaults

mutual

/-- Numbering neither adds nor removes a construct that leads to a fault. -/
theorem length_faults_number (n : Nat) (d : Declaration) :
    ((d.number n).nested.flatMap faults).length = (d.nested.flatMap faults).length := by
  match d with
  | namespaceDecl head members =>
      simp only [number, nested, List.flatMap_cons, List.length_append,
        length_faults_numberAll, faults, unhandled, thisCallFaults, NamespaceHead.number,
        ImportDirective.length_unhandled_numberAll]
  | classDecl head members =>
      simp only [number, nested, List.flatMap_cons, List.length_append,
        length_faults_numberAll, faults, unhandled, thisCallFaults, ClassHead.number,
        ClassHead.length_thisCallFaults, DelegationSpecifier.length_thisCalls_numberAll]
  | classObject id members =>
      simp only [number, nested, List.flatMap_cons, List.length_append,
        length_faults_numberAll, faults, unhandled, thisCallFaults]
  | typedefDecl .. | extensionDecl .. | functionDecl _ | propertyDecl _ | constructorDecl _ => rfl

theorem length_faults_numberAll (n : Nat) (ds : List Declaration) :
    ((nestedIn (numberAll n ds)).flatMap faults).length =
      ((nestedIn ds).flatMap faults).length := by
  match ds with
  | [] => rfl
  | d :: rest =>
      simp only [numberAll, nestedIn, List.flatMap_append, List.length_append,
        length_faults_number, length_faults_numberAll]

end

theorem nestedIn_eq_flatMap (ds : List Declaration) : nestedIn ds = ds.flatMap nested := by
  induction ds with
  | nil => rfl
  | cons d rest ih => rw [nestedIn, ih, List.flatMap_cons]

end Declaration

namespace SourceFile

/-- Whether an analysis stops with a fault is decided by the declarations before they are
numbered. -/
theorem isSome_fault_analyze_eq
    (name : String) (ds : List Declaration) (options : AnalysisOptions) :
    ((ofDeclarations name ds).analyze options).fault.isSome =
      decide (0 < ((Declaration.nestedIn ds).flatMap Declaration.faults).length) := by
  have hnodup := (pairwise_nodes_ofDeclarations name ds).imp Nat.ne_of_lt
  have hperm := List.flatMap_append_perm
    (Declaration.nestedIn (ofDeclarations name ds).declarations)
    Declaration.unhandled Declaration.thisCallFaults
  have hlength := hperm.length_eq.trans (Declaration.length_faults_numberAll 1 ds)
  rw [fault_analyze hnodup options, Bool.eq_iff_iff, List.isSome_head?, ← List.length_pos_iff,
    decide_eq_true_iff, ← hlength]
  rfl

/-- The order of the declarations has no influence on whether an analysis stops with a fault. -/
theorem isSome_fault_analyze_of_perm
    {ds ds' : List Declaration} (h : ds.Perm ds') (name : String) (options : AnalysisOptions) :
    ((ofDeclarations name ds).analyze options).fault.isSome =
      ((ofDeclarations name ds').analyze options).fault.isSome := by
  have hfaults := (h.flatMap_right Declaration.nested).flatMap_right Declaration.faults
  rw [isSome_fault_analyze_eq, isSome_fault_analyze_eq, Declaration.nestedIn_eq_flatMap,
    Declaration.nestedIn_eq_flatMap, hfaults.length_eq]

/-- A function that declares the return type `Int` and calls the function `b`. -/
def caller : Declaration :=
  .functionDecl {
    name := "a"
    returnType := some { name := "Int" }
    body := some (.call 0 "b" []) }

/-- A function `b` whose body is a text. -/
def callee : Declaration :=
  .functionDecl { name := "b", body := some (.constant 0 (.string "s")) }

set_option maxRecDepth 20000 in
theorem isSome_fault_analyze_caller_callee :
    [caller, callee].Perm [callee, caller] ∧
      ((ofDeclarations "f" [caller, callee]).analyze {}).fault.isSome =
        ((ofDeclarations "f" [callee, caller]).analyze {}).fault.isSome ∧
      ((ofDeclarations "f" [callee, caller]).analyze {}).fault = none := by
  have hperm : [caller, callee].Perm [callee, caller] := .swap ..
  exact ⟨hperm, isSome_fault_analyze_of_perm hperm "f" {}, by decide +kernel⟩

set_option maxRecDepth 20000 in
/-- What is reported depends on the order of two functions with different names, although
neither order leads to a fault: the wrong return type is found only when the function that is
called comes first. -/
theorem diagnostics_analyze_caller_callee :
    [caller, callee].Perm [callee, caller] ∧
      ((Engine.analyze {}) (ofDeclarations "f" [caller, callee])).fault = none ∧
      ((Engine.analyze {}) (ofDeclarations "f" [callee, caller])).fault = none ∧
      ((Engine.analyze {}) (ofDeclarations "f" [caller, callee])).diagnostics = [] ∧
      ((Engine.analyze {}) (ofDeclarations "f" [callee, caller])).diagnostics.map
          (fun d => (d.diagnostic.code, d.diagnostic.message, d.label)) =
        [(.typeMismatch, "Type mismatch: inferred type is String but Int was expected",
          "call to \x60b\x60")] := by
  refine ⟨.swap .., ?_, ?_, ?_, ?_⟩
  all_goals decide +kernel

end SourceFile

end DeclAnalysis

import DeclAnalysis.Proofs.Flow.Demands
import DeclAnalysis.Proofs.Resolve.Unreachable
import DeclAnalysis.Proofs.Resolve.Subroutines
import DeclAnalysis.Proofs.Typing.ReturnTypes

/-!
# Checks of declared return types

The body of a function or accessor with a known return type is typed, and then its return points
are compared with that type. Typing has recorded a type for each of them and says nothing about
them itself. So what is reported about the return points are exactly those with a wrong type.
-/

namespace DeclAnalysis

open Session (Ground OnlyReports Tacit Types)

theorem Expr.IsReturnPoint.element_mem_lastNodes
    {body : Expr} {step : Step} (h : body.IsReturnPoint step) : step.element ∈ body.lastNodes :=
  List.mem_map_of_mem (List.mem_append.mpr h.1)

/-! ## Reports about several nodes -/

/-- Of what is reported about different nodes, only what is reported about a node itself is
about it. -/
theorem filter_node_flatMap
    {f : Nat → List Diagnostic} (hf : ∀ x, ∀ d ∈ f x, d.node = x) {xs : List Nat}
    (hnodup : xs.Nodup) (x : Nat) :
    (xs.flatMap f).filter (fun d => d.node = x) = if x ∈ xs then f x else [] := by
  induction xs with
  | nil => rfl
  | cons y rest ih =>
      obtain ⟨hy, hrest⟩ := List.nodup_cons.mp hnodup
      rw [List.flatMap_cons, List.filter_append, ih hrest]
      by_cases heq : y = x
      · subst heq
        have hkept : (f y).filter (fun d => d.node = y) = f y :=
          List.filter_eq_self.mpr fun d hd => decide_eq_true (hf y d hd)
        rw [hkept, if_neg hy, if_pos List.mem_cons_self, List.append_nil]
      · have hdropped : (f y).filter (fun d => d.node = x) = [] := by
          refine List.filter_eq_nil_iff.mpr fun d hd hnode => heq ?_
          rw [← hf y d hd]
          exact of_decide_eq_true hnode
        have hmem : x ∈ y :: rest ↔ x ∈ rest := by
          rw [List.mem_cons, or_iff_right (Ne.symm heq)]
        simp only [hdropped, List.nil_append, hmem]

namespace Session

variable {s : Session}

/-- What is reported about a node of which the type is known and not convertible to the expected
one. -/
def mismatch (s : Session) (expected : Ty) (node : Nat) : Option Ty → List Diagnostic
  | none => []
  | some actual =>
    if s.descriptors.isConvertible actual expected then [] else [.mismatch node expected actual]

theorem eq_of_mem_mismatch
    {expected : Ty} {node : Nat} {actual : Option Ty} {d : Diagnostic}
    (h : d ∈ s.mismatch expected node actual) : d.node = node ∧ d.code = .typeMismatch := by
  cases actual with
  | none => cases h
  | some actual =>
      by_cases hconvertible : s.descriptors.isConvertible actual expected = true
      · rw [mismatch, if_pos hconvertible] at h
        cases h
      · rw [mismatch, if_neg hconvertible] at h
        obtain rfl := List.mem_singleton.mp h
        exact ⟨rfl, rfl⟩

/-- What is reported about the return points of a body that are of the wrong type. -/
def mismatches (s : Session) (expected : Ty) (points : ReturnedInformation) : List Diagnostic :=
  points.expressions.flatMap (fun x => s.mismatch expected x (s.trace.expressionType? x))
    ++ points.unitReturning.flatMap fun x => s.mismatch expected x (some .unit)

theorem node_of_mem_mismatches
    {expected : Ty} {points : ReturnedInformation} {d : Diagnostic}
    (h : d ∈ s.mismatches expected points) :
    (d.node ∈ points.expressions ∨ d.node ∈ points.unitReturning) ∧ d.code = .typeMismatch := by
  rcases List.mem_append.mp h with h | h
  · obtain ⟨x, hx, hd⟩ := List.mem_flatMap.mp h
    obtain ⟨hnode, hcode⟩ := eq_of_mem_mismatch hd
    exact ⟨.inl (hnode ▸ hx), hcode⟩
  · obtain ⟨x, hx, hd⟩ := List.mem_flatMap.mp h
    obtain ⟨hnode, hcode⟩ := eq_of_mem_mismatch hd
    exact ⟨.inr (hnode ▸ hx), hcode⟩

/-- What is of the wrong type depends on the classes and on the recorded types alone. -/
theorem mismatches_congr
    {s' : Session} (hdescriptors : s'.descriptors = s.descriptors) (htrace : s'.trace = s.trace)
    (expected : Ty) (points : ReturnedInformation) :
    s'.mismatches expected points = s.mismatches expected points := by
  unfold mismatches mismatch
  rw [hdescriptors, htrace]

@[simp] theorem mismatches_reporting
    (s : Session) (ds : List Diagnostic) (expected : Ty) (points : ReturnedInformation) :
    (s.reporting ds).mismatches expected points = s.mismatches expected points :=
  mismatches_congr (s.descriptors_reporting ds) (s.trace_reporting ds) expected points

theorem Typed.of_trace_eq
    {s' : Session} {nodes : List Nat} (h : s.Typed nodes) (htrace : s'.trace = s.trace) :
    s'.Typed nodes := by
  unfold Typed
  rw [htrace]
  exact h

theorem Typed.reporting
    {nodes : List Nat} (h : s.Typed nodes) (ds : List Diagnostic) : (s.reporting ds).Typed nodes :=
  h.of_trace_eq (s.trace_reporting ds)

end Session

namespace Analysis

variable {s : Session}

/-! ## Checking return points -/

theorem reports_expectKnownType
    (node : Nat) (expected : Ty) (actual : Option Ty) (s : Session) :
    Reports (expectKnownType node (some expected) actual) s (s.mismatch expected node actual) := by
  cases actual with
  | none => exact s.reporting_nil.symm
  | some actual =>
      refine AfterOr.lift (after_bind.mpr (after_get.mpr ?_))
      by_cases h : s.descriptors.isConvertible actual expected = true
      · simp only [Session.mismatch, h, if_true]
        exact s.reporting_nil.symm
      · simp only [Session.mismatch, h]
        exact reports_report (.mismatch node expected actual) s

/-- All return points are compared with the expected type. -/
theorem reports_checkReturnPoints
    (expected : Ty) (points : ReturnedInformation) (s : Session) :
    Reports (checkReturnPoints expected points) s (s.mismatches expected points) := by
  refine Reports.bind (Reports.forM (fun x ds => ?_) points.expressions) ?_
  · refine afterOr_bind.mpr (afterOr_get.mpr ?_)
    exact reports_expectKnownType x expected (s.trace.expressionType? x) (s.reporting ds)
  · refine afterOr_bind.mpr (afterOr_get.mpr ?_)
    rw [Session.descriptors_reporting]
    by_cases hconvertible : s.descriptors.isConvertible .unit expected = true
    · have hnone :
          points.unitReturning.flatMap (fun x => s.mismatch expected x (some .unit)) = [] := by
        refine List.flatMap_eq_nil_iff.mpr fun x _ => ?_
        rw [Session.mismatch, if_pos hconvertible]
      rw [hnone, hconvertible]
      exact (Session.reporting_nil _).symm
    · rw [if_pos (by simpa using hconvertible)]
      refine Reports.forM (fun x ds => ?_) points.unitReturning
      rw [Session.mismatch, if_neg hconvertible]
      exact reports_report (.mismatch x expected .unit) _

/-- Asking for the return points of a body reports the opaque ones. -/
theorem afterOk_returnPoints_ofBody (subroutine : Nat) (body : Expr) (s : Session) :
    AfterOk (returnPoints (.data (.ofBody subroutine body)) subroutine) s fun points s' =>
      points = (FlowGraph.ofBody subroutine body).returned ∧
        s' = s.reporting (points.unsupported.map Diagnostic.unsupportedElement) := by
  unfold AfterOk AfterOr After
  rw [run_returnPoints (FlowInformation.returned_ofBody subroutine body) s]
  exact ⟨rfl, rfl⟩

/-! ## Checking the body of a function -/

/-- What is reported when the return points of a body are checked: nothing but their mismatches is
added where no type is demanded, and none of them lacks a type. -/
structure ReportsMismatched
    (subroutine : Nat) (body : Expr) (expected : Ty) (s s' : Session) : Prop where
  typed : s'.Typed body.evaluated
  mismatches_eq : s'.reportsBeside .typeMismatch body.demands =
    s.reportsBeside .typeMismatch body.demands ++
      s'.mismatches expected (FlowGraph.ofBody subroutine body).returned

namespace ReportsMismatched

variable {subroutine : Nat} {body : Expr} {expected : Ty} {s s' s'' : Session}

/-- Typing that happens before does not count. -/
theorem of_tacit
    {nodes : List Nat} (h : ReportsMismatched subroutine body expected s' s'')
    (hbefore : Tacit body.demands nodes s s') : ReportsMismatched subroutine body expected s s'' :=
  ⟨h.typed, by rw [h.mismatches_eq, hbefore.mismatches_eq]⟩

/-- Nor do reports under another code that come later. -/
theorem of_onlyReports
    {code : DiagnosticCode} (h : ReportsMismatched subroutine body expected s s')
    (hafter : OnlyReports code s' s'') (hcode : .typeMismatch ≠ code) :
    ReportsMismatched subroutine body expected s s'' := by
  have htrace : s''.trace = s'.trace := congrArg Recorder.trace hafter.recorder_eq
  have hdescriptors : s''.descriptors = s'.descriptors := congrArg Model.descriptors hafter.model_eq
  refine ⟨h.typed.of_trace_eq htrace, ?_⟩
  unfold Session.reportsBeside
  rw [hafter.reports_eq hcode, Session.mismatches_congr hdescriptors htrace]
  exact h.mismatches_eq

end ReportsMismatched

/-- Return points are last steps, so no type is demanded of them. -/
theorem filter_mismatches
    {body : Expr} {points : ReturnedInformation} (hnodes : body.nodes.Nodup)
    (hpoints : points.Lists body) (expected : Ty) :
    ((s.mismatches expected points).filter fun d => d.code = .typeMismatch).filter
      (fun d => d.node ∉ body.demands) = s.mismatches expected points := by
  rw [List.filter_filter]
  refine List.filter_eq_self.mpr fun d hd => ?_
  obtain ⟨hnode, hcode⟩ := Session.node_of_mem_mismatches hd
  have hlast : d.node ∈ body.lastNodes := by
    rcases hnode with hnode | hnode
    · rcases (hpoints.mem_expressions d.node).mp hnode with h | h
      · exact h.element_mem_lastNodes
      · exact h.element_mem_lastNodes
    · rcases (hpoints.mem_unitReturning d.node).mp hnode with h | h
      · exact h.element_mem_lastNodes
      · exact h.element_mem_lastNodes
  have hdemanded : d.node ∉ body.demands :=
    fun hdemand => Expr.not_mem_lastNodes_of_mem_demands hnodes hdemand hlast
  simp only [hcode, hdemanded, not_false_eq_true, decide_true, Bool.and_self]

theorem filter_unsupportedElement (elements : List Nat) :
    (elements.map Diagnostic.unsupportedElement).filter (fun d => d.code = .typeMismatch) = [] := by
  refine List.filter_eq_nil_iff.mpr fun d hd => ?_
  obtain ⟨element, -, rfl⟩ := List.mem_map.mp hd
  nofun

section

variable (subroutine n : Nat) {e : Expr} (hlambda : (e.number n).LambdaFree) {function : Nat}
  {expected : Ty} (hdeclared : s.descriptors.returnType? function = some expected)

include hlambda hdeclared

/-- Checking a body reports the return points that are of the wrong type. -/
theorem afterOk_checkReturnType_mismatched (scope : Nat) :
    AfterOk (checkReturnType (.data (.ofBody subroutine (e.number n))) scope subroutine
      (some (e.number n)) function) s
      fun _ => ReportsMismatched subroutine (e.number n) expected s := by
  have hnodes := Expr.nodup_nodes_number n e
  have hadmits : Ground.free.admits (e.number n).openLocals (e.number n).typeRefs scope s := trivial
  have htacit : Keeps (From (Ground.free.admits _ _ scope)
      (Tacit (e.number n).demands (e.number n).nodes)) (infer scope (e.number n)) :=
    keepsFrom_infer scope (e.number n) (List.Subset.refl _) (List.Subset.refl _)
      (List.Subset.refl _) (List.Subset.refl _)
  refine afterOr_bind.mpr (afterOr_get.mpr ?_)
  rw [hdeclared]
  refine AfterOr.bind (AfterOr.lift ((records_infer scope (e.number n) hlambda s).and
    (htacit.after s))) fun _ s₁ h₁ => ?_
  obtain ⟨⟨-, htyped, -⟩, htacit⟩ := h₁
  refine AfterOr.bind (afterOk_returnPoints_ofBody subroutine (e.number n) s₁) fun _ s₂ h₂ => ?_
  obtain ⟨rfl, rfl⟩ := h₂
  have hlists := FlowGraph.lists_returned_ofBody subroutine n e
  refine AfterOk.mono (reports_checkReturnPoints expected _ _) fun _ s₃ h₃ => ?_
  subst h₃
  refine ⟨?_, ?_⟩
  · exact (htyped.reporting _).reporting _
  · simp only [Session.mismatches_reporting]
    unfold Session.reportsBeside
    rw [Session.reports_reporting, Session.reports_reporting, filter_unsupportedElement,
      List.append_nil, List.filter_append, filter_mismatches hnodes hlists]
    have hbefore := (htacit hadmits).mismatches_eq
    unfold Session.reportsBeside at hbefore
    rw [hbefore]

/-- Resolving the body of a function with a declared return type reports the return points that
are of the wrong type. -/
theorem afterOr_resolveFunctionBody_mismatched (options : AnalysisOptions) (scope : Nat) :
    AfterOr (resolveFunctionBody options subroutine (some (e.number n)) function scope) s
      (fun _ => ReportsMismatched subroutine (e.number n) expected s) fun _ _ => True := by
  have hadmits : Ground.free.admits [] (e.number n).typeRefs scope s := trivial
  have hinner : AfterOr (functionInnerScope scope function) s (fun _ s₁ =>
      Tacit (e.number n).demands (e.number n).nodes s s₁ ∧
        s₁.descriptors.returnType? function = some expected) fun _ _ => True := by
    refine AfterOr.relax (AfterOr.run_eq _ s) fun _ s₁ hrun => ⟨?_, ?_⟩
    · exact ((afterOr_functionInnerScope hadmits function).of_run_eq hrun).1
    · have htypes : Types [] s s₁ :=
        ((keepsOr_functionInnerScope scope function).afterOr s).of_run_eq hrun
      exact htypes.proceeds.fills.returnType?_eq hdeclared
  refine afterOr_bind.mpr (afterOr_get.mpr ?_)
  refine AfterOr.bind hinner fun inner s₁ h₁ => ?_
  dsimp only
  rw [if_pos (Option.isSome_of_eq_some hdeclared)]
  have hcheck := afterOk_checkReturnType_mismatched subroutine n hlambda h₁.2 inner
  refine AfterOr.bind hcheck.afterOr fun _ s₂ h₂ => ?_
  have hreport : KeepsOr (OnlyReports .unreachableCode) (reportUnreachable options
      (.data (.ofBody subroutine (e.number n))) subroutine (e.number n)) :=
    keepsOr_reportUnreachable (List.Subset.refl _) ..
  refine AfterOr.relax (hreport.afterOr s₂) fun _ s₃ h₃ => ?_
  exact (h₂.of_tacit h₁.1).of_onlyReports h₃ nofun

end

end Analysis

/-! ## Return points when the analysis ends -/

/-- The return points of a body have been compared with the expected type: each that is reached
and has a value by the type that is recorded for it, each that is reached and has none by the unit
type, and no other. The classes are those that were known when the body had been resolved. -/
structure ReturnsChecked (body : Expr) (expected : Ty) (resolved final : Session) : Prop where
  value : ∀ x, body.IsReturnPoint ⟨.read, x⟩ ∨ body.IsReturnPoint ⟨.readUnit, x⟩ →
    ∃ actual, final.trace.expressionType? x = some actual ∧
      final.reportsAt .typeMismatch x =
        if resolved.descriptors.isConvertible actual expected then []
        else [.mismatch x expected actual]
  unit : ∀ x, body.IsReturnPoint ⟨.write, x⟩ ∨ body.IsReturnPoint ⟨.returnUnit, x⟩ →
    final.reportsAt .typeMismatch x =
      if resolved.descriptors.isConvertible .unit expected then []
      else [.mismatch x expected .unit]
  unchecked : ∀ s ∈ body.tails false ++ body.finals false,
    ¬(body.behaviour false).Performs s ∨ s.kind = .unsupported →
      final.reportsAt .typeMismatch s.element = []

namespace Analysis

namespace ReportsMismatched

variable {subroutine n : Nat} {e : Expr} {expected : Ty} {s s' : Session}
  (h : ReportsMismatched subroutine (e.number n) expected s s')

include h

/-- What is reported about a last step of the body when nothing has been before. -/
theorem reportsAt_eq
    {x : Nat} (hlast : x ∈ (e.number n).lastNodes) (hnone : s.reportsAt .typeMismatch x = []) :
    s'.reportsAt .typeMismatch x =
      (if x ∈ (FlowGraph.ofBody subroutine (e.number n)).returned.expressions then
        s'.mismatch expected x (s'.trace.expressionType? x) else []) ++
      if x ∈ (FlowGraph.ofBody subroutine (e.number n)).returned.unitReturning then
        s'.mismatch expected x (some .unit) else [] := by
  have hlists := FlowGraph.lists_returned_ofBody subroutine n e
  have hnodes := Expr.nodup_nodes_number n e
  have hbeside : x ∉ (e.number n).demands :=
    fun hdemand => Expr.not_mem_lastNodes_of_mem_demands hnodes hdemand hlast
  rw [Session.reportsAt_eq_filter_reportsBeside _ _ hbeside] at hnone ⊢
  rw [h.mismatches_eq, List.filter_append, hnone, List.nil_append, Session.mismatches,
    List.filter_append,
    filter_node_flatMap (fun _ _ hd => (Session.eq_of_mem_mismatch hd).1)
      hlists.nodup_expressions,
    filter_node_flatMap (fun _ _ hd => (Session.eq_of_mem_mismatch hd).1)
      hlists.nodup_unitReturning]

/-- So each return point is reported about as far as it is of the wrong type. -/
theorem returnsChecked
    (hnone : ∀ x ∈ (e.number n).nodes, s.reportsAt .typeMismatch x = []) :
    ReturnsChecked (e.number n) expected s' s' := by
  have hlists := FlowGraph.lists_returned_ofBody subroutine n e
  have hnodes := Expr.nodup_nodes_number n e
  have hreports := fun {x : Nat} (hlast : x ∈ (e.number n).lastNodes) =>
    h.reportsAt_eq hlast (hnone x (Expr.lastNodes_subset hnodes hlast))
  refine ⟨fun x hx => ?_, fun x hx => ?_, fun t ht hunchecked => ?_⟩
  · have hmem := (hlists.mem_expressions x).mpr hx
    have hlast := hx.elim (·.element_mem_lastNodes) (·.element_mem_lastNodes)
    obtain ⟨actual, hactual⟩ :=
      Option.isSome_iff_exists.mp (h.typed x (hlists.expressions_subset_evaluated hmem))
    refine ⟨actual, hactual, ?_⟩
    rw [hreports hlast, if_pos hmem, if_neg (hlists.not_mem_unitReturning hmem), hactual,
      List.append_nil, Session.mismatch]
  · have hmem := (hlists.mem_unitReturning x).mpr hx
    have hlast := hx.elim (·.element_mem_lastNodes) (·.element_mem_lastNodes)
    rw [hreports hlast, if_neg fun hvalue => hlists.not_mem_unitReturning hvalue hmem, if_pos hmem,
      List.nil_append, Session.mismatch]
  · have hlast : t.element ∈ (e.number n).lastNodes := List.mem_map_of_mem ht
    have hunlisted : ¬(t.element ∈ (FlowGraph.ofBody subroutine (e.number n)).returned.expressions ∨
        t.element ∈ (FlowGraph.ofBody subroutine (e.number n)).returned.unitReturning) := by
      intro hlisted
      obtain ⟨t', hpoint, helement, hkind⟩ := hlists.exists_isReturnPoint hlisted
      obtain rfl := hpoint.eq_of_element_eq (List.mem_append.mp ht) helement.symm
      exact hunchecked.elim (· hpoint.2) hkind
    obtain ⟨hvalue, hunit⟩ := not_or.mp hunlisted
    rw [hreports hlast, if_neg hvalue, if_neg hunit, List.append_nil]

end ReportsMismatched

end Analysis

namespace Session

open Analysis (ReportsMismatched)

/-- When the body of a function with a declared return type is resolved, the return points that are
of the wrong type are reported. -/
theorem Resolves.reportsMismatched
    {options : AnalysisOptions} {d : Declaration} {b : Body} {n : Nat} {e : Expr}
    (hnumber : b.expr = e.number n) (hlambda : b.expr.LambdaFree) {s s' : Session}
    (h : Resolves options d b s s') {function : Nat} (himplements : s.Implements d b function)
    {expected : Ty} (hdeclared : s.descriptors.returnType? function = some expected) :
    ReportsMismatched b.subroutine (e.number n) expected s s' := by
  rw [hnumber] at hlambda
  cases h with
  | constructor _ hrole => exact absurd hrole himplements.role_ne
  | function himplements' hrun =>
      obtain ⟨scope, hrun⟩ := hrun
      rw [hnumber, himplements.unique himplements'] at hrun
      exact (Analysis.afterOr_resolveFunctionBody_mismatched b.subroutine n hlambda hdeclared
        options scope).of_run_eq hrun

end Session

namespace ReturnsChecked

variable {body : Expr} {expected : Ty} {resolved s s' : Session}

/-- What is known of the return points of a body does not change when other nodes are looked at. -/
theorem congr_final
    (h : ReturnsChecked body expected resolved s) (hnodes : body.nodes.Nodup)
    (htypes : ∀ x ∈ body.nodes, s'.trace.expressionType? x = s.trace.expressionType? x)
    (hreports : ∀ x ∈ body.nodes, s'.reportsAt .typeMismatch x = s.reportsAt .typeMismatch x) :
    ReturnsChecked body expected resolved s' := by
  have hlast : ∀ t ∈ body.tails false ++ body.finals false, t.element ∈ body.nodes :=
    fun t ht => Expr.lastNodes_subset hnodes (List.mem_map_of_mem ht)
  refine ⟨fun x hx => ?_, fun x hx => ?_, fun t ht => ?_⟩
  · have hnode : x ∈ body.nodes := Expr.lastNodes_subset hnodes
      (hx.elim (·.element_mem_lastNodes) (·.element_mem_lastNodes))
    rw [htypes x hnode, hreports x hnode]
    exact h.value x hx
  · have hnode : x ∈ body.nodes := Expr.lastNodes_subset hnodes
      (hx.elim (·.element_mem_lastNodes) (·.element_mem_lastNodes))
    rw [hreports x hnode]
    exact h.unit x hx
  · rw [hreports t.element (hlast t ht)]
    exact h.unchecked t ht

end ReturnsChecked

namespace SourceFile

/-- The checks of declared return types are exact. An analysis that no fault stops resolves the
body of every function and accessor once. If the return type of the function is known by then and
there is no lambda in the body, then what has been reported about the return points of the body to
be of the wrong type when the analysis ends are exactly the ones whose recorded type is not
convertible to it, or if they have no value, for which the unit type is not. All of these have a
recorded type, they are the ones that the flow of the body lists, and last steps that are never
executed are not compared. -/
theorem returnPoints_checked
    (name : String) (ds : List Declaration) (options : AnalysisOptions)
    (hfault : ((ofDeclarations name ds).analyze options).fault = none)
    {q : Option Declaration × Declaration} {b : Body}
    (hq : q ∈ Declaration.enclosedIn none (ofDeclarations name ds).declarations)
    (hb : b ∈ Declaration.subroutines q) (hrole : b.role ≠ .constructor)
    (hlambda : b.expr.LambdaFree) :
    (FlowGraph.ofBody b.subroutine b.expr).returned.Lists b.expr ∧
      (∃ s₀ s₁ function, (ofDeclarations name ds).ResolvesBody options q b s₀ s₁ ∧
        s₀.Implements q.2 b function) ∧
      ∀ s₀ s₁ function expected, (ofDeclarations name ds).ResolvesBody options q b s₀ s₁ →
        s₀.Implements q.2 b function → s₀.descriptors.returnType? function = some expected →
          ReturnsChecked b.expr expected s₁ ((ofDeclarations name ds).analyze options).session := by
  obtain ⟨n, e, hnumber⟩ := exists_number_of_mem_subroutines hq hb
  have hnodes := nodup_nodes_of_mem_subroutines hq hb
  have hremark : DiagnosticCode.typeMismatch.IsRemark := .inl rfl
  refine ⟨?_, ?_, fun s₀ s₁ function expected h himplements hdeclared => ?_⟩
  · rw [hnumber]
    exact FlowGraph.lists_returned_ofBody b.subroutine n e
  · obtain ⟨s₀, s₁, h⟩ := exists_resolvesBody hq hb hfault
    cases h.run with
    | function himplements => exact ⟨s₀, s₁, _, h, himplements⟩
    | constructor _ hconstructor => exact absurd hconstructor hrole
  · have hreports := h.run.reportsMismatched hnumber hlambda himplements hdeclared
    have hresolved : ReturnsChecked b.expr expected s₁ s₁ := by
      rw [hnumber]
      refine hreports.returnsChecked fun x hx => ?_
      rw [← hnumber] at hx
      exact h.reportsAt_eq_nil hremark hx hq hb
    refine hresolved.congr_final hnodes (fun x hx => ?_) fun x hx => h.reportsAt_eq hremark hx
    exact h.after.follows.expressionType?_eq (not_mem_nodesBeside hx)

/-- A function that is declared to return an integer. It returns nothing or a string, and ends with
a string that is never reached. -/
def mistyped : SourceFile :=
  ofDeclarations "mistyped"
    [.functionDecl {
      name := "f"
      returnType := some { name := "Int" }
      body := some (.block 0 [
        .cond 0 (.constant 0 (.bool true)) (.ret 0 none) none,
        .ret 0 (some (.constant 0 (.string "a"))),
        .constant 0 (.string "b")]) }]

/-- The body of that function. -/
def mistypedBody : Body where
  subroutine := 1
  role := .function
  expr := .block 3 [
    .cond 4 (.constant 5 (.bool true)) (.ret 6 none) none,
    .ret 7 (some (.constant 8 (.string "a"))),
    .constant 9 (.string "b")]

/-- That function, as it is numbered. -/
def mistypedFunction : Declaration :=
  .functionDecl {
    id := 1
    name := "f"
    returnType := some { id := 2, name := "Int" }
    body := some mistypedBody.expr }

theorem mem_enclosedIn_mistyped :
    (none, mistypedFunction) ∈ Declaration.enclosedIn none mistyped.declarations :=
  .head _

theorem mem_subroutines_mistyped :
    mistypedBody ∈ Declaration.subroutines (none, mistypedFunction) :=
  .head _

theorem fault_mistyped : (mistyped.analyze {}).fault = none := by
  decide +kernel

/-- Before the body is resolved, the function is known to return an integer. -/
theorem ResolvesBody.declared_mistyped
    {s₀ s₁ : Session} (h : mistyped.ResolvesBody {} (none, mistypedFunction) mistypedBody s₀ s₁) :
    s₀.Implements mistypedFunction mistypedBody 0 ∧ s₀.descriptors.returnType? 0 = some .int := by
  obtain ⟨s, hrun, h₀⟩ := h.before
  have hs : s = ((Pass.declarationPasses {} mistyped.declarations).run.run Pass.initialState).2 :=
    (congrArg Prod.snd hrun).symm
  have hdeclared : s.trace.declaration? 1 = some 0 ∧ s.descriptors.returnType? 0 = some .int := by
    subst hs
    decide +kernel
  have himplements : s.Implements mistypedFunction mistypedBody 0 := .function rfl hdeclared.1
  exact ⟨himplements.of_proceeds h₀ id_not_mem_nodesBeside,
    h₀.fills.returnType?_eq hdeclared.2⟩

/-- What is reported there: the string and the missing value that are returned, but not the string
that is never reached. -/
theorem returnPoints_checked_mistyped :
    (mistyped.analyze {}).fault = none ∧ mistypedBody.expr.LambdaFree ∧
      (mistyped.analyze {}).session.reportsAt .typeMismatch 8 = [.mismatch 8 .int .string] ∧
      (mistyped.analyze {}).session.reportsAt .typeMismatch 6 = [.mismatch 6 .int .unit] ∧
      (mistyped.analyze {}).session.reportsAt .typeMismatch 9 = [] := by
  have hlambda : mistypedBody.expr.LambdaFree := by decide
  obtain ⟨-, ⟨s₀, s₁, -, h, -⟩, hchecked⟩ := returnPoints_checked _ _ {} fault_mistyped
    mem_enclosedIn_mistyped mem_subroutines_mistyped nofun hlambda
  obtain ⟨himplements, hdeclared⟩ := h.declared_mistyped
  have hreturns := hchecked s₀ s₁ 0 .int h himplements hdeclared
  refine ⟨fault_mistyped, hlambda, ?_, ?_, ?_⟩
  · have hpoint : mistypedBody.expr.IsReturnPoint ⟨.read, 8⟩ := by
      simp [mistypedBody, Expr.IsReturnPoint, Expr.finals, Expr.finalsAll, Expr.tails,
        Expr.behaviour, Expr.behaviourAll]
    obtain ⟨actual, hactual, hreports⟩ := hreturns.value 8 (.inl hpoint)
    have hstring : (mistyped.analyze {}).session.trace.expressionType? 8 = some .string := by
      decide +kernel
    obtain rfl := Option.some.inj (hstring.symm.trans hactual)
    exact hreports
  · have hpoint : mistypedBody.expr.IsReturnPoint ⟨.returnUnit, 6⟩ := by
      simp [mistypedBody, Expr.IsReturnPoint, Expr.finals, Expr.finalsAll, Expr.tails,
        Expr.behaviour, Expr.behaviourAll]
    exact hreturns.unit 6 (.inr hpoint)
  · refine hreturns.unchecked ⟨.read, 9⟩ (.head _) (.inl ?_)
    simp [mistypedBody, Expr.behaviour, Expr.behaviourAll]

end SourceFile

end DeclAnalysis

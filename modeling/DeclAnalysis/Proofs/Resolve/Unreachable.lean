import DeclAnalysis.Proofs.Flow.Statements
import DeclAnalysis.Proofs.Resolve.SignatureFrame
import DeclAnalysis.Proofs.Resolve.Subroutines

/-!
# What is reported to be unreachable

Typing remarks upon expressions only where a place demands a type of them, and it never says that
they are unreachable. Only the body of a function, accessor or constructor that is being resolved is
reported to have unreachable parts, and only after it has been typed. What has been reported about
its nodes when the analysis ends are therefore the topmost elements that no execution of the body
performs.
-/

namespace DeclAnalysis

namespace Session

/-- What has been reported under a code about a node. -/
def reportsAt (s : Session) (code : DiagnosticCode) (node : Nat) : List Diagnostic :=
  (s.reports code).filter fun d => d.node = node

/-- What has been reported under a code about other nodes than the given ones. -/
def reportsBeside (s : Session) (code : DiagnosticCode) (sites : List Nat) : List Diagnostic :=
  (s.reports code).filter fun d => d.node ∉ sites

theorem reportsAt_eq_filter_reportsBeside
    (s : Session) (code : DiagnosticCode) {sites : List Nat} {node : Nat} (h : node ∉ sites) :
    s.reportsAt code node = (s.reportsBeside code sites).filter fun d => d.node = node := by
  unfold reportsAt reportsBeside
  rw [List.filter_filter]
  refine List.filter_congr fun d _ => ?_
  by_cases hnode : d.node = node
  · simp only [hnode, h, not_false_eq_true, decide_true, Bool.and_self]
  · simp only [hnode, decide_false, Bool.false_and]

/-- The session after some diagnostics have been reported. -/
def reporting (s : Session) (ds : List Diagnostic) : Session :=
  { s with diagnostics := s.diagnostics ++ ds.toArray }

theorem reporting_nil (s : Session) : s.reporting [] = s :=
  congrArg (fun ds => { s with diagnostics := ds }) Array.append_empty

theorem reporting_append (s : Session) (ds ds' : List Diagnostic) :
    s.reporting (ds ++ ds') = (s.reporting ds).reporting ds' := by
  have happend : s.diagnostics ++ (ds ++ ds').toArray =
      s.diagnostics ++ ds.toArray ++ ds'.toArray := by
    rw [← List.append_toArray, Array.append_assoc]
  exact congrArg (fun ds => { s with diagnostics := ds }) happend

@[simp] theorem descriptors_reporting (s : Session) (ds : List Diagnostic) :
    (s.reporting ds).descriptors = s.descriptors := rfl

@[simp] theorem trace_reporting (s : Session) (ds : List Diagnostic) :
    (s.reporting ds).trace = s.trace := rfl

theorem reports_reporting (s : Session) (ds : List Diagnostic) (code : DiagnosticCode) :
    (s.reporting ds).reports code = s.reports code ++ ds.filter fun d => d.code = code := by
  unfold reports reporting
  rw [Array.toList_append, List.filter_append]

/-- Nothing has been reported to be unreachable, and nothing but the sites to be of the wrong
type. -/
structure Tacit (sites nodes : List Nat) (s s' : Session) : Prop where
  unreachable_eq : s'.reports .unreachableCode = s.reports .unreachableCode
  mismatches_eq : s'.reportsBeside .typeMismatch sites = s.reportsBeside .typeMismatch sites

variable {sites nodes : List Nat} {s s' : Session}

theorem Tacit.of_reports_eq
    (h : ∀ {code : DiagnosticCode}, code.IsRemark → s'.reports code = s.reports code) :
    Tacit sites nodes s s' :=
  ⟨h (.inr rfl), congrArg (List.filter _) (h (.inl rfl))⟩

theorem Tacit.of_diagnostics_eq
    (h : s'.diagnostics = s.diagnostics) : Tacit sites nodes s s' :=
  .of_reports_eq fun _ => congrArg (fun ds : Array Diagnostic => ds.toList.filter _) h

instance : IsPreorder Session (Tacit sites nodes) where
  refl _ := ⟨rfl, rfl⟩
  trans _ _ _ h h' := ⟨h'.unreachable_eq.trans h.unreachable_eq,
    h'.mismatches_eq.trans h.mismatches_eq⟩

instance : AllowsNotes nodes (Tacit sites nodes) where
  of_notes h := .of_reports_eq h.reports_eq

instance : AllowsRemarks .typeMismatch sites (Tacit sites nodes) where
  of_remark {s node} hnode message := by
    let d : Diagnostic := .ofCode .typeMismatch node message
    have hcode : d.code = .typeMismatch := rfl
    refine ⟨(s.reports_push d _).trans ?_, ?_⟩
    · rw [if_neg nofun, List.append_nil]
    · refine (congrArg (List.filter _) (s.reports_push d _)).trans ?_
      have hsite : d.node ∈ sites := hnode
      rw [if_pos hcode, List.filter_append, List.filter_cons, if_neg (by simpa using hsite)]
      exact List.append_nil _

instance : Ground.free.Allows nodes (Tacit sites nodes) where
  stable_admits _ _ := trivial
  stable_fresh _ _ := trivial
  admits_of_fresh _ _ := trivial
  createVariable _ _ _ _ := ⟨fun _ => .of_diagnostics_eq rfl⟩
  resolveTypeRef {_ _ scope s ref} _ _ _ :=
    (signs_resolveTypeRef nodes s scope ref).mono fun _ _ h => .of_reports_eq h.reports_eq
  createScope _ _ _ := ⟨.of_diagnostics_eq rfl, trivial⟩
  addVariable _ _ _ := .of_diagnostics_eq rfl
  bind _ _ _ _ := .of_diagnostics_eq rfl

/-- Something has been reported under a code, and nothing else has happened. -/
structure OnlyReports (code : DiagnosticCode) (s s' : Session) : Prop where
  model_eq : s'.model = s.model
  recorder_eq : s'.recorder = s.recorder
  reports_eq : ∀ {other : DiagnosticCode}, other ≠ code → s'.reports other = s.reports other

instance (code : DiagnosticCode) : IsPreorder Session (OnlyReports code) where
  refl _ := ⟨rfl, rfl, fun _ => rfl⟩
  trans _ _ _ h h' := ⟨h'.model_eq.trans h.model_eq, h'.recorder_eq.trans h.recorder_eq,
    fun hother => (h'.reports_eq hother).trans (h.reports_eq hother)⟩

instance (code : DiagnosticCode) : AllowsRemarks code nodes (OnlyReports code) where
  of_remark {s node} _ message := by
    refine ⟨rfl, rfl, fun {other} hother => ?_⟩
    have hcode : (Diagnostic.ofCode code node message).code ≠ other := Ne.symm hother
    refine (s.reports_push (.ofCode code node message) other).trans ?_
    rw [if_neg hcode, List.append_nil]

end Session

/-! ## Computations that only report -/

namespace Analysis

/-- The computation does nothing but report the diagnostics. -/
def Reports (x : FaultyAnalysis Unit) (s : Session) (ds : List Diagnostic) : Prop :=
  AfterOk x s fun _ s' => s' = s.reporting ds

theorem reports_report (d : Diagnostic) (s : Session) :
    Reports (report d : FaultyAnalysis Unit) s [d] := by
  have hpush : s.diagnostics.push d = s.diagnostics ++ #[d] := Array.push_eq_append
  exact congrArg (fun ds => { s with diagnostics := ds }) hpush

theorem Reports.bind
    {x y : FaultyAnalysis Unit} {s : Session} {ds ds' : List Diagnostic} (hx : Reports x s ds)
    (hy : Reports y (s.reporting ds) ds') : Reports (x >>= fun _ => y) s (ds ++ ds') := by
  refine AfterOr.bind hx fun _ s₁ h₁ => ?_
  rw [h₁]
  refine AfterOk.mono hy fun _ s₂ h₂ => ?_
  rw [h₂, Session.reporting_append]

/-- Several computations, one after the other, report what each of them reports. -/
theorem Reports.forM
    {α : Type} {f : α → FaultyAnalysis Unit} {g : α → List Diagnostic} {s : Session}
    (h : ∀ x ds, Reports (f x) (s.reporting ds) (g x)) (xs : List α) :
    Reports (xs.forM f) s (xs.flatMap g) := by
  have hall : ∀ ds, Reports (xs.forM f) (s.reporting ds) (xs.flatMap g) := by
    induction xs with
    | nil => exact fun ds => (Session.reporting_nil _).symm
    | cons x rest ih =>
        intro ds
        refine Reports.bind (h x ds) ?_
        rw [← Session.reporting_append]
        exact ih (ds ++ g x)
  have hnil := hall []
  rw [Session.reporting_nil] at hnil
  exact hnil

end Analysis

/-! ## Remarks on a body -/

namespace SourceFile

section

variable {name : String} {ds : List Declaration} {options : AnalysisOptions}
  {q : Option Declaration × Declaration} {b : Body} {s₀ s₁ : Session}
  (h : (ofDeclarations name ds).ResolvesBody options q b s₀ s₁)
  {code : DiagnosticCode} (hcode : code.IsRemark) {node : Nat} (hnode : node ∈ b.expr.nodes)

include h hcode hnode

/-- Until a body is resolved, none of its nodes is remarked upon. -/
theorem ResolvesBody.reportsAt_eq_nil
    (hq : q ∈ Declaration.enclosedIn none (ofDeclarations name ds).declarations)
    (hb : b ∈ Declaration.subroutines q) : s₀.reportsAt code node = [] := by
  refine List.filter_eq_nil_iff.mpr fun d hd heq => ?_
  exact h.not_remarked hq hb hcode d hd (of_decide_eq_true heq ▸ hnode)

/-- After a body has been resolved, none of its nodes is remarked upon. -/
theorem ResolvesBody.reportsAt_eq :
    ((ofDeclarations name ds).analyze options).session.reportsAt code node =
      s₁.reportsAt code node := by
  refine h.after.follows.filter_reports_eq (p := (· = node)) hcode ?_
  rintro node' hbeside
  refine decide_eq_false ?_
  rintro rfl
  exact not_mem_nodesBeside hnode hbeside

end

end SourceFile

open Session (Ground Tacit)

/-- The diagnostic of an expression that is never executed. -/
def Diagnostic.unreachable (node : Nat) : Diagnostic :=
  .ofCode .unreachableCode node "Unreachable code"

namespace Analysis

variable {sites nodes : List Nat} {s : Session} {options : AnalysisOptions}

/-- The topmost elements of a body that are never executed are reported. -/
theorem afterOk_reportUnreachable
    (hoption : options.reportUnreachable = true) (node : Nat) (body : Expr) (s : Session) :
    AfterOk (reportUnreachable options (.data (.ofBody node body)) node body) s fun _ s' =>
      s'.reports .unreachableCode = s.reports .unreachableCode ++
        (body.roots (FlowGraph.ofBody node body).unreachable).map Diagnostic.unreachable := by
  unfold reportUnreachable
  rw [FlowInformation.unreachable_ofBody]
  simp only [hoption, if_true]
  have hreports : Reports _ s _ := Reports.forM
    (fun element _ => reports_report (.unreachable element) _)
    (body.roots (FlowGraph.ofBody node body).unreachable)
  refine AfterOk.mono hreports fun _ s' h => ?_
  have hcode : ∀ element, (Diagnostic.unreachable element).code = .unreachableCode := fun _ => rfl
  rw [h, Session.reports_reporting, ← List.map_eq_flatMap, List.filter_eq_self.mpr]
  intro d hd
  obtain ⟨element, -, rfl⟩ := List.mem_map.mp hd
  exact decide_eq_true (hcode element)

theorem tacit_setReturnType (function : Nat) (type : Ty) :
    KeepsOr (Tacit sites nodes) (setReturnType function type) := by
  refine KeepsOr.of_afterOr fun s => afterOr_bind.mpr (afterOr_get.mpr ?_)
  split
  · exact .of_diagnostics_eq rfl
  · exact refl_of (Tacit sites nodes) s

/-- What is reported to be unreachable when a body is resolved, if it does not stop. -/
def ReportsMissed (body : Expr) (elements : List Nat) (s s' : Session) : Prop :=
  s'.reports .unreachableCode =
    s.reports .unreachableCode ++ (body.roots elements).map Diagnostic.unreachable

/-- Typing comes before the report and does not add to it. -/
theorem afterOr_reportUnreachable_of_tacit
    (hoption : options.reportUnreachable = true) (node : Nat) (body : Expr) {s₁ : Session}
    (h₁ : Tacit sites nodes s s₁) :
    AfterOr (reportUnreachable options (.data (.ofBody node body)) node body) s₁
      (fun _ => ReportsMissed body (FlowGraph.ofBody node body).unreachable s)
      fun _ _ => True := by
  refine AfterOr.relax (afterOk_reportUnreachable hoption node body s₁) fun _ s₂ h₂ => ?_
  unfold ReportsMissed
  rw [h₂, h₁.unreachable_eq]

theorem afterOr_resolveFunctionBody_reports
    (hoption : options.reportUnreachable = true) (node : Nat) (body : Expr)
    (function scope : Nat) (s : Session) :
    AfterOr (resolveFunctionBody options node (some body) function scope) s
      (fun _ => ReportsMissed body (FlowGraph.ofBody node body).unreachable s)
      fun _ _ => True := by
  have hscope : Ground.free.admits [] body.typeRefs scope s := trivial
  have hinner : AfterOr (functionInnerScope scope function) s
      (fun _ => Tacit body.nodes body.nodes s) fun _ _ => True :=
    AfterOr.relax (afterOr_functionInnerScope hscope function) fun _ _ h => h.1
  refine afterOr_bind.mpr (afterOr_get.mpr ?_)
  refine AfterOr.bind hinner fun inner s₁ h₁ => ?_
  dsimp only
  split
  · have hcheck : KeepsOr
        (From (Ground.free.fresh body.typeRefs inner) (Tacit body.nodes body.nodes)) _ :=
      keepsFrom_checkReturnType inner node (List.Subset.refl _) (List.Subset.refl _) function
    refine hcheck.bind_after fun _ s₂ h₂ => ?_
    exact afterOr_reportUnreachable_of_tacit hoption node body (trans_of _ h₁ (h₂ trivial))
  · have hbody : Expr.optionalNodes (some body) ⊆ body.nodes := List.Subset.refl _
    have hinfer : KeepsOr
        (From (Ground.free.fresh body.typeRefs inner) (Tacit body.nodes body.nodes))
        (inferReturnType (.data (.ofBody node body)) inner node (some body)) :=
      keepsFrom_inferReturnType _ inner node hbody (List.Subset.refl _)
    refine hinfer.bind_after fun inferred s₂ h₂ => ?_
    have hset : KeepsOr (Tacit body.nodes body.nodes) (setReturnType function _) :=
      tacit_setReturnType function (inferred.getD (.error "Unable to infer body type"))
    refine hset.bind_after fun _ s₃ h₃ => ?_
    exact afterOr_reportUnreachable_of_tacit hoption node body
      (trans_of _ h₁ (trans_of _ (h₂ trivial) h₃))

theorem afterOr_resolveConstructorParts_reports
    (hoption : options.reportUnreachable = true) (scope classId : Nat) {decl : ConstructorDecl}
    {body : Expr} (hbody : decl.body = some body) (s : Session) :
    AfterOr (resolveConstructorParts options scope classId decl) s
      (fun _ => ReportsMissed body (FlowGraph.ofBody decl.id body).unreachable s)
      fun _ _ => True := by
  have hnodes : body.nodes ⊆ decl.nodes := by
    intro node hnode
    rw [← Declaration.optionalNodes_eq_nodes hbody] at hnode
    exact List.mem_cons_of_mem _ (List.mem_append_right _ hnode)
  have hinitializers : KeepsOr
      (From (Ground.free.fresh decl.typeRefs scope) (Tacit decl.nodes decl.nodes)) _ :=
    keepsFrom_resolveConstructorInitializers (List.tail_subset _) (List.Subset.refl _) scope classId
  have hinfer : KeepsOr (From (Ground.free.fresh body.typeRefs scope) (Tacit decl.nodes decl.nodes))
      (infer scope body : FaultyAnalysis (Option Ty)) :=
    KeepsOr.lift (keepsFrom_inferBody scope hnodes (List.Subset.refl _))
  unfold resolveConstructorParts
  rw [hbody]
  refine hinitializers.bind_after fun _ s₁ h₁ => hinfer.bind_after fun _ s₂ h₂ => ?_
  exact afterOr_reportUnreachable_of_tacit hoption decl.id body
    (trans_of _ (h₁ trivial) (h₂ trivial))

end Analysis

namespace Session

open Analysis (ReportsMissed)

/-- However a body is resolved, its topmost elements that are never executed are reported. -/
theorem Resolves.reportsMissed
    {options : AnalysisOptions} (hoption : options.reportUnreachable = true)
    {q : Option Declaration × Declaration} {b : Body} (hb : Declaration.HasSubroutine q b)
    {s s' : Session} (h : Resolves options q.2 b s s') :
    ReportsMissed b.expr (FlowGraph.ofBody b.subroutine b.expr).unreachable s s' := by
  cases h with
  | @function f _ hrun =>
      obtain ⟨scope, hrun⟩ := hrun
      exact (Analysis.afterOr_resolveFunctionBody_reports hoption b.subroutine b.expr f scope
        s).of_run_eq hrun
  | @constructor decl hself hrole hrun =>
      obtain ⟨scope, classId, hrun⟩ := hrun
      cases hb with
      | function _ _ hrole' | getter _ _ _ hrole' | setter _ _ _ hrole' =>
          rw [hrole'] at hrole
          cases hrole
      | constructor hself' _ hbody _ hnode =>
          obtain rfl := Declaration.constructorDecl.inj (hself'.symm.trans hself)
          rw [hnode]
          exact (Analysis.afterOr_resolveConstructorParts_reports hoption scope classId hbody
            s).of_run_eq hrun

end Session

namespace SourceFile

/-- When an analysis ends that no fault stops, the topmost elements of a body that are never
executed have been reported, and nothing else in the body. -/
theorem reportsAt_unreachableCode
    {name : String} {ds : List Declaration} {options : AnalysisOptions}
    (hoption : options.reportUnreachable = true)
    (hfault : ((ofDeclarations name ds).analyze options).fault = none)
    {q : Option Declaration × Declaration} {b : Body}
    (hq : q ∈ Declaration.enclosedIn none (ofDeclarations name ds).declarations)
    (hb : b ∈ Declaration.subroutines q) {node : Nat} (hnode : node ∈ b.expr.nodes) :
    ((ofDeclarations name ds).analyze options).session.reportsAt .unreachableCode node =
      List.replicate ((b.expr.roots b.expr.missed).count node) (.unreachable node) := by
  obtain ⟨s₀, s₁, h⟩ := exists_resolvesBody hq hb hfault
  have hremark : DiagnosticCode.unreachableCode.IsRemark := .inr rfl
  have hreports := h.run.reportsMissed hoption (Declaration.hasSubroutine_of_mem hb)
  obtain ⟨n, e, hnumber⟩ := exists_number_of_mem_subroutines hq hb
  rw [hnumber, Expr.unreachable_ofBody, ← hnumber] at hreports
  have hold : (s₀.reports .unreachableCode).filter (fun d => d.node = node) = [] :=
    h.reportsAt_eq_nil hremark hnode hq hb
  rw [h.reportsAt_eq hremark hnode, Session.reportsAt, hreports, List.filter_append, hold,
    List.nil_append, List.filter_map]
  exact (congrArg (List.map Diagnostic.unreachable) (List.filter_eq node)).trans List.map_replicate

/-! ## Statements after a return -/

section

variable {name : String} {ds : List Declaration} {options : AnalysisOptions}
  (hoption : options.reportUnreachable = true)
  (hfault : ((ofDeclarations name ds).analyze options).fault = none)
  {q : Option Declaration × Declaration} {b : Body}
  (hq : q ∈ Declaration.enclosedIn none (ofDeclarations name ds).declarations)
  (hb : b ∈ Declaration.subroutines q)

include hoption hfault hq hb

/-- In the open, a statement after a return is reported at its heads. -/
theorem reportsAt_after_return
    {id node : Nat} {value : Option Expr} {before after : List Expr}
    (hblock : .block id (before ++ .ret node value :: after) ∈ b.expr.subexpressions)
    (hreached : (b.expr.behaviour false).Performs (Expr.returnStep node value))
    (hopen : ¬b.expr.Hides (.block id (before ++ .ret node value :: after)))
    {t : Expr} (ht : t ∈ after) {n : Nat} (hn : n ∈ t.nodes) :
    ((ofDeclarations name ds).analyze options).session.reportsAt .unreachableCode n =
      if n ∈ t.heads then [.unreachable n] else [] := by
  have hnodes := nodup_nodes_of_mem_subroutines hq hb
  have hchild : t ∈ (Expr.block id (before ++ .ret node value :: after)).children :=
    List.mem_append_right _ (List.mem_cons_of_mem _ ht)
  have hbody : n ∈ b.expr.nodes := Expr.nodes_subset_of_mem_subexpressions hblock
    (List.mem_of_mem_tail (Expr.nodes_child_subset hchild hn))
  rw [reportsAt_unreachableCode hoption hfault hq hb hbody,
    Expr.count_roots_missed_after_return hnodes hblock ht hreached hopen hn]
  split
  · rfl
  · rfl

/-- Where something is hidden, one expression around it is reported and nothing inside of that. -/
theorem exists_reportsAt_of_hides
    {x : Expr} (hhides : b.expr.Hides x) :
    ∃ top ∈ b.expr.subexpressions, x ∈ top.subexpressions ∧ top.id ∈ b.expr.missed ∧
      ∀ n ∈ top.nodes, ((ofDeclarations name ds).analyze options).session.reportsAt
        .unreachableCode n = if n = top.id then [.unreachable n] else [] := by
  have hnodes := nodup_nodes_of_mem_subroutines hq hb
  obtain ⟨around, haround, hinside, hmissed⟩ := hhides
  obtain ⟨top, htop, haroundtop, htopid, -, hcount⟩ :=
    Expr.exists_count_roots hnodes haround hmissed
  refine ⟨top, htop, Expr.mem_subexpressions_trans hinside haroundtop, htopid, fun n hn => ?_⟩
  rw [reportsAt_unreachableCode hoption hfault hq hb
    (Expr.nodes_subset_of_mem_subexpressions htop hn), hcount n hn]
  split
  · rfl
  · rfl

end

/-- Statements after a return that is reached are reported once, where they show. In every body
that is resolved as a subroutine, and every block in it that holds a return whose step is reached,
nothing in the later statements of the block is ever executed. A later statement that has a step
of its own is reported itself, and a block, condition or loop is reported at those of its parts
that have one; nothing else in the statement is reported. Only if the block lies in an expression
whose own step is never reached, the topmost such expression is reported instead, and nothing
inside of it. If a fault stops the analysis, no body is resolved at all. -/
theorem unreachable_after_return
    (name : String) (ds : List Declaration) (options : AnalysisOptions)
    (hoption : options.reportUnreachable = true)
    (hfault : ((ofDeclarations name ds).analyze options).fault = none) {b : Body}
    (hb : b ∈ (Declaration.enclosedIn none (ofDeclarations name ds).declarations).flatMap
      Declaration.subroutines)
    {id node : Nat} {value : Option Expr} {before after : List Expr}
    (hblock : .block id (before ++ .ret node value :: after) ∈ b.expr.subexpressions)
    (hreached : (b.expr.behaviour false).Performs (Expr.returnStep node value)) :
    (∀ t ∈ after, ∀ s : Step, s.element ∈ t.nodes → ¬(b.expr.behaviour false).Performs s) ∧
      (¬b.expr.Hides (.block id (before ++ .ret node value :: after)) → ∀ t ∈ after, ∀ n ∈ t.nodes,
        ((ofDeclarations name ds).analyze options).session.reportsAt .unreachableCode n =
          if n ∈ t.heads then [.unreachable n] else []) ∧
      (b.expr.Hides (.block id (before ++ .ret node value :: after)) →
        ∃ top ∈ b.expr.subexpressions,
          .block id (before ++ .ret node value :: after) ∈ top.subexpressions ∧
            top.id ∈ b.expr.missed ∧ ∀ n ∈ top.nodes,
              ((ofDeclarations name ds).analyze options).session.reportsAt .unreachableCode n =
                if n = top.id then [.unreachable n] else []) := by
  obtain ⟨q, hq, hb⟩ := List.mem_flatMap.mp hb
  have hnodes := nodup_nodes_of_mem_subroutines hq hb
  refine ⟨fun t ht s hs => ?_, fun hopen t ht n hn => ?_, fun hhides => ?_⟩
  · exact Expr.not_performs_after_return hnodes hblock ht hs
  · exact reportsAt_after_return hoption hfault hq hb hblock hreached hopen ht hn
  · exact exists_reportsAt_of_hides hoption hfault hq hb hhides

/-- A function that returns before an empty block and a condition. -/
def trailing : SourceFile :=
  ofDeclarations "trailing"
    [.functionDecl {
      name := "f"
      body := some (.block 0 [.ret 0 none, .block 0 [],
        .cond 0 (.constant 0 (.bool true)) (.constant 0 (.int 1)) none]) }]

/-- The statements after the return in that function, as they are numbered. -/
def trailingStatements : List Expr :=
  [.block 4 [], .cond 5 (.constant 6 (.bool true)) (.constant 7 (.int 1)) none]

/-- The body of that function. -/
def trailingBody : Body where
  subroutine := 1
  role := .function
  expr := .block 2 ([] ++ .ret 3 none :: trailingStatements)

theorem mem_subroutines_trailing :
    trailingBody ∈ (Declaration.enclosedIn none trailing.declarations).flatMap
      Declaration.subroutines :=
  .head _

theorem performs_trailing :
    (trailingBody.expr.behaviour false).Performs (Expr.returnStep 3 none) := by
  simp [trailingBody, trailingStatements, Expr.behaviour, Expr.behaviourAll, Expr.returnStep]

theorem fault_trailing : (trailing.analyze {}).fault = none := by
  decide +kernel

/-- Not every statement after a return that is reached is reported itself, and parts of it may be
reported instead. -/
theorem reportsAt_trailing :
    (trailing.analyze {}).fault = none ∧
      trailingBody ∈ (Declaration.enclosedIn none trailing.declarations).flatMap
        Declaration.subroutines ∧
      (trailingBody.expr.behaviour false).Performs (Expr.returnStep 3 none) ∧
      ¬∀ t ∈ trailingStatements,
        (trailing.analyze {}).session.reportsAt .unreachableCode t.id = [.unreachable t.id] ∧
          ∀ n ∈ t.nodes.tail, (trailing.analyze {}).session.reportsAt .unreachableCode n = [] := by
  refine ⟨fault_trailing, mem_subroutines_trailing, performs_trailing, fun h => ?_⟩
  have hnone : (trailing.analyze {}).session.reportsAt .unreachableCode 4 = [] := by
    decide +kernel
  have hone := (h (.block 4 []) List.mem_cons_self).1
  exact List.cons_ne_nil _ _ (hone.symm.trans hnone)

/-- Statements after a return in the body itself are not hidden by anything. -/
theorem not_hides_trailing :
    ¬trailingBody.expr.Hides (.block 2 ([] ++ .ret 3 none :: trailingStatements)) := by
  rintro ⟨around, haround, hinside, hmissed⟩
  obtain rfl := Expr.eq_of_mem_subexpressions haround hinside
  have hnodes : trailingBody.expr.nodes.Nodup := by decide
  exact Expr.id_not_mem_missed_of_isCompound hnodes haround rfl hmissed

theorem unreachable_trailing :
    (trailing.analyze {}).fault = none ∧
      (trailingBody.expr.behaviour false).Performs (Expr.returnStep 3 none) ∧
      ∀ t ∈ trailingStatements, ∀ n ∈ t.nodes,
        (trailing.analyze {}).session.reportsAt .unreachableCode n =
          if n ∈ t.heads then [.unreachable n] else [] := by
  refine ⟨fault_trailing, performs_trailing, ?_⟩
  have hreported := unreachable_after_return _ _ {} rfl fault_trailing mem_subroutines_trailing
    (.head _) performs_trailing
  exact hreported.2.1 not_hides_trailing

end SourceFile

end DeclAnalysis

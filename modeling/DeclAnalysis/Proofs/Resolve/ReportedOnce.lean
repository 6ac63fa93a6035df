import DeclAnalysis.Report
import DeclAnalysis.Tree.Decode
import DeclAnalysis.Tree.Interchange
import DeclAnalysis.Proofs.Resolve.PassReporting
import DeclAnalysis.Proofs.Resolve.Subroutines
import DeclAnalysis.Proofs.Tree.Labels

/-!
# Problems are reported once

No two diagnostics of an analysis have the same code, node and message, and whatever a diagnostic
or a fault is about is a node of the file, so that it has a label.
-/

namespace DeclAnalysis

/-! ## The reports of an analysis -/

/-- What a diagnostic says, and of what. -/
def Diagnostic.content (d : Diagnostic) : DiagnosticCode × Nat × String := (d.code, d.node, d.message)

namespace Session.Posts

variable {nodes : List Nat} {places : List Place} {s₀ s : Session} (h : Posts nodes places s₀ s)
  (hnone : s₀.diagnostics = #[])

include h hnone

theorem exists_split :
    ∃ types others : List Diagnostic, s.diagnostics.toList.Perm (types ++ others) ∧
      (∀ d ∈ types, ∃ node ∈ nodes, ∃ name, d = .unresolvedType node name) ∧
        (∀ d ∈ others, d = .ofCode d.code d.node d.message) ∧
          (others.map Diagnostic.place).Subperm places := by
  obtain ⟨types, others, hperm, htypes, hothers, hplaces, -⟩ := h.exists_reported
  rw [hnone] at hperm
  exact ⟨types, others, hperm, htypes, hothers, hplaces⟩

/-- Every report is one at a node. -/
theorem node_mem (hplaces : ∀ p ∈ places, p.node ∈ nodes) :
    ∀ d ∈ s.diagnostics.toList, d.node ∈ nodes := by
  obtain ⟨types, others, hperm, htypes, -, hsub⟩ := h.exists_split hnone
  intro d hd
  rcases List.mem_append.mp (hperm.mem_iff.mp hd) with hd | hd
  · obtain ⟨node, hnode, name, rfl⟩ := htypes d hd
    exact hnode
  · exact hplaces d.place (hsub.subset (List.mem_map_of_mem hd))

/-- Nothing is reported twice. Of references to missing types the trace takes care, of everything
else the place. -/
theorem nodup_content (hbalanced : s₀.Balanced) (hplaces : places.Nodup) :
    (s.diagnostics.toList.map Diagnostic.content).Nodup := by
  obtain ⟨types, others, hperm, htypes, hothers, hsub⟩ := h.exists_split hnone
  have hdefault : ∀ d ∈ s.diagnostics.toList, d = .ofCode d.code d.node d.message := by
    intro d hd
    rcases List.mem_append.mp (hperm.mem_iff.mp hd) with hd | hd
    · obtain ⟨node, -, name, rfl⟩ := htypes d hd
      rfl
    · exact hothers d hd
  have hnodup : s.diagnostics.toList.Nodup := by
    rw [List.nodup_iff_count_le_one]
    intro d
    by_cases htype : ∃ node name, d = .unresolvedType node name
    · obtain ⟨node, name, rfl⟩ := htype
      rw [h.balanced hbalanced node name]
      split <;> omega
    · have hnot : d ∉ types := fun hd =>
        have ⟨node, _, name, heq⟩ := htypes d hd
        htype ⟨node, name, heq⟩
      rw [hperm.count_eq, List.count_append, List.count_eq_zero_of_not_mem hnot, Nat.zero_add]
      obtain ⟨placed, hplaced, hsublist⟩ := hsub
      have hothers : others.Nodup := (hplaced.nodup (hplaces.sublist hsublist)).of_map
      exact List.nodup_iff_count_le_one.mp hothers d
  refine hnodup.map_on fun d hd d' hd' heq => ?_
  obtain ⟨hcode, heq⟩ := Prod.mk.inj heq
  obtain ⟨hnode, hmessage⟩ := Prod.mk.inj heq
  rw [hdefault d hd, hdefault d' hd', hcode, hnode, hmessage]

/-- References to missing types apart, everything is reported at the places. -/
theorem exists_others :
    ∃ others : List Diagnostic, (others.map Diagnostic.place).Subperm places ∧
      ∀ d ∈ s.diagnostics.toList, d.code ≠ .unresolvedReference → d ∈ others := by
  obtain ⟨types, others, hperm, htypes, -, hsub⟩ := h.exists_split hnone
  refine ⟨others, hsub, fun d hd hcode => ?_⟩
  rcases List.mem_append.mp (hperm.mem_iff.mp hd) with hd | hd
  · obtain ⟨node, -, name, rfl⟩ := htypes d hd
    exact absurd rfl hcode
  · exact hd

variable {d d' : Diagnostic} (hd : d ∈ s.diagnostics.toList) (hcode : d.code ≠ .unresolvedReference)

include hd hcode

theorem place_mem : d.place ∈ places := by
  obtain ⟨others, hsub, hothers⟩ := h.exists_others hnone
  exact hsub.subset (List.mem_map_of_mem (hothers d hd hcode))

/-- What is reported at one place is one report. -/
theorem eq_of_place_eq
    (hplaces : places.Nodup) (hd' : d' ∈ s.diagnostics.toList) (heq : d.place = d'.place) :
    d = d' := by
  obtain ⟨others, ⟨placed, hplaced, hsublist⟩, hothers⟩ := h.exists_others hnone
  have hnodup := hplaced.nodup (hplaces.sublist hsublist)
  have hcode' : d'.code ≠ .unresolvedReference := fun h => hcode ((congrArg Place.code heq).trans h)
  exact List.inj_on_of_nodup_map hnodup (hothers d hd hcode) (hothers d' hd' hcode') heq

end Session.Posts

/-- What belongs to each of several things for one reason or another. -/
theorem perm_flatMap_append
    {α β : Type} {xs : List α} {f g : α → List β} {ys : List β} (h : ys.Perm (xs.flatMap g)) :
    (xs.flatMap f ++ ys).Perm (xs.flatMap fun x => f x ++ g x) :=
  (h.append_left _).trans (List.flatMap_append_perm ..)

namespace Declaration

theorem ownNodes_subset_nodesOf
    {ds : List Declaration} {d : Declaration} (hd : d ∈ nestedIn ds) :
    d.ownNodes ⊆ nodesOf ds := by
  intro node hnode
  rw [← flatMap_ownNodes_nestedIn]
  exact List.mem_flatMap.mpr ⟨d, hd, hnode⟩

end Declaration

namespace Pass

open Declaration (nestedIn)

theorem balanced_initialState : initialState.Balanced := fun _ _ => rfl

variable (options : AnalysisOptions) {ds : List Declaration}
  (hds : (Declaration.nodesOf ds).Nodup)

include hds

/-- The passes before the last one report at three kinds of places. -/
theorem afterAny_declarationPasses :
    AfterAny (declarationPasses options ds) initialState
      (PassState.Posts (Declaration.nodesOf ds)
        ((nestedIn ds).flatMap Declaration.collectPlaces ++
          ((nestedIn ds).flatMap Declaration.supertypePlaces ++
            (nestedIn ds).flatMap Declaration.registerPlaces)) initialState) := by
  have hcollect := stopsAtFirst_collectAll options toplevel ds initialState
    consistent_initialState namespacesBound_initialState hds
  refine PostsOr.afterAny_bind ((postsOr_collectAll options _ ds (List.Subset.refl _)).afterOr _)
    (AfterOr.relax hcollect (fun _ _ h => h.2)) fun _ s hs => ?_
  have hsupertypes : AfterAny resolveClasses s (PassState.Posts (Declaration.nodesOf ds)
      ((nestedIn ds).flatMap Declaration.supertypePlaces) s) := by
    unfold Declaration.supertypePlaces
    rw [← flatMap_listed hs.classes]
    refine afterAny_resolveClasses fun entry hentry => ?_
    have hhead : entry.1 ∈ (nestedIn ds).filterMap Declaration.classHead? := by
      have hmem := List.mem_map_of_mem (f := Prod.fst) hentry
      rw [hs.classes] at hmem
      exact hmem
    obtain ⟨d, hd, hhead⟩ := List.mem_filterMap.mp hhead
    obtain ⟨members, rfl⟩ := Declaration.exists_members_of_classHead? hhead
    exact Declaration.ownNodes_subset_nodesOf hd
  refine PostsOr.afterAny_bind hsupertypes (AfterOr.trivial ..) fun _ s₁ _ => ?_
  refine KeepsOr.afterOr ?_ s₁
  refine PostsOr.bind_last (postsOr_registerAll toplevel ds (List.Subset.refl _)) fun _ => ?_
  exact postsOr_finalizeClasses.bind_first fun _ => .pure _

/-- The passes report at the places of the declarations. -/
theorem afterAny_allPasses
    (hnumber : ∀ d ∈ nestedIn ds, ∀ b ∈ d.ownBodies, ∃ n e, b.expr = Expr.number n e) :
    AfterAny (allPasses options ds) initialState
      (PassState.Posts (Declaration.nodesOf ds) ((nestedIn ds).flatMap Declaration.places)
        initialState) := by
  let P := Declaration.enclosedIn none ds
  have hP : P.map Prod.snd = nestedIn ds := Declaration.map_snd_enclosedIn none ds
  have hmem : ∀ q ∈ P, q.2 ∈ nestedIn ds := fun q hq => hP ▸ List.mem_map_of_mem hq
  have hplaces : ∀ g : Declaration → List Place, P.flatMap (fun q => g q.2) = (nestedIn ds).flatMap g :=
    fun g => by rw [← hP, List.flatMap_map]
  have hnodes : ∀ q ∈ P, q.2.ownNodes ⊆ Declaration.nodesOf ds :=
    fun q hq => Declaration.ownNodes_subset_nodesOf (hmem q hq)
  rw [allPasses_eq]
  refine AfterAny.mono (PostsOr.afterAny_bind (afterAny_declarationPasses options hds)
    (afterOr_declarationPasses_listed options hds) fun _ s hs =>
      afterAny_resolveBodies hs hnodes options fun q hq => hnumber q.2 (hmem q hq))
    fun s hs => Gathers.mono hs ?_
  rw [hplaces, hplaces, hplaces, List.append_assoc, List.append_assoc]
  exact (perm_flatMap_append (perm_flatMap_append (perm_flatMap_append (perm_flatMap_append
    (List.flatMap_append_perm ..))))).subperm

end Pass

/-! ## Files -/

namespace SourceFile

/-- The ways in which a file is obtained: from declarations, from a JSON value that describes it
and from the text of such a value. -/
inductive Obtained : SourceFile → Prop
  | ofDeclarations (name : String) (ds : List Declaration) : Obtained (ofDeclarations name ds)
  | ofJson {name : String} {json : Json} {file : SourceFile} (h : ofJson name json = .ok file) :
      Obtained file
  | ofText {name text : String} {file : SourceFile} (h : ofText name text = .ok file) :
      Obtained file

/-- However a file is obtained, its nodes are numbered. -/
theorem Obtained.exists_eq_ofDeclarations {file : SourceFile} (h : file.Obtained) :
    ∃ name ds, file = SourceFile.ofDeclarations name ds := by
  cases h with
  | ofDeclarations name ds => exact ⟨name, ds, rfl⟩
  | @ofJson name json _ h =>
      unfold SourceFile.ofJson at h
      cases hread : Schema.readFile json with
      | error error =>
          rw [hread] at h
          cases h
      | ok read =>
          rw [hread] at h
          exact ⟨name, read.2, (Except.ok.inj h).symm⟩
  | @ofText name text _ h =>
      unfold SourceFile.ofText at h
      cases hread : Interchange.file.run text.toList with
      | error error =>
          rw [hread] at h
          cases h
      | ok read =>
          rw [hread] at h
          exact ⟨name, read.1, (Except.ok.inj h).symm⟩

section

variable (name : String) (ds : List Declaration) (options : AnalysisOptions)

/-- The places of a numbered file are different ones at its nodes. -/
theorem spread_places_ofDeclarations :
    Place.Spread (Declaration.nodesOf (ofDeclarations name ds).declarations)
      ((Declaration.nestedIn (ofDeclarations name ds).declarations).flatMap Declaration.places) := by
  have hnodup : (Declaration.nodesOf (ofDeclarations name ds).declarations).Nodup :=
    (pairwise_nodes_ofDeclarations name ds).imp Nat.ne_of_lt
  rw [← Declaration.flatMap_ownNodes_nestedIn] at hnodup ⊢
  exact Place.Spread.flatMap hnodup fun d _ hnodup => Declaration.spread_places hnodup

theorem posts_analyze :
    Session.Posts (Declaration.nodesOf (ofDeclarations name ds).declarations)
      ((Declaration.nestedIn (ofDeclarations name ds).declarations).flatMap Declaration.places)
      Pass.initialState.toSession ((ofDeclarations name ds).analyze options).session := by
  have hnodup : (Declaration.nodesOf (ofDeclarations name ds).declarations).Nodup :=
    (pairwise_nodes_ofDeclarations name ds).imp Nat.ne_of_lt
  have hnumber : ∀ d ∈ Declaration.nestedIn (ofDeclarations name ds).declarations,
      ∀ b ∈ d.ownBodies, ∃ n e, b.expr = Expr.number n e := by
    intro d hd b hb
    obtain ⟨n, d₀, rfl⟩ := Declaration.exists_number_of_mem_nestedIn 1 ds hd
    exact Declaration.exists_number_of_mem_ownBodies hb
  rw [session_analyze]
  exact (Pass.afterAny_allPasses options hnodup hnumber).snd_run rfl

/-- A fault is about a node of the file. -/
theorem exists_node_of_fault
    {fault : Fault} (hfault : ((ofDeclarations name ds).analyze options).fault = some fault) :
    ∃ node ∈ Declaration.nodesOf (ofDeclarations name ds).declarations,
      fault.node? = some node := by
  let declarations := (ofDeclarations name ds).declarations
  have hnodup : (Declaration.nodesOf declarations).Nodup :=
    (pairwise_nodes_ofDeclarations name ds).imp Nat.ne_of_lt
  rw [fault_analyze hnodup options] at hfault
  have hposition : fault.position ∈ Declaration.nodesOf declarations := by
    rw [← Declaration.flatMap_ownNodes_nestedIn]
    have hmem := List.mem_map_of_mem (f := Fault.position) (List.mem_of_head? hfault)
    rw [List.map_append] at hmem
    rcases List.mem_append.mp hmem with hmem | hmem
    · exact (map_flatMap_sublist _ Declaration.position_unhandled_sublist).subset hmem
    · exact (map_flatMap_sublist _ Declaration.position_thisCallFaults_sublist).subset hmem
  refine ⟨fault.position, hposition, ?_⟩
  rcases List.mem_append.mp (List.mem_of_head? hfault) with hmem | hmem
  · obtain ⟨id, construct, -, rfl⟩ := (mem_unhandledIn_iff _ _).mp hmem
    rfl
  · obtain ⟨id, -, rfl⟩ := (mem_thisCallFaultsIn_iff _ _).mp hmem
    rfl

end

/-- The description of a node that has a label is the label. -/
theorem label?_eq_describe
    {file : SourceFile} {node : Nat} {label : String} (h : file.label? node = some label) :
    file.label? node = some (Engine.describe file.labels.toArray node) := by
  cases node with
  | zero => cases h
  | succ n =>
      have hlabel : file.labels[n]? = some label := h
      rw [label?, Engine.describe, Array.getD_eq_getD_getElem?, List.getElem?_toArray, hlabel]
      rfl

/-- Each problem is reported once, and at a node that has a label. However a file is obtained and
analysed, no two diagnostics have the same code, node and message; their nodes and the node of a
fault have labels; and a report describes the node of each diagnostic by its label. -/
theorem reported_once_with_label {file : SourceFile} (hfile : file.Obtained) (engine : Engine) :
    let outcome := file.analyze engine.options
    (outcome.session.diagnostics.toList.map Diagnostic.content).Nodup ∧
      (∀ d ∈ outcome.session.diagnostics.toList, ∃ label, file.label? d.node = some label) ∧
        (∀ fault, outcome.fault = some fault →
          ∃ node label, fault.node? = some node ∧ file.label? node = some label) ∧
          ∀ d ∈ (engine.analyze file).diagnostics,
            file.label? d.diagnostic.node = some d.label := by
  obtain ⟨name, ds, rfl⟩ := hfile.exists_eq_ofDeclarations
  intro outcome
  have hposts := posts_analyze name ds engine.options
  have hspread := spread_places_ofDeclarations name ds
  have hlabel : ∀ d ∈ outcome.session.diagnostics.toList,
      ∃ label, (SourceFile.ofDeclarations name ds).label? d.node = some label :=
    fun d hd => exists_label_of_mem_nodes (hposts.node_mem rfl hspread.node_mem d hd)
  refine ⟨hposts.nodup_content rfl Pass.balanced_initialState hspread.nodup, hlabel, ?_, ?_⟩
  · intro fault hfault
    obtain ⟨node, hnode, heq⟩ := exists_node_of_fault name ds engine.options hfault
    obtain ⟨label, hlabel⟩ := exists_label_of_mem_nodes hnode
    exact ⟨node, label, heq, hlabel⟩
  · intro d hd
    obtain ⟨d₀, hd₀, rfl⟩ := List.mem_map.mp hd
    obtain ⟨label, hlabel⟩ := hlabel d₀ hd₀
    exact label?_eq_describe hlabel

/-- A class of which the supertype is missing, and one that calls its own constructor. -/
def halting : SourceFile :=
  ofDeclarations "halting"
    [.classDecl
      { name := some "A", delegationSpecifiers := [.superClass 0 { name := "Missing" }] } [],
     .classDecl { name := some "B", delegationSpecifiers := [.thisCall 0 []] } []]

set_option maxRecDepth 20000 in
/-- The missing supertype is reported once, at the type reference, before the call of the own
constructor stops the analysis. -/
theorem reported_once_with_label_halting :
    ((halting.analyze {}).session.diagnostics.toList.map Diagnostic.content =
        [(.unresolvedReference, 3, "Unresolved type: Missing")] ∧
      (halting.analyze {}).fault = some (.at_ 5 .thisCallInClass)) ∧
    halting.Obtained ∧
      ((halting.analyze {}).session.diagnostics.toList.map Diagnostic.content).Nodup ∧
        (∀ d ∈ (halting.analyze {}).session.diagnostics.toList,
          ∃ label, halting.label? d.node = some label) ∧
          (∃ label, halting.label? 5 = some label) ∧
            ∀ d ∈ (Engine.analyze {} halting).diagnostics,
              halting.label? d.diagnostic.node = some d.label := by
  have hobtained : halting.Obtained := .ofDeclarations ..
  have hreports : (halting.analyze {}).session.diagnostics.toList.map Diagnostic.content =
      [(.unresolvedReference, 3, "Unresolved type: Missing")] := by decide +kernel
  have hfault : (halting.analyze {}).fault = some (.at_ 5 .thisCallInClass) := by decide +kernel
  have h := reported_once_with_label hobtained {}
  dsimp only at h
  obtain ⟨hnodup, hlabel, hlabeled, hdescribed⟩ := h
  obtain ⟨node, label, hnode, hnodeLabel⟩ := hlabeled _ hfault
  obtain rfl := Option.some.inj hnode
  exact ⟨⟨hreports, hfault⟩, hobtained, hnodup, hlabel, ⟨label, hnodeLabel⟩, hdescribed⟩

end SourceFile

end DeclAnalysis

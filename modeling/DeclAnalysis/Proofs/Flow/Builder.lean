import DeclAnalysis.Flow.Builder
import DeclAnalysis.Proofs.Flow.Edges
import DeclAnalysis.Proofs.Flow.Operands

/-!
# Code with labels is the code of the graph

Emitting an expression appends its instructions and leaves the labels that exist
already alone. Every label that is created on the way is bound before the
expression is done, and with its labels replaced by the positions they are bound
to, what is emitted is what the expression is lowered to. `Code.Emits` says so
about a part of the emission, in which some of the new labels may be pending.

Every target in lowered code is a position behind the entry, so no jump can go to
a label without a position. Linking the code never fails therefore, and the edges
that it stores are those of the graph.
-/

namespace DeclAnalysis

namespace Code

variable {c c' c₁ c₂ : Code} {l : Nat}

/-! ## Single steps -/

@[simp] theorem size_push (c : Code) (i : Instruction) : (c.push i).size = c.size + 1 := by
  simp [push, size]

@[simp] theorem size_createLabel (c : Code) : c.createLabel.size = c.size := rfl

@[simp] theorem size_bindLabel (c : Code) (l : Nat) : (c.bindLabel l).size = c.size := rfl

@[simp] theorem nextLabel_push (c : Code) (i : Instruction) :
    (c.push i).nextLabel = c.nextLabel := rfl

@[simp] theorem nextLabel_createLabel (c : Code) :
    c.createLabel.nextLabel = c.nextLabel + 1 := by
  simp [createLabel, nextLabel]

@[simp] theorem nextLabel_bindLabel (c : Code) (l : Nat) :
    (c.bindLabel l).nextLabel = c.nextLabel := by
  simp [bindLabel, nextLabel]

@[simp] theorem label?_push (c : Code) (i : Instruction) (l : Nat) :
    (c.push i).label? l = c.label? l := rfl

theorem label?_eq_none_of_le (h : c.nextLabel ≤ l) : c.label? l = none := by
  simp only [nextLabel] at h
  simp [label?, h]

@[simp] theorem label?_createLabel (c : Code) (l : Nat) :
    c.createLabel.label? l = c.label? l := by
  simp only [createLabel, label?, Array.getElem?_push]
  split
  · simp_all
  · rfl

theorem label?_bindLabel_self (h : l < c.nextLabel) :
    (c.bindLabel l).label? l = some c.size := by
  simp only [nextLabel] at h
  simp [bindLabel, label?, h]

theorem label?_bindLabel_of_ne {k : Nat} (h : k ≠ l) :
    (c.bindLabel l).label? k = c.label? k := by
  simp [bindLabel, label?, h.symm]

/-! ## Parts of the emission -/

/-- The positions agree with those of the labels from a number on. -/
def Agrees (c : Code) (first : Nat) (position : Nat → Nat) : Prop :=
  ∀ l p, first ≤ l → c.label? l = some p → position l = p

/-- Between the two states instructions are appended, which are the lowered ones up
to labels. The labels of the first state are left alone, and of the new ones those
that are not pending are bound. Where some of them are bound to is known. -/
structure Emits (c c' : Code) (pending : List Nat) (known : List (Nat × Nat))
    (lowered : (Nat → Nat) → List Instruction) : Prop where
  subroutine_eq : c'.subroutine = c.subroutine
  nextLabel_le : c.nextLabel ≤ c'.nextLabel
  kept : ∀ l, l < c.nextLabel → c'.label? l = c.label? l
  nodup : pending.Nodup
  pending_new : ∀ l ∈ pending, c.nextLabel ≤ l ∧ l < c'.nextLabel ∧ c'.label? l = none
  known_new : ∀ k ∈ known, c.nextLabel ≤ k.1 ∧ c'.label? k.1 = some k.2
  emitted : ∃ code, c'.instructions.toList = c.instructions.toList ++ code ∧
    ∀ position, c'.Agrees c.nextLabel position →
      code.map (Instruction.relabel position) = lowered position

namespace Emits

variable {pending pending' : List Nat} {known known' : List (Nat × Nat)}
  {lowered lowered' : (Nat → Nat) → List Instruction}

theorem push (c : Code) (i : Instruction) :
    Emits c (c.push i) [] [] fun position => [i.relabel position] where
  subroutine_eq := rfl
  nextLabel_le := le_rfl
  kept _ _ := rfl
  nodup := List.nodup_nil
  pending_new := nofun
  known_new := nofun
  emitted := ⟨[i], by simp [Code.push], fun _ _ => rfl⟩

theorem nil (c : Code) : Emits c c [] [] fun _ => [] where
  subroutine_eq := rfl
  nextLabel_le := le_rfl
  kept _ _ := rfl
  nodup := List.nodup_nil
  pending_new := nofun
  known_new := nofun
  emitted := ⟨[], by simp, fun _ _ => rfl⟩

theorem createLabel (c : Code) : Emits c c.createLabel [c.nextLabel] [] fun _ => [] where
  subroutine_eq := rfl
  nextLabel_le := by simp
  kept l _ := c.label?_createLabel l
  nodup := List.nodup_singleton _
  pending_new := by simp [label?_eq_none_of_le]
  known_new := nofun
  emitted := ⟨[], by simp [Code.createLabel], fun _ _ => rfl⟩

theorem trans
    (h : Emits c c₁ pending known lowered)
    (h' : Emits c₁ c₂ pending' known' lowered') :
    Emits c c₂ (pending ++ pending') (known ++ known')
      fun position => lowered position ++ lowered' position where
  subroutine_eq := h'.subroutine_eq.trans h.subroutine_eq
  nextLabel_le := h.nextLabel_le.trans h'.nextLabel_le
  kept l hl := (h'.kept l (hl.trans_le h.nextLabel_le)).trans (h.kept l hl)
  nodup := by
    refine List.nodup_append.mpr ⟨h.nodup, h'.nodup, ?_⟩
    rintro l hl l' hl' rfl
    have hlt := (h.pending_new l hl).2.1
    have hle := (h'.pending_new l hl').1
    omega
  pending_new l hl := by
    rcases List.mem_append.mp hl with hl | hl
    · obtain ⟨hle, hlt, hnone⟩ := h.pending_new l hl
      exact ⟨hle, hlt.trans_le h'.nextLabel_le, (h'.kept l hlt).trans hnone⟩
    · obtain ⟨hle, hlt, hnone⟩ := h'.pending_new l hl
      exact ⟨h.nextLabel_le.trans hle, hlt, hnone⟩
  known_new k hk := by
    rcases List.mem_append.mp hk with hk | hk
    · obtain ⟨hle, hsome⟩ := h.known_new k hk
      have hlt : k.1 < c₁.nextLabel := by
        by_contra hge
        rw [label?_eq_none_of_le (Nat.le_of_not_lt hge)] at hsome
        cases hsome
      exact ⟨hle, (h'.kept k.1 hlt).trans hsome⟩
    · obtain ⟨hle, hsome⟩ := h'.known_new k hk
      exact ⟨h.nextLabel_le.trans hle, hsome⟩
  emitted := by
    obtain ⟨code, hcode, hlowered⟩ := h.emitted
    obtain ⟨code', hcode', hlowered'⟩ := h'.emitted
    refine ⟨code ++ code', by rw [hcode', hcode, List.append_assoc], fun position hagrees => ?_⟩
    have hfirst : c₁.Agrees c.nextLabel position := by
      intro l p hle hsome
      by_cases hlt : l < c₁.nextLabel
      · exact hagrees l p hle ((h'.kept l hlt).trans hsome)
      · rw [label?_eq_none_of_le (Nat.le_of_not_lt hlt)] at hsome
        cases hsome
    have hsecond : c₂.Agrees c₁.nextLabel position :=
      fun l p hle hsome => hagrees l p (h.nextLabel_le.trans hle) hsome
    rw [List.map_append, hlowered position hfirst, hlowered' position hsecond]

/-- A jump to a label that is created for it. -/
theorem jumpAhead (c : Code) (kind : JumpKind) :
    Emits c (c.createLabel.push (.jump kind c.nextLabel none)) [c.nextLabel] []
      fun position => [.jump kind (position c.nextLabel) none] :=
  (createLabel c).trans (push _ _)

/-- The label that has been pending the longest is bound. -/
theorem bindLabel
    (h : Emits c c' (l :: pending) known lowered) :
    Emits c (c'.bindLabel l) pending ((l, c'.size) :: known) lowered := by
  obtain ⟨hle, hlt, hnone⟩ := h.pending_new l List.mem_cons_self
  obtain ⟨hnew, hnodup⟩ := List.nodup_cons.mp h.nodup
  refine ⟨h.subroutine_eq, by simpa using h.nextLabel_le, fun k hk => ?_, hnodup,
    fun k hk => ?_, fun k hk => ?_, ?_⟩
  · rw [label?_bindLabel_of_ne (by omega)]
    exact h.kept k hk
  · obtain ⟨hle', hlt', hnone'⟩ := h.pending_new k (List.mem_cons_of_mem l hk)
    have hne : k ≠ l := by
      rintro rfl
      exact hnew hk
    rw [label?_bindLabel_of_ne hne]
    exact ⟨hle', by simpa using hlt', hnone'⟩
  · rcases List.mem_cons.mp hk with rfl | hk
    · exact ⟨hle, label?_bindLabel_self hlt⟩
    · obtain ⟨hle', hsome⟩ := h.known_new k hk
      have hne : k.1 ≠ l := by
        intro heq
        rw [heq, hnone] at hsome
        cases hsome
      rw [label?_bindLabel_of_ne hne]
      exact ⟨hle', hsome⟩
  · obtain ⟨code, hcode, hlowered⟩ := h.emitted
    refine ⟨code, hcode, fun position hagrees => hlowered position fun k p hk hsome => ?_⟩
    have hne : k ≠ l := by
      rintro rfl
      rw [hnone] at hsome
      cases hsome
    exact hagrees k p hk (by rwa [label?_bindLabel_of_ne hne])

/-- The positions of the labels that are known are put in. -/
theorem finish
    (h : Emits c c' [] known lowered)
    (hlowered : ∀ position : Nat → Nat, (∀ k ∈ known, position k.1 = k.2) →
      lowered position = lowered' position) :
    Emits c c' [] [] lowered' := by
  refine ⟨h.subroutine_eq, h.nextLabel_le, h.kept, h.nodup, h.pending_new, nofun, ?_⟩
  obtain ⟨code, hcode, hemitted⟩ := h.emitted
  refine ⟨code, hcode, fun position hagrees => ?_⟩
  rw [hemitted position hagrees]
  exact hlowered position fun k hk => hagrees k.1 k.2 (h.known_new k hk).1 (h.known_new k hk).2

end Emits

end Code

namespace Expr

open Code (Emits)

/-! ## Expressions -/

mutual

@[simp] theorem size_emit (loops : List LoopTargets) (c : Code) (e : Expr) :
    (e.emit loops c).size = c.size + e.span := by
  match e with
  | constant .. | name .. | lambda .. | ret _ none | localVariable _ _ _ _ none | block _ [] =>
      simp [emit, span]
  | breakLoop _ | continueLoop _ => cases loops <;> simp [emit, span]
  | dot _ value _ | ret _ (some value) | localVariable _ _ _ _ (some value) =>
      simp [emit, span, size_emit, Nat.add_assoc]
  | block _ (first :: rest) => simp [emit, span, size_emit, size_emitAll, Nat.add_assoc]
  | cond _ condition thenBranch none => simp [emit, span, size_emit, Nat.add_assoc]
  | cond _ condition thenBranch (some elseBranch) =>
      simp [emit, span, size_emit, Nat.add_assoc]
  | whileLoop _ condition body => simp [emit, span, size_emit, Nat.add_assoc]
  | doWhileLoop _ body condition => simp [emit, span, size_emit, Nat.add_assoc]
  | binary _ operator left right =>
      cases h : operator.isShortCircuit <;> simp [emit, span, h, size_emit, Nat.add_assoc]
  | assign _ target value => simp [emit, span, size_emit, size_emitReceiver, Nat.add_assoc]
  | call _ _ arguments => simp [emit, span, size_emitAll, Nat.add_assoc]

@[simp] theorem size_emitAll (loops : List LoopTargets) (c : Code) (es : List Expr) :
    (emitAll loops c es).size = c.size + spanOf es := by
  match es with
  | [] => simp [emitAll, spanOf]
  | e :: rest => simp [emitAll, spanOf, size_emit, size_emitAll, Nat.add_assoc]

@[simp] theorem size_emitReceiver (loops : List LoopTargets) (c : Code) (e : Expr) :
    (emitReceiver loops c e).size = c.size + receiverSpan e := by
  match e with
  | dot _ receiver _ => exact size_emit loops c receiver
  | constant .. | name .. | lambda .. | breakLoop _ | continueLoop _ | block .. | cond ..
  | whileLoop .. | doWhileLoop .. | ret .. | binary .. | assign .. | call ..
  | localVariable .. => simp [emitReceiver, receiverSpan]

end

/-- The targets of the innermost loop, as positions. -/
def loopAt (loops : List LoopTargets) (position : Nat → Nat) : Option LoopTargets :=
  loops.head?.map fun targets => ⟨position targets.onContinue, position targets.onBreak⟩

mutual

/-- What is emitted for an expression is what it is lowered to. -/
theorem emits_emit (loops : List LoopTargets) (c : Code) (e : Expr) :
    Emits c (e.emit loops c) [] [] fun position => e.lower (loopAt loops position) c.size := by
  match e with
  | constant id _ | name id _ => exact .push c (.read id)
  | lambda id _ _ => exact .push c (.unsupported id)
  | ret id none => exact .push c (.returnUnit id)
  | localVariable id _ _ _ none => exact .push c (.write id)
  | block id [] => exact .push c (.readUnit id)
  | breakLoop id =>
      cases loops with
      | nil => exact .push c (.unsupported id)
      | cons targets loops => exact .push c (.jump .unconditional targets.onBreak (some id))
  | continueLoop id =>
      cases loops with
      | nil => exact .push c (.unsupported id)
      | cons targets loops => exact .push c (.jump .unconditional targets.onContinue (some id))
  | dot id receiver _ => exact (emits_emit loops c receiver).trans (.push _ (.read id))
  | ret id (some value) => exact (emits_emit loops c value).trans (.push _ (.returnValue id))
  | localVariable id _ _ _ (some initializer) =>
      exact (emits_emit loops c initializer).trans (.push _ (.write id))
  | block _ (first :: rest) =>
      have hfirst := emits_emit loops c first
      have hrest := emits_emitAll loops (first.emit loops c) rest
      rw [size_emit] at hrest
      exact hfirst.trans hrest
  | call id _ arguments => exact (emits_emitAll loops c arguments).trans (.push _ (.read id))
  | assign id target value =>
      have htarget := emits_emitReceiver loops c target
      have hvalue := emits_emit loops (emitReceiver loops c target) value
      rw [size_emitReceiver] at hvalue
      exact (htarget.trans hvalue).trans (.push _ (.write id))
  | cond id condition thenBranch none =>
      have hcondition := (emits_emit loops c condition).trans (.jumpAhead _ .ifFalse)
      have hthen := (hcondition.trans (emits_emit loops _ thenBranch)).trans
        (.jumpAhead _ .unconditional)
      have helse := (hthen.bindLabel.trans (.push _ (.readUnit id))).bindLabel
      refine helse.finish fun position hknown => ?_
      simp only [List.cons_append, List.mem_cons, forall_eq_or_imp] at hknown
      obtain ⟨hend, helse, -⟩ := hknown
      simp [lower, Instruction.relabel, hend, helse]
  | cond _ condition thenBranch (some elseBranch) =>
      have hcondition := (emits_emit loops c condition).trans (.jumpAhead _ .ifFalse)
      have hthen := (hcondition.trans (emits_emit loops _ thenBranch)).trans
        (.jumpAhead _ .unconditional)
      have helse := (hthen.bindLabel.trans (emits_emit loops _ elseBranch)).bindLabel
      refine helse.finish fun position hknown => ?_
      simp only [List.cons_append, List.mem_cons, forall_eq_or_imp] at hknown
      obtain ⟨hend, helse, -⟩ := hknown
      simp [lower, hend, helse]
  | whileLoop id condition body =>
      have hlabels := ((Emits.createLabel c).trans (.createLabel _)).bindLabel
      have hcondition := (hlabels.trans (emits_emit loops _ condition)).trans
        (.push _ (.jump .ifFalse c.createLabel.nextLabel none))
      have hbody := (hcondition.trans
        (emits_emit (⟨c.nextLabel, c.createLabel.nextLabel⟩ :: loops) _ body)).trans
          (.push _ (.jump .unconditional c.nextLabel none))
      have hloop := hbody.bindLabel.trans (.push _ (.readUnit id))
      refine hloop.finish fun position hknown => ?_
      simp only [List.cons_append, List.mem_cons, forall_eq_or_imp,
        Code.nextLabel_createLabel] at hknown
      obtain ⟨hexit, hhead, -⟩ := hknown
      simp [lower, Instruction.relabel, loopAt, hexit, hhead]
  | doWhileLoop id body condition =>
      have hlabels := (((Emits.createLabel c).trans (.createLabel _)).trans
        (.createLabel _)).bindLabel
      have hbody := (hlabels.trans (emits_emit (⟨c.createLabel.nextLabel,
        c.createLabel.createLabel.nextLabel⟩ :: loops) _ body)).bindLabel
      have hcondition := (hbody.trans (emits_emit loops _ condition)).trans
        (.push _ (.jump .ifTrue c.nextLabel none))
      have hloop := hcondition.bindLabel.trans (.push _ (.readUnit id))
      refine hloop.finish fun position hknown => ?_
      simp only [List.cons_append, List.mem_cons, forall_eq_or_imp,
        Code.nextLabel_createLabel] at hknown
      obtain ⟨hexit, hcheck, hstart, -⟩ := hknown
      simp [lower, Instruction.relabel, loopAt, hexit, hcheck, hstart]
  | binary id operator left right =>
      cases hoperator : operator.isShortCircuit with
      | true =>
          have hleft := (emits_emit loops c left).trans (.jumpAhead _ (skipKind operator))
          have hright := (hleft.trans (emits_emit loops _ right)).bindLabel
          have hread := hright.trans (.push _ (.read id))
          simp only [emit, hoperator, if_true]
          refine hread.finish fun position hknown => ?_
          simp only [List.cons_append, List.mem_cons, forall_eq_or_imp] at hknown
          obtain ⟨hend, -⟩ := hknown
          simp [lower, hoperator, Instruction.relabel, hend]
      | false =>
          have hleft := emits_emit loops c left
          have hright := emits_emit loops (left.emit loops c) right
          rw [size_emit] at hright
          have hread := (hleft.trans hright).trans (.push _ (.read id))
          simpa [emit, lower, hoperator, Instruction.relabel] using hread

theorem emits_emitAll (loops : List LoopTargets) (c : Code) (es : List Expr) :
    Emits c (emitAll loops c es) [] [] fun position =>
      lowerAll (loopAt loops position) c.size es := by
  match es with
  | [] => exact .nil c
  | e :: rest =>
      have hfirst := emits_emit loops c e
      have hrest := emits_emitAll loops (e.emit loops c) rest
      rw [size_emit] at hrest
      exact hfirst.trans hrest

theorem emits_emitReceiver (loops : List LoopTargets) (c : Code) (e : Expr) :
    Emits c (emitReceiver loops c e) [] [] fun position =>
      lowerReceiver (loopAt loops position) c.size e := by
  match e with
  | dot _ receiver _ => exact emits_emit loops c receiver
  | constant .. | name .. | lambda .. | breakLoop _ | continueLoop _ | block .. | cond ..
  | whileLoop .. | doWhileLoop .. | ret .. | binary .. | assign .. | call ..
  | localVariable .. => exact .nil c

end

end Expr

namespace Code

/-! ## Finished code -/

section OfBody

variable (subroutine : Nat) (body : Expr)

theorem graph_ofBody : (ofBody subroutine body).graph = FlowGraph.ofBody subroutine body := by
  have h := ((body.emits_emit [] (start subroutine)).trans (.push _ (.exit subroutine)))
  obtain ⟨code, hcode, hlowered⟩ := h.emitted
  have hagrees : (ofBody subroutine body).Agrees (start subroutine).nextLabel
      (ofBody subroutine body).position := by
    intro l p _ hl
    exact congrArg (Option.getD · 0) hl
  have hsubroutine : (ofBody subroutine body).subroutine = subroutine := h.subroutine_eq
  have hinstructions : (ofBody subroutine body).instructions.toList = .enter subroutine :: code :=
    hcode
  unfold graph FlowGraph.ofBody
  rw [hsubroutine]
  congr 1
  apply Array.toList_inj.mp
  rw [Array.toList_map, hinstructions, List.map_cons, hlowered _ hagrees]
  rfl

theorem size_ofBody : (ofBody subroutine body).size = (FlowGraph.ofBody subroutine body).size := by
  rw [← graph_ofBody]
  simp [graph, FlowGraph.size, size]

theorem instruction_ofBody
    {p : Nat} {i : Instruction}
    (hi : (ofBody subroutine body).instructions[p]? = some i) :
    (FlowGraph.ofBody subroutine body).instructions[p]? =
      some (i.relabel (ofBody subroutine body).position) := by
  rw [← graph_ofBody]
  simp [graph, hi]

/-- A jump to a label without a position would go to the entry. -/
theorem resolve_ofBody
    {p label : Nat} {kind : JumpKind} {element : Option Nat}
    (hi : (ofBody subroutine body).instructions[p]? = some (.jump kind label element)) :
    (ofBody subroutine body).resolve label = .ok ((ofBody subroutine body).position label) := by
  obtain ⟨hlow, hhigh⟩ :=
    (FlowGraph.aims_ofBody subroutine body (instruction_ofBody subroutine body hi)).1
  rw [FlowGraph.exit_ofBody] at hhigh
  have hlt : (ofBody subroutine body).position label < (ofBody subroutine body).size := by
    rw [size_ofBody, FlowGraph.size_ofBody]
    omega
  unfold position at hlow hlt ⊢
  cases hl : (ofBody subroutine body).label? label with
  | none =>
      rw [hl, Option.getD_none] at hlow
      omega
  | some position =>
      rw [hl, Option.getD_some] at hlt
      simp [resolve, hl, hlt]

/-- The edges that are stored for an instruction are those of the graph. -/
theorem targets_ofBody
    {p : Nat}
    (hp : p < (ofBody subroutine body).size) :
    (ofBody subroutine body).targets p = .ok ((FlowGraph.ofBody subroutine body).next p) := by
  have hsize := size_ofBody subroutine body
  obtain ⟨i, hi⟩ : ∃ i, (ofBody subroutine body).instructions[p]? = some i :=
    ⟨_, Array.getElem?_eq_getElem hp⟩
  have hi' := instruction_ofBody subroutine body hi
  have hfollowing : p + 1 ∈ (FlowGraph.ofBody subroutine body).next p →
      (if p + 1 < (ofBody subroutine body).size then [p + 1] else []) = [p + 1] := by
    intro edge
    apply if_pos
    rw [hsize]
    exact (FlowGraph.bounds_of_mem_next subroutine body edge).2
  cases i with
  | exit _ => simp [targets, hi, FlowGraph.next, hi', Instruction.relabel]
  | returnValue _ | returnUnit _ =>
      simp [targets, hi, FlowGraph.next, hi', Instruction.relabel, FlowGraph.exit, hsize]
  | jump kind label element =>
      have hresolve := resolve_ofBody subroutine body hi
      cases kind with
      | unconditional =>
          simp only [targets, hi, FlowGraph.next, hi', Instruction.relabel, hresolve]
          rfl
      | ifTrue | ifFalse =>
          obtain ⟨-, hnext⟩ := FlowGraph.next_of_conditional subroutine body hi' (by decide)
          rw [hnext]
          simp only [targets, hi, hresolve, hfollowing (by simp [hnext])]
          rfl
  | enter _ | read _ | readUnit _ | write _ | unsupported _ =>
      have hnext : (FlowGraph.ofBody subroutine body).next p = [p + 1] := by
        simp [FlowGraph.next, hi', Instruction.relabel]
      rw [hnext, ← hfollowing (by simp [hnext])]
      simp [targets, hi]

end OfBody

end Code

/-! ## Stored edges -/

namespace Edges

variable {edges : Edges} {p q source : Nat}

@[simp] theorem size_next_addAll (edges : Edges) (source : Nat) (targets : List Nat) :
    (edges.addAll source targets).next.size = edges.next.size := by
  induction targets generalizing edges with
  | nil => rfl
  | cons target targets ih =>
      rw [addAll, List.foldl_cons, ← addAll, ih]
      simp [add]

@[simp] theorem size_previous_addAll (edges : Edges) (source : Nat) (targets : List Nat) :
    (edges.addAll source targets).previous.size = edges.previous.size := by
  induction targets generalizing edges with
  | nil => rfl
  | cons target targets ih =>
      rw [addAll, List.foldl_cons, ← addAll, ih]
      simp [add]

theorem successors_add
    (target : Nat)
    (hp : p < edges.next.size) :
    (edges.add source target).successors p =
      if source = p then enter target (edges.successors p) else edges.successors p := by
  simp only [successors, add, Array.getD_eq_getD_getElem?, Array.getElem?_modify]
  split
  · simp [hp]
  · rfl

theorem predecessors_add
    (target : Nat)
    (hq : q < edges.previous.size) :
    (edges.add source target).predecessors q =
      if target = q then enter source (edges.predecessors q) else edges.predecessors q := by
  simp only [predecessors, add, Array.getD_eq_getD_getElem?, Array.getElem?_modify]
  split
  · simp [hq]
  · rfl

/-- Positions that are entered one after the other and are all different stand in
the list in this order. -/
theorem foldl_enter
    {entered positions : List Nat}
    (hnodup : (entered ++ positions).Nodup) :
    positions.foldl (fun entered position => enter position entered) entered =
      entered ++ positions := by
  induction positions generalizing entered with
  | nil => simp
  | cons position positions ih =>
      have hnew : position ∉ entered := by
        intro hmem
        exact (List.nodup_append.mp hnodup).2.2 position hmem position List.mem_cons_self rfl
      rw [List.foldl_cons, enter, if_neg hnew, ih (by simpa using hnodup)]
      simp

theorem successors_addAll
    (targets : List Nat)
    (hp : p < edges.next.size) :
    (edges.addAll source targets).successors p =
      if source = p then
        targets.foldl (fun entered target => enter target entered) (edges.successors p)
      else edges.successors p := by
  induction targets generalizing edges with
  | nil => simp [addAll]
  | cons target targets ih =>
      rw [addAll, List.foldl_cons, ← addAll, ih (by simpa [add] using hp), successors_add _ hp]
      split
      · rw [List.foldl_cons]
      · rfl

theorem predecessors_addAll
    (targets : List Nat)
    (hq : q < edges.previous.size) :
    (edges.addAll source targets).predecessors q =
      if q ∈ targets then enter source (edges.predecessors q) else edges.predecessors q := by
  have henter : ∀ positions, enter source (enter source positions) = enter source positions := by
    intro positions
    unfold enter
    split <;> simp_all
  induction targets generalizing edges with
  | nil => simp [addAll]
  | cons target targets ih =>
      rw [addAll, List.foldl_cons, ← addAll, ih (by simpa [add] using hq), predecessors_add _ hq]
      by_cases hfirst : target = q
      · subst hfirst
        simp [henter]
      · have hne : q ≠ target := fun h => hfirst h.symm
        simp [hfirst, hne]

/-- The edges of the positions before `done` are stored: at their sources in the
order in which they are given, and at their targets in ascending order. -/
structure Stores (edges : Edges) (size done : Nat) (next : Nat → List Nat) : Prop where
  size_next : edges.next.size = size
  size_previous : edges.previous.size = size
  successors_eq : ∀ p < size, edges.successors p = if p < done then next p else []
  predecessors_eq : ∀ q < size,
    edges.predecessors q = (List.range done).filter fun source => q ∈ next source

theorem stores_none (size : Nat) (next : Nat → List Nat) : (none size).Stores size 0 next where
  size_next := by simp [none]
  size_previous := by simp [none]
  successors_eq p hp := by simp [none, successors, hp]
  predecessors_eq q hq := by simp [none, predecessors, hq]

/-- Storing the edges of one more position. -/
theorem Stores.addAll
    {size done : Nat} {next : Nat → List Nat}
    (h : edges.Stores size done next)
    (hnodup : (next done).Nodup) :
    (edges.addAll done (next done)).Stores size (done + 1) next where
  size_next := by rw [size_next_addAll, h.size_next]
  size_previous := by rw [size_previous_addAll, h.size_previous]
  successors_eq p hp := by
    rw [successors_addAll _ (h.size_next ▸ hp), h.successors_eq p hp]
    by_cases heq : done = p
    · subst heq
      rw [if_pos rfl, if_neg (Nat.lt_irrefl _), if_pos (Nat.lt_succ_self _),
        foldl_enter (by simpa using hnodup), List.nil_append]
    · rw [if_neg heq]
      by_cases hlt : p < done
      · rw [if_pos hlt, if_pos (by omega)]
      · rw [if_neg hlt, if_neg (by omega)]
  predecessors_eq q hq := by
    rw [predecessors_addAll _ (h.size_previous ▸ hq), h.predecessors_eq q hq, List.range_succ,
      List.filter_append]
    by_cases hmem : q ∈ next done
    · simp [hmem, enter]
    · simp [hmem]

end Edges

namespace Code

open Edges (Stores)

variable (subroutine : Nat) (body : Expr)

/-- Linking goes through all positions and never fails. -/
theorem exists_stores_foldlM
    {done : Nat}
    (hdone : done ≤ (ofBody subroutine body).size) :
    ∃ edges, (List.range done).foldlM (ofBody subroutine body).linkNext
        (Edges.none (ofBody subroutine body).size) = .ok edges ∧
      edges.Stores (ofBody subroutine body).size done (FlowGraph.ofBody subroutine body).next := by
  induction done with
  | zero => exact ⟨_, rfl, Edges.stores_none _ _⟩
  | succ done ih =>
      obtain ⟨edges, hedges, hstores⟩ := ih (by omega)
      have hstep : (ofBody subroutine body).linkNext edges done =
          .ok (edges.addAll done ((FlowGraph.ofBody subroutine body).next done)) := by
        rw [linkNext, targets_ofBody subroutine body hdone]
        rfl
      refine ⟨_, ?_, hstores.addAll (FlowGraph.nodup_next _ done)⟩
      rw [List.range_succ, List.foldlM_append, hedges]
      simp only [List.foldlM_cons, List.foldlM_nil, bind_pure]
      exact hstep

end Code

/-! ## Built code -/

namespace Pseudocode

/-- Code that is well formed: its entry is first and its exit is last, its edges
are stored at both of their ends and each once, how many edges leave an
instruction follows from its kind, and its elements are different expressions of
the body. -/
structure WellFormed (p : Pseudocode) (subroutine : Nat) (body : Expr) : Prop where
  enter_first : ∀ a s, p.code.graph.instructions[a]? = some (.enter s) ↔
    a = 0 ∧ s = subroutine
  exit_last : ∀ a s, p.code.graph.instructions[a]? = some (.exit s) ↔
    a + 1 = p.code.size ∧ s = subroutine
  bounds : ∀ a, ∀ b ∈ p.edges.successors a, a < p.code.size ∧ b < p.code.size
  mem_iff : ∀ a b, b ∈ p.edges.successors a ↔ a ∈ p.edges.predecessors b
  nodup : ∀ a, (p.edges.successors a).Nodup ∧ (p.edges.predecessors a).Nodup
  entry : p.edges.predecessors 0 = []
  exit : p.edges.successors (p.code.size - 1) = []
  returns : ∀ a i, p.code.graph.instructions[a]? = some i → i.isReturn = true →
    p.edges.successors a = [p.code.size - 1]
  conditional : ∀ a i, p.code.graph.instructions[a]? = some i → i.isConditional = true →
    ∃ b c, b ≠ c ∧ p.edges.successors a = [b, c]
  other : ∀ a i, p.code.graph.instructions[a]? = some i → i.isConditional = false →
    a + 1 ≠ p.code.size → ∃ b, p.edges.successors a = [b]
  nodup_elements : p.code.graph.elements.Nodup
  elements : ∀ x ∈ p.code.graph.elements, ∃ sub ∈ body.subexpressions, sub.id = x

section OfBody

variable (subroutine : Nat) (body : Expr)

/-- Building the code of a body never fails, and the edges that are stored are
those of the graph. -/
theorem exists_build_eq_ok :
    ∃ p, build subroutine body = .ok p ∧ p.code = Code.ofBody subroutine body ∧
      (∀ a, p.edges.successors a = (FlowGraph.ofBody subroutine body).next a) ∧
      ∀ a, p.edges.predecessors a = (FlowGraph.ofBody subroutine body).previous a := by
  have hsize := Code.size_ofBody subroutine body
  obtain ⟨edges, hedges, hstores⟩ := Code.exists_stores_foldlM subroutine body le_rfl
  refine ⟨⟨Code.ofBody subroutine body, edges⟩, ?_, rfl, fun a => ?_, fun a => ?_⟩
  · rw [build, Code.link, hedges]
    rfl
  · by_cases ha : a < (Code.ofBody subroutine body).size
    · rw [hstores.successors_eq a ha, if_pos ha]
    · rw [FlowGraph.next_eq_nil_of_size_le (by omega)]
      simp [Edges.successors, hstores.size_next, ha]
  · by_cases ha : a < (Code.ofBody subroutine body).size
    · rw [hstores.predecessors_eq a ha, FlowGraph.previous, hsize]
    · have hnone : (FlowGraph.ofBody subroutine body).previous a = [] := by
        rw [List.eq_nil_iff_forall_not_mem]
        intro q hq
        have hbounds := FlowGraph.bounds_of_mem_next subroutine body
          (FlowGraph.mem_previous_iff.mp hq)
        omega
      rw [hnone]
      simp [Edges.predecessors, hstores.size_previous, ha]

end OfBody

/-- Building the code of a body never fails, and the code is well formed. It is the
code of the graph in which the flow of the body is looked up. -/
theorem exists_build_eq_ok_and_wellFormed (subroutine n : Nat) (e : Expr) :
    ∃ p, build subroutine (e.number n) = .ok p ∧ p.WellFormed subroutine (e.number n) ∧
      p.code.graph = .ofBody subroutine (e.number n) ∧
      (∀ a, p.edges.successors a = (FlowGraph.ofBody subroutine (e.number n)).next a) ∧
      ∀ a, p.edges.predecessors a = (FlowGraph.ofBody subroutine (e.number n)).previous a := by
  obtain ⟨p, hbuild, hcode, hnext, hprevious⟩ := exists_build_eq_ok subroutine (e.number n)
  have hgraph : p.code.graph = .ofBody subroutine (e.number n) := by
    rw [hcode, Code.graph_ofBody]
  have hsize : p.code.size = 1 + (e.number n).span + 1 := by
    rw [hcode, Code.size_ofBody, FlowGraph.size_ofBody]
    omega
  have hexit : p.code.size - 1 = 1 + (e.number n).span := by omega
  refine ⟨p, hbuild, ?_, hgraph, hnext, hprevious⟩
  constructor
  case enter_first =>
    intro a s
    rw [hgraph]
    constructor
    · intro hi
      obtain rfl := FlowGraph.eq_zero_of_enter subroutine (e.number n) hi
      rw [FlowGraph.entry_ofBody] at hi
      cases hi
      exact ⟨rfl, rfl⟩
    · rintro ⟨rfl, rfl⟩
      exact FlowGraph.entry_ofBody _ _
  case exit_last =>
    intro a s
    rw [hgraph]
    constructor
    · intro hi
      obtain rfl := FlowGraph.eq_exit_of_instruction subroutine (e.number n) hi
      rw [FlowGraph.exit_ofBody] at hi ⊢
      rw [FlowGraph.instruction_exit_ofBody] at hi
      cases hi
      exact ⟨hsize.symm, rfl⟩
    · rintro ⟨ha, rfl⟩
      obtain rfl : a = 1 + (e.number n).span := by omega
      exact FlowGraph.instruction_exit_ofBody _ _
  case bounds =>
    intro a b edge
    rw [hnext] at edge
    have hlt := FlowGraph.lt_size_of_mem_next edge
    have hbounds := FlowGraph.bounds_of_mem_next subroutine (e.number n) edge
    rw [FlowGraph.size_ofBody] at hlt hbounds
    omega
  case mem_iff =>
    intro a b
    rw [hnext, hprevious, FlowGraph.mem_previous_iff]
  case nodup =>
    intro a
    rw [hnext, hprevious]
    exact ⟨FlowGraph.nodup_next _ a, FlowGraph.nodup_previous _ a⟩
  case entry => rw [hprevious, FlowGraph.previous_entry_ofBody]
  case exit => rw [hnext, hexit, FlowGraph.next_exit_ofBody]
  case returns =>
    intro a i hi hreturn
    rw [hgraph] at hi
    rw [hnext, hexit, ← FlowGraph.exit_ofBody subroutine]
    exact FlowGraph.next_of_isReturn hi hreturn
  case conditional =>
    intro a i hi hconditional
    rw [hgraph] at hi
    obtain ⟨kind, target, element, hkind, rfl⟩ := i.eq_jump_of_isConditional hconditional
    obtain ⟨hne, hpair⟩ := FlowGraph.next_of_conditional subroutine (e.number n) hi hkind
    exact ⟨target, a + 1, hne, (hnext a).trans hpair⟩
  case other =>
    intro a i hi hconditional hlast
    rw [hgraph] at hi
    rw [hnext]
    rcases FlowGraph.next_cases hi with ⟨⟨s, rfl⟩, -⟩ | ⟨-, h⟩ | ⟨target, _, -, h⟩ | h | h
    · have hlast' := FlowGraph.eq_exit_of_instruction subroutine (e.number n) hi
      rw [FlowGraph.exit_ofBody] at hlast'
      omega
    · exact ⟨_, h⟩
    · exact ⟨target, h⟩
    · rw [h] at hconditional
      cases hconditional
    · exact ⟨a + 1, h⟩
  case nodup_elements =>
    rw [hgraph]
    exact (FlowGraph.spread_elements_ofBody subroutine n e).nodup
  case elements =>
    intro x hx
    rw [hgraph, FlowGraph.elements_eq_map_steps, FlowGraph.filterMap_step?_ofBody] at hx
    obtain ⟨s, hs, rfl⟩ := List.mem_map.mp hx
    exact Expr.exists_subexpression_of_mem_steps hs

end Pseudocode

end DeclAnalysis

import DeclAnalysis.Proofs.Flow.Tails
import DeclAnalysis.Proofs.Flow.WalkBack
import DeclAnalysis.Typing.Check

/-!
# Return points

Where the value of a subroutine comes from, as the walk back from the exit finds
it, agrees with what the syntax says: it comes from the last steps of the body and
of the returned values, and from the returns without a value, as far as some
execution performs them.

A reachable position belongs to the walk exactly if it drains, so what is noted are
the reachable steps that are followed by a draining position. An instruction with a
value of its own has one successor only and its element is found nowhere else.
Therefore nothing is noted twice.
-/

namespace DeclAnalysis

namespace StepKind

/-- The step leaves a value, possibly the unit value of its element. -/
def hasValue : StepKind → Bool
  | read | readUnit => true
  | _ => false

/-- After the step there is no value. -/
def isDone : StepKind → Bool
  | write | returnUnit => true
  | _ => false

/-- The step is one that the flow does not look into. -/
def isUnsupported : StepKind → Bool
  | unsupported => true
  | _ => false

end StepKind

namespace Instruction

/-- The element of the instruction, if it carries out a step of one of the kinds. -/
def elementOf (kinds : StepKind → Bool) (i : Instruction) : Option Nat :=
  i.step?.bind fun s => if kinds s.kind then some s.element else none

theorem elementOf_eq_some_iff {kinds : StepKind → Bool} {i : Instruction} {x : Nat} :
    i.elementOf kinds = some x ↔ ∃ kind, kinds kind = true ∧ i.step? = some ⟨kind, x⟩ := by
  constructor
  · intro h
    obtain ⟨⟨kind, element⟩, hs, h⟩ := Option.bind_eq_some_iff.mp h
    obtain ⟨hkind, ⟨⟩⟩ := Option.ite_none_right_eq_some.mp h
    exact ⟨kind, hkind, hs⟩
  · rintro ⟨kind, hkind, hs⟩
    simp [elementOf, hs, hkind]

end Instruction

namespace ReturnedInformation

/-- What is known after some instructions have been taken note of. -/
theorem foldl_add
    (info : ReturnedInformation) (code : List Instruction)
    (hcode : ∀ subroutine, .enter subroutine ∉ code) :
    code.foldl add info =
      { expressions :=
          info.expressions ++ code.filterMap (Instruction.elementOf StepKind.hasValue)
        unitReturning :=
          info.unitReturning ++ code.filterMap (Instruction.elementOf StepKind.isDone)
        unsupported :=
          info.unsupported ++ code.filterMap (Instruction.elementOf StepKind.isUnsupported) } := by
  induction code generalizing info with
  | nil => simp
  | cons i code ih =>
      rw [List.foldl_cons, ih _ fun subroutine h => hcode subroutine (List.mem_cons_of_mem i h)]
      cases i with
      | enter subroutine => exact absurd List.mem_cons_self (hcode subroutine)
      | jump kind target element =>
          cases element <;>
            simp [add, List.filterMap_cons, Instruction.elementOf, Instruction.step?,
              StepKind.hasValue, StepKind.isDone, StepKind.isUnsupported]
      | exit _ | read _ | readUnit _ | write _ | returnValue _ | returnUnit _ | unsupported _ =>
          simp [add, List.filterMap_cons, Instruction.elementOf, Instruction.step?,
            StepKind.hasValue, StepKind.isDone, StepKind.isUnsupported]

end ReturnedInformation

namespace Expr

/-- The value of a body may be that of the step: the step is last in the body or in
the value of a `return`, or is itself a `return` without a value, and some execution
performs it. -/
def IsReturnPoint (body : Expr) (s : Step) : Prop :=
  (s ∈ body.tails false ∨ s ∈ body.finals false) ∧ (body.behaviour false).Performs s

end Expr

namespace FlowGraph

variable {g : FlowGraph} {p q : Nat} {s : Step}

/-! ## Reachable positions that drain -/

theorem has_reachable_of_next (hp : g.reachable.has p = true) (edge : q ∈ g.next p) :
    g.reachable.has q = true := by
  have hlt := lt_size_of_mem_next edge
  rw [reachable, reachableFrom, Marks.has_collect_iff] at hp ⊢
  by_cases hq : (Marks.none g.size).has q = true
  · exact Or.inl hq
  · rcases hp with hp | hp
    · rw [Marks.has_none, decide_eq_true_eq] at hp
      omega
    · exact Or.inr (hp.step edge (by simpa using hq))

theorem Backs.drains {reachable : Marks} (h : g.Backs reachable p) : g.Drains p := by
  induction h with
  | exit => exact .exit
  | source _ edge hp ih => exact .pass hp (mem_sources.mp edge).1 ih

theorem Drains.backs (h : g.Drains p) (hp : g.reachable.has p = true) :
    g.Backs g.reachable p := by
  induction h with
  | exit => exact .exit
  | pass hpass edge _ ih =>
      exact .source (ih (has_reachable_of_next hp edge)) (mem_sources.mpr ⟨edge, hp⟩) hpass

/-- The steps that are noted are the reachable ones that are followed by a draining
position. -/
theorem exists_source_iff (hs : g.step? p = some s) (hpass : g.passesOn p = false)
    {order : List Nat} (horder : ∀ q, q ∈ order ↔ g.Backs g.reachable q) :
    (∃ q ∈ order, p ∈ g.sources g.reachable q) ↔ g.reachable.has p = true ∧ g.Yields p s := by
  constructor
  · rintro ⟨q, hq, hp⟩
    obtain ⟨edge, hp⟩ := mem_sources.mp hp
    exact ⟨hp, hs, hpass, q, edge, ((horder q).mp hq).drains⟩
  · rintro ⟨hp, -, -, q, edge, hq⟩
    exact ⟨q, (horder q).mpr (hq.backs (has_reachable_of_next hp edge)),
      mem_sources.mpr ⟨edge, hp⟩⟩

/-! ## The graph of a body -/

section OfBody

variable (subroutine : Nat) (body : Expr)

theorem closed_ofBody : (ofBody subroutine body).Closed := by
  refine ⟨subroutine, ?_⟩
  rw [exit_ofBody]
  exact instruction_exit_ofBody subroutine body

theorem concludes_ofBody :
    Concludes (ofBody subroutine body) 1 (1 + body.span) (body.tails false)
      (body.finals false) := by
  refine body.concludes_lower (closed_ofBody subroutine body) ?_ (holds_body_ofBody _ _)
  rintro targets ⟨⟩

/-- A position of the graph is its entry, its exit or one of the body. -/
theorem position_ofBody (hp : p < (ofBody subroutine body).size) :
    p = 0 ∨ p = 1 + body.span ∨ 1 ≤ p ∧ p < 1 + body.span := by
  rw [size_ofBody] at hp
  omega

theorem isInner_ofBody {i : Instruction} (hlow : 1 ≤ p) (hhigh : p < 1 + body.span)
    (hi : (ofBody subroutine body).instructions[p]? = some i) : i.isInner = true := by
  have hk : p - 1 < (body.lower none 1).length := by
    rw [Expr.length_lower]
    omega
  have hp := holds_body_ofBody subroutine body (p - 1) hk
  rw [Nat.add_sub_cancel' hlow, hi, Option.some_inj] at hp
  rw [hp]
  exact List.all_eq_true.mp (body.all_isInner_lower none 1) _ (List.getElem_mem hk)

/-- Only the entry of the graph carries an entry. -/
theorem eq_zero_of_enter {sub : Nat}
    (hi : (ofBody subroutine body).instructions[p]? = some (.enter sub)) : p = 0 := by
  have hlt : p < (ofBody subroutine body).size := (Array.getElem?_eq_some_iff.mp hi).1
  rcases position_ofBody subroutine body hlt with rfl | rfl | ⟨hlow, hhigh⟩
  · rfl
  · rw [instruction_exit_ofBody] at hi
    cases hi
  · cases isInner_ofBody subroutine body hlow hhigh hi

/-- An exit has no successor, so it precedes nothing. -/
theorem exit_not_mem_previous {sub : Nat} (hq : q ∈ g.previous p) :
    g.instructions[q]? ≠ some (.exit sub) := by
  intro hi
  obtain ⟨-, edge⟩ := List.mem_filter.mp hq
  simp [next, hi] at edge

theorem bounds_of_step?_ofBody (hs : (ofBody subroutine body).step? p = some s) :
    1 ≤ p ∧ p < 1 + body.span := by
  rcases position_ofBody subroutine body (lt_size_of_step? hs) with rfl | rfl | hp
  · simp [step?, entry_ofBody, Instruction.step?] at hs
  · simp [step?, instruction_exit_ofBody, Instruction.step?] at hs
  · exact hp

/-- The steps that are followed by a draining position are the final ones. -/
theorem exists_yields_iff :
    (∃ p, (ofBody subroutine body).Yields p s) ↔
      s ∈ body.tails false ∨ s ∈ body.finals false := by
  have hbody := concludes_ofBody subroutine body
  have hstop : (ofBody subroutine body).Drains (1 + body.span) := by
    rw [← exit_ofBody subroutine body]
    exact .exit
  constructor
  · rintro ⟨p, h⟩
    obtain ⟨hlow, hhigh⟩ := bounds_of_step?_ofBody subroutine body h.1
    rcases hbody.sound hlow hhigh h with h | ⟨h, -⟩
    · exact Or.inr h
    · exact Or.inl h
  · rintro (h | h)
    · exact hbody.tails_complete h hstop
    · exact hbody.finals_complete h

/-- The entry precedes no draining position. -/
theorem entry_not_mem_sources {reachable : Marks} (hq : (ofBody subroutine body).Drains q) :
    0 ∉ (ofBody subroutine body).sources reachable q := by
  intro h
  have edge := (mem_sources.mp h).1
  rw [next_entry_ofBody, List.mem_singleton] at edge
  subst edge
  have hpos := body.span_pos
  exact (concludes_ofBody subroutine body).not_drains (by omega) hq

end OfBody

/-! ## Numbered bodies -/

section Numbered

variable (subroutine n : Nat) (e : Expr)

/-- A step with a value of its own passes nothing on and has one successor. -/
theorem next_of_valued (hs : g.step? p = some s)
    (hk : s.kind.isPlain = true ∨ s.kind = .returnUnit) :
    g.passesOn p = false ∧ ∃ q, g.next p = [q] := by
  obtain ⟨i, hi, his⟩ := Option.bind_eq_some_iff.mp hs
  refine ⟨?_, ?_⟩
  · simp [passesOn, hi, Concludes.not_passesOn_of_plain his hk]
  · rcases hk with hplain | hunit
    · exact ⟨p + 1, next_eq_of_plain hi his hplain⟩
    · exact ⟨g.exit, next_eq_of_return hi his (Or.inr hunit)⟩

/-- The walk finds a step with a value of its own exactly if it is a return point. -/
theorem exists_source_iff_isReturnPoint
    (hs : (ofBody subroutine (e.number n)).step? p = some s)
    (hk : s.kind.isPlain = true ∨ s.kind = .returnUnit)
    {order : List Nat}
    (horder : ∀ q, q ∈ order ↔ (ofBody subroutine (e.number n)).Backs
      (ofBody subroutine (e.number n)).reachable q) :
    (∃ q ∈ order, p ∈ (ofBody subroutine (e.number n)).sources
      (ofBody subroutine (e.number n)).reachable q) ↔ (e.number n).IsReturnPoint s := by
  rw [exists_source_iff hs (next_of_valued hs hk).1 horder, Expr.IsReturnPoint,
    ← exists_yields_iff subroutine, has_reachable_ofBody_iff subroutine n e hs, and_comm]
  refine and_congr_left fun _ => ⟨fun h => ⟨p, h⟩, ?_⟩
  rintro ⟨q, h⟩
  exact eq_of_element_eq subroutine n e hs h.1 rfl ▸ h

/-- The elements of the sources of some positions, as far as they carry out steps of
certain kinds. -/
def sourceElements (g : FlowGraph) (kinds : StepKind → Bool) (order : List Nat) : List Nat :=
  (order.flatMap (g.sources g.reachable)).filterMap fun p =>
    (g.instructions[p]?).bind (Instruction.elementOf kinds)

theorem bind_elementOf_eq_some_iff {kinds : StepKind → Bool} {x : Nat} :
    (g.instructions[p]?).bind (Instruction.elementOf kinds) = some x ↔
      ∃ kind, kinds kind = true ∧ g.step? p = some ⟨kind, x⟩ := by
  simp only [step?, Option.bind_eq_some_iff, Instruction.elementOf_eq_some_iff]
  constructor
  · rintro ⟨i, hi, kind, hkind, hs⟩
    exact ⟨kind, hkind, i, hi, hs⟩
  · rintro ⟨kind, hkind, i, hi, hs⟩
    exact ⟨i, hi, kind, hkind, hs⟩

variable {kinds : StepKind → Bool} {order : List Nat}

theorem mem_sourceElements
    (hkinds : ∀ kind, kinds kind = true → kind.isPlain = true ∨ kind = .returnUnit)
    (horder : ∀ q, q ∈ order ↔ (ofBody subroutine (e.number n)).Backs
      (ofBody subroutine (e.number n)).reachable q)
    {x : Nat} :
    x ∈ (ofBody subroutine (e.number n)).sourceElements kinds order ↔
      ∃ kind, kinds kind = true ∧ (e.number n).IsReturnPoint ⟨kind, x⟩ := by
  simp only [sourceElements, List.mem_filterMap, List.mem_flatMap, bind_elementOf_eq_some_iff]
  constructor
  · rintro ⟨p, hp, kind, hkind, hs⟩
    exact ⟨kind, hkind,
      (exists_source_iff_isReturnPoint subroutine n e hs (hkinds kind hkind) horder).mp hp⟩
  · rintro ⟨kind, hkind, h⟩
    obtain ⟨p, hs, -⟩ := (performs_iff_exists_reachable subroutine (e.number n)).mp h.2
    exact ⟨p, (exists_source_iff_isReturnPoint subroutine n e hs (hkinds kind hkind) horder).mpr h,
      kind, hkind, hs⟩

theorem nodup_sourceElements
    (hkinds : ∀ kind, kinds kind = true → kind.isPlain = true ∨ kind = .returnUnit)
    (hnodup : order.Nodup) :
    ((ofBody subroutine (e.number n)).sourceElements kinds order).Nodup := by
  rw [sourceElements, List.filterMap_flatMap, List.nodup_flatMap]
  refine ⟨fun q _ => ?_, hnodup.imp fun {q q'} hne => ?_⟩
  · refine (nodup_sources _ _ q).filterMap fun p p' x hp hp' => ?_
    obtain ⟨kind, -, hs⟩ := bind_elementOf_eq_some_iff.mp hp
    obtain ⟨kind', -, hs'⟩ := bind_elementOf_eq_some_iff.mp hp'
    exact eq_of_element_eq subroutine n e hs hs' rfl
  · intro x hx hx'
    obtain ⟨p, hp, hpx⟩ := List.mem_filterMap.mp hx
    obtain ⟨p', hp', hpx'⟩ := List.mem_filterMap.mp hx'
    obtain ⟨kind, hkind, hs⟩ := bind_elementOf_eq_some_iff.mp hpx
    obtain ⟨kind', -, hs'⟩ := bind_elementOf_eq_some_iff.mp hpx'
    obtain rfl := eq_of_element_eq subroutine n e hs hs' rfl
    obtain ⟨-, r, hr⟩ := next_of_valued hs (hkinds kind hkind)
    have hq := (mem_sources.mp hp).1
    have hq' := (mem_sources.mp hp').1
    rw [hr, List.mem_singleton] at hq hq'
    exact hne (hq.trans hq'.symm)

end Numbered

/-- Where the value of a body comes from. -/
theorem exists_returned_eq_sourceElements (subroutine : Nat) (body : Expr) :
    ∃ order : List Nat, order.Nodup ∧
      (∀ q, q ∈ order ↔ (ofBody subroutine body).Backs (ofBody subroutine body).reachable q) ∧
      (ofBody subroutine body).returned =
        { expressions := (ofBody subroutine body).sourceElements StepKind.hasValue order
          unitReturning := (ofBody subroutine body).sourceElements StepKind.isDone order
          unsupported :=
            (ofBody subroutine body).sourceElements StepKind.isUnsupported order } := by
  have hpos : 0 < (ofBody subroutine body).size := by simp [size_ofBody]
  obtain ⟨order, hnodup, horder, heq⟩ := exists_returned_eq_noted hpos
  refine ⟨order, hnodup, horder, ?_⟩
  rw [heq, noted, ReturnedInformation.foldl_add]
  · simp [sourceElements, List.filterMap_filterMap]
  · intro sub hsub
    obtain ⟨p, hp, hi⟩ := List.mem_filterMap.mp hsub
    obtain ⟨q, hq, hp⟩ := List.mem_flatMap.mp hp
    obtain rfl := eq_zero_of_enter subroutine body hi
    exact entry_not_mem_sources subroutine body ((horder q).mp hq).drains hp

end FlowGraph

/-- No other last step of a body is one of the same element as a return point. -/
theorem Expr.IsReturnPoint.eq_of_element_eq
    {n : Nat} {e : Expr} {s t : Step} (ht : (e.number n).IsReturnPoint t)
    (hs : s ∈ (e.number n).tails false ∨ s ∈ (e.number n).finals false)
    (helement : s.element = t.element) : s = t := by
  obtain ⟨p, hp, -⟩ := (FlowGraph.exists_yields_iff 0 (e.number n)).mpr hs
  obtain ⟨q, hq, -⟩ := (FlowGraph.exists_yields_iff 0 (e.number n)).mpr ht.1
  obtain rfl := FlowGraph.eq_of_element_eq 0 n e hp hq helement
  exact Option.some.inj (hp.symm.trans hq)

/-- Where the value of a subroutine comes from is asked of its graph. -/
theorem FlowInformation.returned_add (flow : FlowData) (subroutine : Nat) (body : Expr) :
    (FlowInformation.data (flow.add subroutine body)).returned subroutine =
      .ok (FlowGraph.ofBody subroutine body).returned := by
  simp only [FlowInformation.returned, FlowInformation.graph, FlowData.graph?_add]
  rfl

/-- The return points of a body are listed, each once: the steps with a value, those
without one, and the opaque ones. -/
structure ReturnedInformation.Lists (info : ReturnedInformation) (body : Expr) : Prop where
  nodup_expressions : info.expressions.Nodup
  mem_expressions : ∀ x, x ∈ info.expressions ↔
    body.IsReturnPoint ⟨.read, x⟩ ∨ body.IsReturnPoint ⟨.readUnit, x⟩
  nodup_unitReturning : info.unitReturning.Nodup
  mem_unitReturning : ∀ x, x ∈ info.unitReturning ↔
    body.IsReturnPoint ⟨.write, x⟩ ∨ body.IsReturnPoint ⟨.returnUnit, x⟩
  nodup_unsupported : info.unsupported.Nodup
  mem_unsupported : ∀ x, x ∈ info.unsupported ↔ body.IsReturnPoint ⟨.unsupported, x⟩

/-- No return point both has a value and has none. -/
theorem ReturnedInformation.Lists.not_mem_unitReturning
    {info : ReturnedInformation} {n : Nat} {e : Expr} (h : info.Lists (e.number n)) {x : Nat}
    (hx : x ∈ info.expressions) : x ∉ info.unitReturning := by
  intro hunit
  rcases (h.mem_expressions x).mp hx with hvalue | hvalue
  · rcases (h.mem_unitReturning x).mp hunit with hpoint | hpoint
    · cases hvalue.eq_of_element_eq hpoint.1 rfl
    · cases hvalue.eq_of_element_eq hpoint.1 rfl
  · rcases (h.mem_unitReturning x).mp hunit with hpoint | hpoint
    · cases hvalue.eq_of_element_eq hpoint.1 rfl
    · cases hvalue.eq_of_element_eq hpoint.1 rfl

/-- What is listed with or without a value is a return point that is not opaque. -/
theorem ReturnedInformation.Lists.exists_isReturnPoint
    {info : ReturnedInformation} {body : Expr} (h : info.Lists body) {x : Nat}
    (hx : x ∈ info.expressions ∨ x ∈ info.unitReturning) :
    ∃ t : Step, body.IsReturnPoint t ∧ t.element = x ∧ t.kind ≠ .unsupported := by
  rcases hx with hx | hx
  · rcases (h.mem_expressions x).mp hx with hpoint | hpoint
    · exact ⟨_, hpoint, rfl, nofun⟩
    · exact ⟨_, hpoint, rfl, nofun⟩
  · rcases (h.mem_unitReturning x).mp hx with hpoint | hpoint
    · exact ⟨_, hpoint, rfl, nofun⟩
    · exact ⟨_, hpoint, rfl, nofun⟩

namespace FlowGraph

/-- Where the value of a numbered body comes from. -/
theorem lists_returned_ofBody (subroutine n : Nat) (e : Expr) :
    (ofBody subroutine (e.number n)).returned.Lists (e.number n) := by
  obtain ⟨order, hnodup, horder, heq⟩ :=
    exists_returned_eq_sourceElements subroutine (e.number n)
  have hvalue : ∀ kind, StepKind.hasValue kind = true →
      kind.isPlain = true ∨ kind = .returnUnit := by
    rintro (_ | _ | _ | _ | _ | _ | _) hkind <;> simp_all [StepKind.hasValue, StepKind.isPlain]
  have hdone : ∀ kind, StepKind.isDone kind = true →
      kind.isPlain = true ∨ kind = .returnUnit := by
    rintro (_ | _ | _ | _ | _ | _ | _) hkind <;> simp_all [StepKind.isDone, StepKind.isPlain]
  have hunsupported : ∀ kind, StepKind.isUnsupported kind = true →
      kind.isPlain = true ∨ kind = .returnUnit := by
    rintro (_ | _ | _ | _ | _ | _ | _) hkind <;>
      simp_all [StepKind.isUnsupported, StepKind.isPlain]
  rw [heq]
  refine ⟨nodup_sourceElements subroutine n e hvalue hnodup, fun x => ?_,
    nodup_sourceElements subroutine n e hdone hnodup, fun x => ?_,
    nodup_sourceElements subroutine n e hunsupported hnodup, fun x => ?_⟩
  · rw [mem_sourceElements subroutine n e hvalue horder]
    constructor
    · rintro ⟨kind, hkind, h⟩
      cases kind with
      | read => exact Or.inl h
      | readUnit => exact Or.inr h
      | write | returnValue | returnUnit | leave | unsupported => cases hkind
    · rintro (h | h)
      · exact ⟨.read, rfl, h⟩
      · exact ⟨.readUnit, rfl, h⟩
  · rw [mem_sourceElements subroutine n e hdone horder]
    constructor
    · rintro ⟨kind, hkind, h⟩
      cases kind with
      | write => exact Or.inl h
      | returnUnit => exact Or.inr h
      | read | readUnit | returnValue | leave | unsupported => cases hkind
    · rintro (h | h)
      · exact ⟨.write, rfl, h⟩
      · exact ⟨.returnUnit, rfl, h⟩
  · rw [mem_sourceElements subroutine n e hunsupported horder]
    constructor
    · rintro ⟨kind, hkind, h⟩
      cases kind with
      | unsupported => exact h
      | read | readUnit | write | returnValue | returnUnit | leave => cases hkind
    · intro h
      exact ⟨.unsupported, rfl, h⟩

end FlowGraph

namespace Analysis

/-- Asking for the return points of a body reports its opaque ones, in their
order. -/
theorem run_returnPoints {flow : FlowInformation} {node : Nat} {info : ReturnedInformation}
    (h : flow.returned node = .ok info) (s : Session) :
    (returnPoints flow node).run.run s =
      (.ok info,
        { s with
          diagnostics :=
            s.diagnostics ++ (info.unsupported.map Diagnostic.unsupportedElement).toArray }) := by
  have hreport : ∀ (elements : List Nat) (s : Session),
      (elements.forM fun element =>
          (report (.unsupportedElement element) : FaultyAnalysis Unit)).run.run s =
        (.ok (), { s with
          diagnostics :=
            s.diagnostics ++ (elements.map Diagnostic.unsupportedElement).toArray }) := by
    intro elements
    induction elements with
    | nil =>
        intro s
        simp only [List.map_nil, Array.append_empty]
        rfl
    | cons element rest ih =>
        intro s
        have hfirst := ih { s with
          diagnostics := s.diagnostics.push (.unsupportedElement element) }
        have hpush : s.diagnostics ++
            ((element :: rest).map Diagnostic.unsupportedElement).toArray =
              s.diagnostics.push (.unsupportedElement element) ++
                (rest.map Diagnostic.unsupportedElement).toArray := by
          simp
        rw [hpush]
        exact hfirst
  simp only [returnPoints, h]
  rw [ExceptT.run_bind, StateT.run_bind, hreport]
  rfl

end Analysis

namespace Expr

open FlowGraph

/-- Where the value of a body comes from is found without fault, and each return
point is listed once: the steps with a value, those without one, and the opaque
ones, which are reported. No exit is ever met on the way. -/
theorem returned_eq_returnPoints (data : FlowData) (subroutine n : Nat) (e : Expr) :
    ∃ info : ReturnedInformation,
      (FlowInformation.data (data.add subroutine (e.number n))).returned subroutine = .ok info ∧
      (info.expressions.Nodup ∧ ∀ x, x ∈ info.expressions ↔
        (e.number n).IsReturnPoint ⟨.read, x⟩ ∨ (e.number n).IsReturnPoint ⟨.readUnit, x⟩) ∧
      (info.unitReturning.Nodup ∧ ∀ x, x ∈ info.unitReturning ↔
        (e.number n).IsReturnPoint ⟨.write, x⟩ ∨ (e.number n).IsReturnPoint ⟨.returnUnit, x⟩) ∧
      (info.unsupported.Nodup ∧ ∀ x, x ∈ info.unsupported ↔
        (e.number n).IsReturnPoint ⟨.unsupported, x⟩) ∧
      (∀ s : Session,
        (Analysis.returnPoints (.data (data.add subroutine (e.number n))) subroutine).run.run s =
          (.ok info,
            { s with
              diagnostics := s.diagnostics ++
                (info.unsupported.map Diagnostic.unsupportedElement).toArray })) ∧
      ∀ p q sub, q ∈ (ofBody subroutine (e.number n)).previous p →
        (ofBody subroutine (e.number n)).instructions[q]? ≠ some (.exit sub) := by
  have hlists := lists_returned_ofBody subroutine n e
  have hreturned := FlowInformation.returned_add data subroutine (e.number n)
  exact ⟨_, hreturned, ⟨hlists.nodup_expressions, hlists.mem_expressions⟩,
    ⟨hlists.nodup_unitReturning, hlists.mem_unitReturning⟩,
    ⟨hlists.nodup_unsupported, hlists.mem_unsupported⟩, Analysis.run_returnPoints hreturned,
    fun p q sub hq => exit_not_mem_previous hq⟩

end Expr

end DeclAnalysis

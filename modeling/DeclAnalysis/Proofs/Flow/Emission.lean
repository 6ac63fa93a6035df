import DeclAnalysis.Proofs.Flow.Builder
import DeclAnalysis.Proofs.Flow.Regions

/-!
# Every expression that is emitted is a region

Emitting an expression emits other expressions on the way, each of them from some state of the code
on and with the labels of some loops. The instructions of any of them are a region of the finished
code: a run of positions that is entered at its start only, and left towards the position behind it,
the exit, or a target of the innermost loop whose body the expression is in.

Jumps go to labels while expressions are emitted. What is emitted after a part leaves the labels
alone that the part has created, so that they stand for the same positions in the end.
-/

namespace DeclAnalysis

/-- An expression that is being emitted: the labels of the loops whose bodies it is in, and the code
before it. -/
structure Emission where
  loops : List LoopTargets
  code : Code
  expr : Expr

namespace Emission

/-- The code after the expression. -/
def after (a : Emission) : Code := a.expr.emit a.loops a.code

/-- The position is one of the instructions of the expression. -/
def Covers (a : Emission) (position : Nat) : Prop :=
  a.code.size ≤ position ∧ position < a.after.size

/-- Expressions that are emitted one after the other. -/
def inTurn (loops : List LoopTargets) (c : Code) : List Expr → List Emission
  | [] => []
  | e :: rest => ⟨loops, c, e⟩ :: inTurn loops (e.emit loops c) rest

/-- The expressions that are emitted to emit an expression. -/
def parts : Emission → List Emission
  | ⟨_, _, .constant ..⟩ | ⟨_, _, .name ..⟩ | ⟨_, _, .breakLoop _⟩ | ⟨_, _, .continueLoop _⟩
  | ⟨_, _, .ret _ none⟩ | ⟨_, _, .localVariable _ _ _ _ none⟩ | ⟨_, _, .lambda ..⟩ => []
  | ⟨loops, c, .dot _ operand _⟩ | ⟨loops, c, .ret _ (some operand)⟩
  | ⟨loops, c, .localVariable _ _ _ _ (some operand)⟩ => [⟨loops, c, operand⟩]
  | ⟨loops, c, .block _ operands⟩ | ⟨loops, c, .call _ _ operands⟩ => inTurn loops c operands
  | ⟨loops, c, .cond _ condition thenBranch elseBranch⟩ =>
    let checked := condition.emit loops c
    let before := checked.createLabel.push (.jump .ifFalse checked.nextLabel none)
    let done := thenBranch.emit loops before
    let other := done.createLabel.push (.jump .unconditional done.nextLabel none)
    ⟨loops, c, condition⟩ :: ⟨loops, before, thenBranch⟩ ::
      elseBranch.toList.map (⟨loops, other.bindLabel checked.nextLabel, ·⟩)
  | ⟨loops, c, .whileLoop _ condition body⟩ =>
    let head := c.nextLabel
    let exit := c.createLabel.nextLabel
    let before := c.createLabel.createLabel.bindLabel head
    let inside := (condition.emit loops before).push (.jump .ifFalse exit none)
    [⟨loops, before, condition⟩, ⟨⟨head, exit⟩ :: loops, inside, body⟩]
  | ⟨loops, c, .doWhileLoop _ body condition⟩ =>
    let start := c.nextLabel
    let check := c.createLabel.nextLabel
    let exit := c.createLabel.createLabel.nextLabel
    let before := c.createLabel.createLabel.createLabel.bindLabel start
    let done := body.emit (⟨check, exit⟩ :: loops) before
    [⟨⟨check, exit⟩ :: loops, before, body⟩, ⟨loops, done.bindLabel check, condition⟩]
  | ⟨loops, c, .binary _ operator left right⟩ =>
    let done := left.emit loops c
    let before :=
      if operator.isShortCircuit then
        done.createLabel.push (.jump (Expr.skipKind operator) done.nextLabel none)
      else done
    [⟨loops, c, left⟩, ⟨loops, before, right⟩]
  | ⟨loops, c, .assign _ target value⟩ =>
    target.receiver?.toList.map (⟨loops, c, ·⟩) ++
      [⟨loops, Expr.emitReceiver loops c target, value⟩]

/-- An emission takes place in the course of another one. -/
def Within (b a : Emission) : Prop := Relation.ReflTransGen (fun a b => b ∈ a.parts) a b

theorem map_expr_inTurn (loops : List LoopTargets) (c : Code) (es : List Expr) :
    (inTurn loops c es).map expr = es := by
  induction es generalizing c with
  | nil => rfl
  | cons e rest ih => rw [inTurn, List.map_cons, ih]

/-- What is emitted on the way are the operands, in their order. -/
theorem map_expr_parts (a : Emission) (inBody : Bool) :
    a.parts.map expr = (a.expr.operands inBody).map Prod.snd := by
  obtain ⟨loops, c, e⟩ := a
  match e with
  | .block _ operands | .call _ _ operands =>
      simp [parts, Expr.operands, map_expr_inTurn, Function.comp_def]
  | .constant .. | .name .. | .dot .. | .cond .. | .whileLoop .. | .doWhileLoop .. | .breakLoop _
  | .continueLoop _ | .ret _ none | .ret _ (some _) | .binary .. | .assign ..
  | .localVariable _ _ _ _ none | .localVariable _ _ _ _ (some _) | .lambda .. =>
      simp [parts, Expr.operands, Function.comp_def]

/-- Exactly what is evaluated is emitted on the way. -/
theorem exists_within_iff_exists_evaluates {a : Emission} {x : Expr} (inBody : Bool) :
    (∃ b : Emission, b.Within a ∧ b.expr = x) ↔ ∃ inner, a.expr.Evaluates inBody x inner := by
  constructor
  · rintro ⟨b, hb, rfl⟩
    induction hb with
    | refl => exact ⟨inBody, .self a.expr inBody⟩
    | @tail b d hb hd ih =>
        obtain ⟨inner, hinner⟩ := ih
        have hexpr : d.expr ∈ (b.expr.operands inner).map Prod.snd := by
          rw [← map_expr_parts]
          exact List.mem_map_of_mem hd
        obtain ⟨o, ho, heq⟩ := List.mem_map.mp hexpr
        rw [← heq]
        exact ⟨o.1, hinner.trans (.operand ho (.self o.2 o.1))⟩
  · rintro ⟨inner, hx⟩
    generalize he : a.expr = e at hx
    induction hx generalizing a with
    | self e => exact ⟨a, .refl, he⟩
    | @operand e x inBody inner o ho hx ih =>
        have hpart : o.2 ∈ a.parts.map expr := by
          rw [map_expr_parts a inBody, he]
          exact List.mem_map_of_mem ho
        obtain ⟨b, hb, hexpr⟩ := List.mem_map.mp hpart
        obtain ⟨d, hd, heq⟩ := ih hexpr
        exact ⟨d, .head hb hd, heq⟩

end Emission

/-! ## Going on -/

namespace Code

/-- From one state of the code to another instructions are appended, and the labels between a number
and those still to be created stay what they are. -/
structure Continues (first : Nat) (c c' : Code) : Prop where
  instructions : c.instructions.toList <+: c'.instructions.toList
  nextLabel_le : c.nextLabel ≤ c'.nextLabel
  labels : ∀ l, first ≤ l → l < c.nextLabel → c'.label? l = c.label? l

namespace Continues

variable {first label : Nat} {c c' : Code}

theorem refl (first : Nat) (c : Code) : Continues first c c where
  instructions := List.prefix_rfl
  nextLabel_le := le_rfl
  labels _ _ _ := rfl

theorem push (h : Continues first c c') (i : Instruction) : Continues first c (c'.push i) where
  instructions := by
    rw [Code.push, Array.toList_push]
    exact h.instructions.trans (List.prefix_append _ _)
  nextLabel_le := h.nextLabel_le
  labels := h.labels

theorem createLabel (h : Continues first c c') : Continues first c c'.createLabel where
  instructions := h.instructions
  nextLabel_le := by
    rw [nextLabel_createLabel]
    exact h.nextLabel_le.trans (Nat.le_succ _)
  labels l hfirst hlt := by
    rw [label?_createLabel]
    exact h.labels l hfirst hlt

theorem bindLabel (h : Continues first c c') (hlabel : label < first ∨ c.nextLabel ≤ label) :
    Continues first c (c'.bindLabel label) where
  instructions := h.instructions
  nextLabel_le := by
    rw [nextLabel_bindLabel]
    exact h.nextLabel_le
  labels l hfirst hlt := by
    rw [label?_bindLabel_of_ne (by omega)]
    exact h.labels l hfirst hlt

/-- Nothing that is emitted binds a label that is there before. -/
theorem trans_emits {c'' : Code} {pending : List Nat} {known : List (Nat × Nat)}
    {lowered : (Nat → Nat) → List Instruction} (h : Continues first c c')
    (hemits : Emits c' c'' pending known lowered) : Continues first c c'' where
  instructions := by
    obtain ⟨code, hcode, -⟩ := hemits.emitted
    rw [hcode]
    exact h.instructions.trans (List.prefix_append _ _)
  nextLabel_le := h.nextLabel_le.trans hemits.nextLabel_le
  labels l hfirst hlt := by
    rw [hemits.kept l (hlt.trans_le h.nextLabel_le)]
    exact h.labels l hfirst hlt

theorem emit (h : Continues first c c') (loops : List LoopTargets) (e : Expr) :
    Continues first c (e.emit loops c') :=
  h.trans_emits (e.emits_emit loops c')

theorem emitAll (h : Continues first c c') (loops : List LoopTargets) (es : List Expr) :
    Continues first c (Expr.emitAll loops c' es) :=
  h.trans_emits (Expr.emits_emitAll loops c' es)

/-- Positions that agree with the labels afterwards do so before. -/
theorem agrees {first' : Nat} {position : Nat → Nat} (h : Continues first c c')
    (hle : first' ≤ first) (hagrees : c'.Agrees first' position) : c.Agrees first position := by
  intro l p hfirst hlabel
  have hlt : l < c.nextLabel := by
    by_contra hge
    rw [label?_eq_none_of_le (Nat.le_of_not_lt hge)] at hlabel
    cases hlabel
  exact hagrees l p (hle.trans hfirst) ((h.labels l hfirst hlt).trans hlabel)

end Continues

end Code

namespace Emission

open Code (Continues)

variable {a b : Emission}

theorem nextLabel_le_emit (loops : List LoopTargets) (c : Code) (e : Expr) :
    c.nextLabel ≤ (e.emit loops c).nextLabel :=
  (e.emits_emit loops c).nextLabel_le

theorem continues_inTurn {loops : List LoopTargets} {c : Code} {es : List Expr}
    (hb : b ∈ inTurn loops c es) :
    c.nextLabel ≤ b.code.nextLabel ∧
      Continues b.code.nextLabel b.after (Expr.emitAll loops c es) := by
  induction es generalizing c with
  | nil => cases hb
  | cons e rest ih =>
      rcases List.mem_cons.mp hb with rfl | hb
      · exact ⟨le_rfl, (Continues.refl _ _).emitAll loops rest⟩
      · obtain ⟨hle, hcontinues⟩ := ih hb
        exact ⟨(nextLabel_le_emit loops c e).trans hle, hcontinues⟩

/-- Between the end of a part and the end of the whole, the labels that the part has created are
left alone. -/
def LeftAlone (b a : Emission) : Prop :=
  a.code.nextLabel ≤ b.code.nextLabel ∧ Continues b.code.nextLabel b.after a.after

variable {loops : List LoopTargets} {c : Code}

theorem leftAlone_cond {id : Nat} {condition thenBranch : Expr} {elseBranch : Option Expr}
    (hb : b ∈ parts ⟨loops, c, .cond id condition thenBranch elseBranch⟩) :
    b.LeftAlone ⟨loops, c, .cond id condition thenBranch elseBranch⟩ := by
  let checked := condition.emit loops c
  let before := checked.createLabel.push (.jump .ifFalse checked.nextLabel none)
  let done := thenBranch.emit loops before
  have hchecked : c.nextLabel ≤ checked.nextLabel := nextLabel_le_emit ..
  have hbefore : before.nextLabel = checked.nextLabel + 1 := by simp [before]
  have hdone : before.nextLabel ≤ done.nextLabel := nextLabel_le_emit ..
  have hle : c.nextLabel ≤ before.nextLabel := by omega
  have hfirst : checked.nextLabel ≤ done.nextLabel := by omega
  have hsecond : checked.nextLabel < before.nextLabel := by omega
  have hcondition := ((((Continues.refl c.nextLabel checked).createLabel.push
    (.jump .ifFalse checked.nextLabel none)).emit loops thenBranch).createLabel.push
      (.jump .unconditional done.nextLabel none)).bindLabel (.inr le_rfl)
  have hthen := ((Continues.refl before.nextLabel done).createLabel.push
    (.jump .unconditional done.nextLabel none)).bindLabel (.inl hsecond)
  cases elseBranch with
  | none =>
      rcases List.mem_pair.mp hb with rfl | rfl
      · exact ⟨le_rfl, (hcondition.push _).bindLabel (.inr hfirst)⟩
      · exact ⟨hle, (hthen.push _).bindLabel (.inr le_rfl)⟩
  | some elseBranch =>
      rcases List.mem_cons.mp hb with rfl | hb
      · exact ⟨le_rfl, (hcondition.emit loops elseBranch).bindLabel (.inr hfirst)⟩
      · rcases List.mem_pair.mp hb with rfl | rfl
        · exact ⟨hle, (hthen.emit loops elseBranch).bindLabel (.inr le_rfl)⟩
        · let other := (done.createLabel.push
            (.jump .unconditional done.nextLabel none)).bindLabel checked.nextLabel
          have hother : other.nextLabel = done.nextLabel + 1 := by simp [other]
          have hend : done.nextLabel < other.nextLabel := by omega
          have hle' : c.nextLabel ≤ other.nextLabel := by omega
          exact ⟨hle', (Continues.refl _ _).bindLabel (.inl hend)⟩

theorem leftAlone_whileLoop {id : Nat} {condition body : Expr}
    (hb : b ∈ parts ⟨loops, c, .whileLoop id condition body⟩) :
    b.LeftAlone ⟨loops, c, .whileLoop id condition body⟩ := by
  let exit := c.createLabel.nextLabel
  let before := c.createLabel.createLabel.bindLabel c.nextLabel
  let inside := (condition.emit loops before).push (.jump .ifFalse exit none)
  have hbefore : before.nextLabel = c.nextLabel + 2 := by simp [before]
  have hexit : exit = c.nextLabel + 1 := by simp [exit]
  have hinside : before.nextLabel ≤ inside.nextLabel := nextLabel_le_emit ..
  rcases List.mem_pair.mp hb with rfl | rfl
  · have hle : c.nextLabel ≤ before.nextLabel := by omega
    have hbound : exit < before.nextLabel := by omega
    have hbody := ((Continues.refl before.nextLabel (condition.emit loops before)).push
      (.jump .ifFalse exit none)).emit (⟨c.nextLabel, exit⟩ :: loops) body
    exact ⟨hle, ((hbody.push _).bindLabel (.inl hbound)).push _⟩
  · have hle : c.nextLabel ≤ inside.nextLabel := by omega
    have hbound : exit < inside.nextLabel := by omega
    exact ⟨hle, (((Continues.refl _ _).push _).bindLabel (.inl hbound)).push _⟩

theorem leftAlone_doWhileLoop {id : Nat} {condition body : Expr}
    (hb : b ∈ parts ⟨loops, c, .doWhileLoop id body condition⟩) :
    b.LeftAlone ⟨loops, c, .doWhileLoop id body condition⟩ := by
  let check := c.createLabel.nextLabel
  let exit := c.createLabel.createLabel.nextLabel
  let before := c.createLabel.createLabel.createLabel.bindLabel c.nextLabel
  let done := (body.emit (⟨check, exit⟩ :: loops) before).bindLabel check
  have hbefore : before.nextLabel = c.nextLabel + 3 := by simp [before]
  have hcheck : check = c.nextLabel + 1 := by simp [check]
  have hexit : exit = c.nextLabel + 2 := by simp [exit]
  have hdone : before.nextLabel ≤ done.nextLabel :=
    (nextLabel_le_emit _ before body).trans_eq (Code.nextLabel_bindLabel _ check).symm
  rcases List.mem_pair.mp hb with rfl | rfl
  · have hle : c.nextLabel ≤ before.nextLabel := by omega
    have hbound : check < before.nextLabel := by omega
    have hbound' : exit < before.nextLabel := by omega
    have hcondition := ((Continues.refl before.nextLabel
      (body.emit (⟨check, exit⟩ :: loops) before)).bindLabel (.inl hbound)).emit loops condition
    exact ⟨hle, ((hcondition.push _).bindLabel (.inl hbound')).push _⟩
  · have hle : c.nextLabel ≤ done.nextLabel := by omega
    have hbound : exit < done.nextLabel := by omega
    exact ⟨hle, (((Continues.refl _ _).push _).bindLabel (.inl hbound)).push _⟩

theorem leftAlone_binary {id : Nat} {operator : BinaryOperator} {left right : Expr}
    (hb : b ∈ parts ⟨loops, c, .binary id operator left right⟩) :
    b.LeftAlone ⟨loops, c, .binary id operator left right⟩ := by
  let done := left.emit loops c
  have hdone : c.nextLabel ≤ done.nextLabel := nextLabel_le_emit ..
  unfold LeftAlone after
  cases hoperator : operator.isShortCircuit with
  | true =>
      simp only [Expr.emit, parts, hoperator, if_true] at hb ⊢
      have hleft := ((Continues.refl c.nextLabel done).createLabel.push
        (.jump (Expr.skipKind operator) done.nextLabel none)).emit loops right
      rcases List.mem_pair.mp hb with rfl | rfl
      · exact ⟨le_rfl, (hleft.bindLabel (.inr le_rfl)).push _⟩
      · let before := done.createLabel.push
          (.jump (Expr.skipKind operator) done.nextLabel none)
        have hbefore : before.nextLabel = done.nextLabel + 1 := by simp [before]
        have hle : c.nextLabel ≤ before.nextLabel := by omega
        have hbound : done.nextLabel < before.nextLabel := by omega
        exact ⟨hle, ((Continues.refl _ _).bindLabel (.inl hbound)).push _⟩
  | false =>
      simp only [Expr.emit, parts, hoperator, Bool.false_eq_true, if_false] at hb ⊢
      rcases List.mem_pair.mp hb with rfl | rfl
      · exact ⟨le_rfl, ((Continues.refl _ _).emit loops right).push _⟩
      · exact ⟨hdone, (Continues.refl _ _).push _⟩

theorem leftAlone_assign {id : Nat} {target value : Expr}
    (hb : b ∈ parts ⟨loops, c, .assign id target value⟩) :
    b.LeftAlone ⟨loops, c, .assign id target value⟩ := by
  rcases List.mem_append.mp hb with hb | hb
  · obtain ⟨receiver, hreceiver, rfl⟩ := List.mem_map.mp hb
    cases target with
    | dot _ operand _ =>
        obtain rfl := List.mem_singleton.mp hreceiver
        exact ⟨le_rfl, ((Continues.refl _ _).emit loops value).push _⟩
    | _ => cases hreceiver
  · obtain rfl := List.mem_singleton.mp hb
    exact ⟨(Expr.emits_emitReceiver loops c target).nextLabel_le, (Continues.refl _ _).push _⟩

theorem leftAlone_of_mem_parts (hb : b ∈ a.parts) : b.LeftAlone a := by
  obtain ⟨loops, c, e⟩ := a
  match e with
  | .constant .. | .name .. | .breakLoop _ | .continueLoop _ | .ret _ none
  | .localVariable _ _ _ _ none | .lambda .. | .block _ [] => cases hb
  | .dot _ operand _ | .ret _ (some operand) | .localVariable _ _ _ _ (some operand) =>
      obtain rfl := List.mem_singleton.mp hb
      exact ⟨le_rfl, (Continues.refl _ _).push _⟩
  | .block _ (first :: rest) => exact continues_inTurn hb
  | .call _ _ operands =>
      obtain ⟨hle, hcontinues⟩ := continues_inTurn hb
      exact ⟨hle, hcontinues.push _⟩
  | .cond .. => exact leftAlone_cond hb
  | .whileLoop .. => exact leftAlone_whileLoop hb
  | .doWhileLoop .. => exact leftAlone_doWhileLoop hb
  | .binary .. => exact leftAlone_binary hb
  | .assign .. => exact leftAlone_assign hb

end Emission

/-! ## Where the parts stand -/

namespace Emission

open Code (Continues)
open DeclAnalysis.Expr (LoopWithin Lies loopAt)

variable {a b : Emission} {loops : List LoopTargets} {c : Code} {position : Nat → Nat}

@[simp] theorem size_after (a : Emission) : a.after.size = a.code.size + a.expr.span :=
  Expr.size_emit ..

/-- The targets of the innermost loop around the expression, as positions. -/
def loop (a : Emission) (position : Nat → Nat) : Option LoopTargets := loopAt a.loops position

/-- The instructions of the expression, with positions in the place of labels. -/
def lowered (a : Emission) (position : Nat → Nat) : List Instruction :=
  a.expr.lower (a.loop position) a.code.size

theorem lies_inTurn {es : List Expr} (hb : b ∈ inTurn loops c es)
    (hloop : LoopWithin (Clear c.size (c.size + Expr.spanOf es)) (loopAt loops position)) :
    Lies c.size (Expr.lowerAll (loopAt loops position) c.size es) (b.loop position) b.code.size
      b.expr := by
  induction es generalizing c with
  | nil => cases hb
  | cons e rest ih =>
      rw [Expr.spanOf] at hloop
      rcases List.mem_cons.mp hb with rfl | hb
      · have hwithin : LoopWithin (Clear c.size (c.size + e.span)) (loopAt loops position) :=
          hloop.clear le_rfl (by omega)
        exact (Lies.self hwithin).append_right (Expr.heads_lowerAll hwithin (.inr le_rfl))
      · have hrest : LoopWithin (Clear (e.emit loops c).size
            ((e.emit loops c).size + Expr.spanOf rest)) (loopAt loops position) := by
          rw [Expr.size_emit]
          exact hloop.clear (by omega) (by omega)
        have hlies := ih hb hrest
        rw [Expr.size_emit] at hlies
        have hbounds := hlies.bounds
        rw [Expr.length_lowerAll] at hbounds
        refine hlies.append_left (by simp) (Expr.heads_lower ?_ (.inl hbounds.1))
        exact hloop.clear (by omega) (by omega)

/-- The labels of a loop stand for its start and for the position behind its last jump. -/
theorem position_whileLoop {id : Nat} {condition body : Expr}
    (hagrees : ((Expr.whileLoop id condition body).emit loops c).Agrees c.nextLabel position) :
    position c.nextLabel = c.size ∧
      position c.createLabel.nextLabel = c.size + condition.span + 1 + body.span + 1 := by
  let exit := c.createLabel.nextLabel
  let before := c.createLabel.createLabel.bindLabel c.nextLabel
  let inside := (condition.emit loops before).push (.jump .ifFalse exit none)
  let done := body.emit (⟨c.nextLabel, exit⟩ :: loops) inside
  have hcontinues : Continues c.nextLabel before done :=
    (((Continues.refl _ _).emit loops condition).push _).emit _ body
  have hexit : exit = c.nextLabel + 1 := by simp [exit]
  have hbefore : before.nextLabel = c.nextLabel + 2 := by simp [before]
  have hdone := hcontinues.nextLabel_le
  have hsize : done.size = c.size + condition.span + 1 + body.span := by
    simp [done, inside, before]
  constructor
  · refine hagrees c.nextLabel c.size le_rfl ?_
    have hkept : done.label? c.nextLabel = some c.size := by
      rw [hcontinues.labels _ le_rfl (by omega)]
      refine Code.label?_bindLabel_self ?_
      rw [Code.nextLabel_createLabel, Code.nextLabel_createLabel]
      omega
    have hne : c.nextLabel ≠ exit := by omega
    exact (Code.label?_bindLabel_of_ne hne).trans hkept
  · refine hagrees exit _ (by omega) ?_
    have hlt : exit < (done.push (.jump .unconditional c.nextLabel none)).nextLabel := by
      rw [Code.nextLabel_push]
      omega
    refine (Code.label?_bindLabel_self hlt).trans ?_
    rw [Code.size_push, hsize]

/-- The labels of a loop stand for its start, for that of its condition, and for the position behind
its last jump. -/
theorem position_doWhileLoop {id : Nat} {condition body : Expr}
    (hagrees : ((Expr.doWhileLoop id body condition).emit loops c).Agrees c.nextLabel position) :
    position c.createLabel.nextLabel = c.size + body.span ∧
      position c.createLabel.createLabel.nextLabel =
        c.size + body.span + condition.span + 1 := by
  let check := c.createLabel.nextLabel
  let exit := c.createLabel.createLabel.nextLabel
  let before := c.createLabel.createLabel.createLabel.bindLabel c.nextLabel
  let inner := body.emit (⟨check, exit⟩ :: loops) before
  let done := condition.emit loops (inner.bindLabel check)
  have hcheck : check = c.nextLabel + 1 := by simp [check]
  have hexit : exit = c.nextLabel + 2 := by simp [exit]
  have hbefore : before.nextLabel = c.nextLabel + 3 := by simp [before]
  have hinner : before.nextLabel ≤ inner.nextLabel := nextLabel_le_emit ..
  have hcontinues : Continues c.nextLabel (inner.bindLabel check) done :=
    (Continues.refl _ _).emit loops condition
  have hdone := hcontinues.nextLabel_le
  rw [Code.nextLabel_bindLabel] at hdone
  constructor
  · refine hagrees check _ (by omega) ?_
    have hkept : done.label? check = some (c.size + body.span) := by
      rw [hcontinues.labels check (by omega) (by rw [Code.nextLabel_bindLabel]; omega)]
      rw [Code.label?_bindLabel_self (by omega)]
      simp [inner, before]
    have hne : check ≠ exit := by omega
    exact (Code.label?_bindLabel_of_ne hne).trans hkept
  · refine hagrees exit _ (by omega) ?_
    have hlt : exit < (done.push (.jump .ifTrue c.nextLabel none)).nextLabel := by
      rw [Code.nextLabel_push]
      omega
    refine (Code.label?_bindLabel_self hlt).trans ?_
    simp [done, inner, before]

/-- The instructions of a part are among those of the whole. -/
theorem lies_of_mem_parts (hb : b ∈ a.parts) (hagrees : a.after.Agrees a.code.nextLabel position)
    (hloop : LoopWithin (Clear a.code.size a.after.size) (a.loop position)) :
    Lies a.code.size (a.lowered position) (b.loop position) b.code.size b.expr := by
  rw [size_after] at hloop
  obtain ⟨loops, c, e⟩ := a
  change (e.emit loops c).Agrees c.nextLabel position at hagrees
  change LoopWithin (Clear c.size (c.size + e.span)) (loopAt loops position) at hloop
  match e with
  | .constant .. | .name .. | .breakLoop _ | .continueLoop _ | .ret _ none
  | .localVariable _ _ _ _ none | .lambda .. | .block _ [] => cases hb
  | .dot _ operand _ | .ret _ (some operand) | .localVariable _ _ _ _ (some operand) =>
      obtain rfl := List.mem_singleton.mp hb
      have hoperand := hloop.clear le_rfl (Nat.add_le_add_left (Nat.le_succ operand.span) _)
      exact (Lies.self hoperand).append_right (by simp [Instruction.Heads])
  | .block _ (first :: rest) => exact lies_inTurn hb hloop
  | .call _ _ operands =>
      have hoperands := hloop.clear le_rfl
        (Nat.add_le_add_left (Nat.le_succ (Expr.spanOf operands)) _)
      exact (lies_inTurn hb hoperands).append_right (by simp [Instruction.Heads])
  | .cond _ condition thenBranch none =>
      obtain ⟨hcondition, hthen⟩ := Expr.lies_cond_none hloop
      rcases List.mem_pair.mp hb with rfl | rfl
      · exact hcondition
      · exact hthen.congr rfl (by simp)
  | .cond _ condition thenBranch (some elseBranch) =>
      obtain ⟨hcondition, hthen, helse⟩ := Expr.lies_cond_some hloop
      rcases List.mem_cons.mp hb with rfl | hb
      · exact hcondition
      · rcases List.mem_pair.mp hb with rfl | rfl
        · exact hthen.congr rfl (by simp)
        · exact helse.congr rfl (by simp)
  | .whileLoop _ condition body =>
      obtain ⟨hcondition, hbody⟩ := Expr.lies_whileLoop hloop
      obtain ⟨hhead, hexit⟩ := position_whileLoop hagrees
      rcases List.mem_pair.mp hb with rfl | rfl
      · exact hcondition
      · refine hbody.congr ?_ (by simp)
        rw [← hexit, ← hhead]
        rfl
  | .doWhileLoop _ body condition =>
      obtain ⟨hbody, hcondition⟩ := Expr.lies_doWhileLoop hloop
      obtain ⟨hcheck, hexit⟩ := position_doWhileLoop hagrees
      rcases List.mem_pair.mp hb with rfl | rfl
      · refine hbody.congr ?_ rfl
        rw [← hexit, ← hcheck]
        rfl
      · exact hcondition.congr rfl (by simp)
  | .binary _ operator left right =>
      cases hoperator : operator.isShortCircuit with
      | true =>
          obtain ⟨hleft, hright⟩ := Expr.lies_shortCircuit hoperator hloop
          rcases List.mem_pair.mp hb with rfl | rfl
          · exact hleft
          · exact hright.congr rfl (by simp [hoperator])
      | false =>
          obtain ⟨hleft, hright⟩ := Expr.lies_binary hoperator hloop
          rcases List.mem_pair.mp hb with rfl | rfl
          · exact hleft
          · exact hright.congr rfl (by simp [hoperator])
  | .assign _ target value =>
      obtain ⟨hreceiver, hvalue⟩ := Expr.lies_assign hloop
      rcases List.mem_append.mp hb with hb | hb
      · obtain ⟨receiver, hmem, rfl⟩ := List.mem_map.mp hb
        exact hreceiver receiver (Option.mem_toList.mp hmem)
      · obtain rfl := List.mem_singleton.mp hb
        exact hvalue.congr rfl (by simp)

end Emission

/-! ## Regions -/

/-- A label that stands for a position behind the entry is bound to it. -/
theorem Code.label?_of_position {c : Code} {l p : Nat} (h : c.position l = p) (hp : 1 ≤ p) :
    c.label? l = some p := by
  unfold position at h
  cases hl : c.label? l with
  | none =>
      rw [hl, Option.getD_none] at h
      omega
  | some q =>
      rw [hl, Option.getD_some] at h
      rw [h]

namespace Emission

open Code (Continues)
open DeclAnalysis.Expr (LoopWithin)

variable {a b : Emission} {final : Code} {g : FlowGraph}

/-- What an expression being emitted has to do with the finished code and its graph. -/
structure Region (final : Code) (g : FlowGraph) (a : Emission) : Prop where
  emitted : a.after.instructions.toList <+: final.instructions.toList
  agrees : a.after.Agrees a.code.nextLabel final.position
  holds : g.Holds a.code.size (a.lowered final.position)
  loop : LoopWithin (Clear a.code.size a.after.size) (a.loop final.position)
  enters : g.EntersAtStart a.code.size a.after.size
  exit : a.after.size ≤ g.exit

/-- The parts of a region are regions. -/
theorem Region.part (h : Region final g a) (hb : b ∈ a.parts) : Region final g b := by
  obtain ⟨hle, hcontinues⟩ := leftAlone_of_mem_parts hb
  have hlies := lies_of_mem_parts hb h.agrees h.loop
  have hlength : (a.lowered final.position).length = a.expr.span := Expr.length_lower ..
  have hbounds := hlies.bounds
  have hexit := h.exit
  have henters := h.enters
  rw [size_after, ← hlength] at hexit henters
  constructor
  case emitted => exact hcontinues.instructions.trans h.emitted
  case agrees => exact hcontinues.agrees hle h.agrees
  case holds => exact h.holds.lies hlies
  case loop =>
    rw [size_after]
    exact hlies.clear
  case enters =>
    rw [size_after]
    exact henters.lies h.holds hlies hexit
  case exit =>
    rw [size_after]
    omega

/-- A whole body is a region. -/
theorem region_body (subroutine : Nat) (body : Expr) :
    Region (.ofBody subroutine body) (.ofBody subroutine body) ⟨[], .start subroutine, body⟩ := by
  have hsize : (body.emit [] (.start subroutine)).size = 1 + body.span := Expr.size_emit ..
  constructor
  case emitted =>
    rw [Code.ofBody, Code.push, Array.toList_push]
    exact List.prefix_append _ _
  case agrees =>
    intro l p _ hl
    exact congrArg (Option.getD · 0) hl
  case holds => exact FlowGraph.holds_body_ofBody subroutine body
  case loop =>
    intro targets htargets
    cases htargets
  case enters =>
    intro p q edge hp hq
    rw [size_after] at hp
    have hlt := FlowGraph.lt_size_of_mem_next edge
    rcases FlowGraph.position_ofBody subroutine body hlt with rfl | rfl | hinside
    · rw [FlowGraph.next_entry_ofBody] at edge
      exact List.mem_singleton.mp edge
    · rw [FlowGraph.next_exit_ofBody] at edge
      cases edge
    · exact absurd hinside hp
  case exit =>
    rw [FlowGraph.exit_ofBody]
    exact hsize.le

/-- Whatever is emitted for a body is a region. -/
theorem Within.region {subroutine : Nat} {body : Expr}
    (h : a.Within ⟨[], .start subroutine, body⟩) :
    Region (.ofBody subroutine body) (.ofBody subroutine body) a := by
  induction h with
  | refl => exact region_body subroutine body
  | tail _ hb ih => exact ih.part hb

end Emission

namespace Pseudocode

/-- The instructions of an expression are a run of positions of the finished code, and there are
some. The run is entered at its start only. It is left towards the position behind it, the exit, or
where the labels stand to which a `break` or `continue` in the expression would go. -/
structure SingleEntry (p : Pseudocode) (a : Emission) : Prop where
  nonempty : a.code.size < a.after.size
  appended : a.code.instructions.toList <+: a.after.instructions.toList
  final : a.after.instructions.toList <+: p.code.instructions.toList
  entering : ∀ source target, target ∈ p.edges.successors source →
    ¬ a.Covers source → a.Covers target → target = a.code.size
  leaving : ∀ source target, target ∈ p.edges.successors source →
    a.Covers source → ¬ a.Covers target →
      target = a.after.size ∨ target = p.code.size - 1 ∨
        ∃ targets, a.loops.head? = some targets ∧
          (p.code.label? targets.onBreak = some target ∨
            p.code.label? targets.onContinue = some target)

/-- Building the code of a body never fails, and every expression that is emitted for it is a
single-entry region of the code. -/
theorem exists_build_singleEntry (subroutine : Nat) (body : Expr) :
    ∃ p, build subroutine body = .ok p ∧
      ∀ a : Emission, a.Within ⟨[], .start subroutine, body⟩ → p.SingleEntry a := by
  obtain ⟨p, hbuild, hcode, hnext, -⟩ := exists_build_eq_ok subroutine body
  refine ⟨p, hbuild, ?_⟩
  intro a ha
  have hregion := ha.region
  constructor
  case nonempty =>
    rw [Emission.size_after]
    exact Nat.lt_add_of_pos_right a.expr.span_pos
  case appended =>
    obtain ⟨code, hemitted, -⟩ := (a.expr.emits_emit a.loops a.code).emitted
    rw [Emission.after, hemitted]
    exact List.prefix_append _ _
  case final =>
    rw [hcode]
    exact hregion.emitted
  case entering =>
    intro source target edge hsource htarget
    rw [hnext] at edge
    exact hregion.enters source target edge hsource htarget
  case leaving =>
    intro source target edge hsource htarget
    rw [hnext] at edge
    have hpositive := (FlowGraph.bounds_of_mem_next subroutine body edge).1
    unfold Emission.Covers at hsource htarget
    rw [Emission.size_after] at hsource htarget ⊢
    rcases hregion.holds.eq_of_mem_next_lower edge hsource htarget with h | h | ⟨_, hloop, h⟩
    · exact .inl h
    · refine .inr (.inl ?_)
      rw [h, hcode, Code.size_ofBody]
      rfl
    · obtain ⟨targets, hhead, rfl⟩ := Option.map_eq_some_iff.mp hloop
      refine .inr (.inr ⟨targets, hhead, ?_⟩)
      rw [hcode]
      rcases h with h | h
      · exact .inl (Code.label?_of_position h.symm hpositive)
      · exact .inr (Code.label?_of_position h.symm hpositive)

end Pseudocode

end DeclAnalysis

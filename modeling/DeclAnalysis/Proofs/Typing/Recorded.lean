import DeclAnalysis.Proofs.Flow.Tails
import DeclAnalysis.Proofs.Typing.Follows

/-!
# Recorded types

An expression without lambdas has a type, and so has every expression in it that is evaluated;
all these types are recorded. In particular a type is recorded for whatever can be the last step
of a body.
-/

namespace DeclAnalysis

namespace Expr

/-- The expression is a lambda. -/
def isLambda : Expr → Bool
  | lambda .. => true
  | _ => false

/-- There is no lambda in the expression. -/
def LambdaFree (e : Expr) : Prop := ∀ sub ∈ e.subexpressions, sub.isLambda = false

instance (e : Expr) : Decidable e.LambdaFree :=
  inferInstanceAs (Decidable (∀ sub ∈ e.subexpressions, sub.isLambda = false))

mutual

/-- The nodes in an expression that are evaluated: all but what cannot be assigned to and what is
inside a lambda. -/
def evaluated : Expr → List Nat
  | constant id _ | name id _ | breakLoop id | continueLoop id | ret id none
  | localVariable id _ _ _ none => [id]
  | dot id receiver _ => id :: receiver.evaluated
  | block id statements => id :: evaluatedOf statements
  | cond id condition thenBranch none => id :: (condition.evaluated ++ thenBranch.evaluated)
  | cond id condition thenBranch (some elseBranch) =>
    id :: (condition.evaluated ++ thenBranch.evaluated ++ elseBranch.evaluated)
  | whileLoop id condition body => id :: (condition.evaluated ++ body.evaluated)
  | doWhileLoop id body condition => id :: (body.evaluated ++ condition.evaluated)
  | ret id (some value) => id :: value.evaluated
  | binary id _ left right => id :: (left.evaluated ++ right.evaluated)
  | assign id target value =>
    id :: ((if Analysis.isAssignable target then target.evaluated else []) ++ value.evaluated)
  | call id _ arguments => id :: evaluatedOf arguments
  | localVariable id _ _ _ (some initializer) => id :: initializer.evaluated
  | lambda .. => []

/-- The nodes in several expressions that are evaluated. -/
def evaluatedOf : List Expr → List Nat
  | [] => []
  | e :: rest => e.evaluated ++ evaluatedOf rest

end

/-! ### Last steps are evaluated -/

mutual

theorem mem_evaluated_of_mem_tails (inBody : Bool) (e : Expr) :
    ∀ s ∈ e.tails inBody, s.kind ≠ .unsupported → s.element ∈ e.evaluated := by
  match e with
  | constant .. | name _ _ | dot .. | call .. | binary .. | whileLoop .. | doWhileLoop ..
  | assign .. | lambda .. | ret .. | breakLoop _ | continueLoop _ | localVariable _ _ _ _ none
  | localVariable _ _ _ _ (some _) =>
      grind [tails, evaluated]
  | block id statements =>
      have hstatements := mem_evaluated_of_mem_blockTails inBody id statements
      grind [tails, evaluated]
  | cond _ condition thenBranch none =>
      have hthen := mem_evaluated_of_mem_tails inBody thenBranch
      grind [tails, evaluated]
  | cond _ condition thenBranch (some elseBranch) =>
      have hthen := mem_evaluated_of_mem_tails inBody thenBranch
      have helse := mem_evaluated_of_mem_tails inBody elseBranch
      grind [tails, evaluated]

theorem mem_evaluated_of_mem_blockTails (inBody : Bool) (id : Nat) (es : List Expr) :
    ∀ s ∈ blockTails inBody id es, s.kind ≠ .unsupported → s.element ∈ id :: evaluatedOf es := by
  match es with
  | [] => grind [blockTails, evaluatedOf]
  | [last] =>
      have hlast := mem_evaluated_of_mem_tails inBody last
      grind [blockTails, evaluatedOf]
  | _ :: second :: rest =>
      have hrest := mem_evaluated_of_mem_blockTails inBody id (second :: rest)
      grind [blockTails, evaluatedOf]

end

mutual

theorem mem_evaluated_of_mem_finals (inBody : Bool) (e : Expr) :
    ∀ s ∈ e.finals inBody, s.kind ≠ .unsupported → s.element ∈ e.evaluated := by
  match e with
  | constant .. | name _ _ | lambda .. | breakLoop _ | continueLoop _ | block _ []
  | localVariable _ _ _ _ none | ret _ none =>
      grind [finals, evaluated]
  | dot _ inner _ | localVariable _ _ _ _ (some inner) =>
      have hinner := mem_evaluated_of_mem_finals inBody inner
      grind [finals, evaluated]
  | ret _ (some value) =>
      have hfinals := mem_evaluated_of_mem_finals inBody value
      have htails := mem_evaluated_of_mem_tails inBody value
      grind [finals, evaluated]
  | block _ (first :: rest) =>
      have hfirst := mem_evaluated_of_mem_finals inBody first
      have hrest := mem_evaluated_of_mem_finalsAll inBody rest
      grind [finals, evaluated, evaluatedOf]
  | cond _ condition thenBranch none =>
      have hcondition := mem_evaluated_of_mem_finals inBody condition
      have hthen := mem_evaluated_of_mem_finals inBody thenBranch
      grind [finals, evaluated]
  | cond _ condition thenBranch (some elseBranch) =>
      have hcondition := mem_evaluated_of_mem_finals inBody condition
      have hthen := mem_evaluated_of_mem_finals inBody thenBranch
      have helse := mem_evaluated_of_mem_finals inBody elseBranch
      grind [finals, evaluated]
  | whileLoop _ condition body | doWhileLoop _ body condition =>
      have hcondition := mem_evaluated_of_mem_finals inBody condition
      have hbody := mem_evaluated_of_mem_finals true body
      grind [finals, evaluated]
  | binary _ _ left right =>
      have hleft := mem_evaluated_of_mem_finals inBody left
      have hright := mem_evaluated_of_mem_finals inBody right
      grind [finals, evaluated]
  | assign _ target value =>
      have htarget := mem_evaluated_of_mem_receiverFinals inBody target
      have hvalue := mem_evaluated_of_mem_finals inBody value
      grind [finals, evaluated]
  | call _ _ arguments =>
      have harguments := mem_evaluated_of_mem_finalsAll inBody arguments
      grind [finals, evaluated]

theorem mem_evaluated_of_mem_finalsAll (inBody : Bool) (es : List Expr) :
    ∀ s ∈ finalsAll inBody es, s.kind ≠ .unsupported → s.element ∈ evaluatedOf es := by
  match es with
  | [] => nofun
  | e :: rest =>
      have hfirst := mem_evaluated_of_mem_finals inBody e
      have hrest := mem_evaluated_of_mem_finalsAll inBody rest
      grind [finalsAll, evaluatedOf]

theorem mem_evaluated_of_mem_receiverFinals (inBody : Bool) (e : Expr) :
    ∀ s ∈ receiverFinals inBody e, s.kind ≠ .unsupported →
      s.element ∈ if Analysis.isAssignable e then e.evaluated else [] := by
  match e with
  | dot _ receiver _ =>
      have hreceiver := mem_evaluated_of_mem_finals inBody receiver
      grind [receiverFinals, evaluated, Analysis.isAssignable]
  | constant .. | name .. | lambda .. | breakLoop _ | continueLoop _ | block .. | cond ..
  | whileLoop .. | doWhileLoop .. | ret .. | binary .. | assign .. | call ..
  | localVariable .. => nofun

end

end Expr

namespace Session

/-- A type is recorded for each of the nodes. -/
def Typed (s : Session) (nodes : List Nat) : Prop :=
  ∀ node ∈ nodes, (s.trace.expressionType? node).isSome

theorem Typed.of_follows
    {nodes typed : List Nat} {s s' : Session} (h : s.Typed typed) (hfollows : Follows nodes s s') :
    s'.Typed typed :=
  fun node hnode => hfollows.isSome_expressionType? (h node hnode)

end Session

namespace Analysis

open Session (Follows)

variable {α β : Type} {typed typed' nodes : List Nat} {q : α → Prop} {r : β → Prop}

/-- The computation leaves a type recorded for each of the nodes, and a result with `q`. Types
that are recorded are never lost. -/
def Records (typed : List Nat) (x : Analysis α) (q : α → Prop) : Prop :=
  ∀ s : Session, After x s fun a s' => (∃ nodes, Follows nodes s s') ∧ s'.Typed typed ∧ q a

namespace Records

variable {x : Analysis α}

theorem mono (h : Records typed x q) (hsub : typed' ⊆ typed) : Records typed' x q :=
  fun s => (h s).mono fun _ _ h' => ⟨h'.1, fun node hnode => h'.2.1 node (hsub hnode), h'.2.2⟩

theorem imp {q' : α → Prop} (h : Records typed x q) (himp : ∀ a, q a → q' a) : Records typed x q' :=
  fun s => (h s).mono fun _ _ h' => ⟨h'.1, h'.2.1, himp _ h'.2.2⟩

theorem pure {a : α} (h : q a) : Records [] (Pure.pure a : Analysis α) q :=
  fun s => ⟨⟨[], .refl [] s⟩, nofun, h⟩

theorem some (type : Ty) :
    Records [] (Pure.pure (Option.some type) : Analysis (Option Ty)) fun type => type.isSome :=
  .pure (q := fun type : Option Ty => type.isSome) rfl

/-- Steps that record no types. -/
theorem of_keeps (h : Keeps (Follows nodes) x) : Records [] x fun _ => True :=
  fun s => (h.after s).mono fun _ _ h' => ⟨⟨nodes, h'⟩, nofun, trivial⟩

theorem bind
    (h : Records typed x q) {f : α → Analysis β} (hf : ∀ a, q a → Records typed' (f a) r) :
    Records (typed ++ typed') (x >>= f) r := by
  intro s
  refine (h s).bind fun a s₁ ⟨⟨_, h₁⟩, htyped, ha⟩ => ?_
  refine (hf a ha s₁).mono fun b s₂ ⟨⟨_, h₂⟩, htyped', hb⟩ => ?_
  refine ⟨⟨_, (h₁.mono (List.subset_append_left ..)).trans (h₂.mono (List.subset_append_right ..))⟩,
    fun node hnode => ?_, hb⟩
  rcases List.mem_append.mp hnode with hnode | hnode
  · exact (htyped.of_follows h₂) node hnode
  · exact htyped' node hnode

/-- A last step that records no types. -/
theorem bind_last
    (h : Records typed x q) {f : α → Analysis β} (hf : ∀ a, q a → Records [] (f a) r) :
    Records typed (x >>= f) r :=
  (h.bind hf).mono (by simp)

theorem map_some {x : Analysis Ty} (h : Keeps (Follows nodes) x) :
    Records [] (Option.some <$> x) fun type => type.isSome :=
  fun s => after_map.mpr ((h.after s).mono fun _ _ h' => ⟨⟨nodes, h'⟩, nofun, rfl⟩)

end Records

/-! ### Steps of typing -/

theorem records_recordKnownType {type : Option Ty} (htype : type.isSome) (node : Nat) :
    Records [node] (recordKnownType node type) fun _ => True := by
  obtain ⟨type, rfl⟩ := Option.isSome_iff_exists.mp htype
  have hkeeps : Keeps (Follows [node]) (recordExpressionType node type) :=
    keeps_recordExpressionType List.mem_cons_self type
  refine fun s => ⟨⟨[node], hkeeps.after s⟩, fun node' hnode => ?_, trivial⟩
  rw [List.mem_singleton.mp hnode]
  have hself : (s.trace.expressionTypes.insert node type)[node]? = some type :=
    Std.TreeMap.getElem?_insert_self
  exact Option.isSome_of_eq_some hself

theorem records_expectKnownType (node : Nat) (expected actual : Option Ty) :
    Records [] (expectKnownType node expected actual) fun _ => True :=
  have hkeeps : Keeps (Follows [node]) (expectKnownType node expected actual) :=
    keeps_expectKnownType (List.mem_singleton_self node) expected actual
  .of_keeps hkeeps

/-- Typing an expression consists in finding its type and recording it. -/
theorem Records.infer
    {scope : Nat} {e : Expr} (h : Records typed (inferForm scope e) fun type => type.isSome) :
    Records (e.id :: typed) (infer scope e) fun type => type.isSome := by
  rw [infer_eq]
  have hrecord := h.bind fun type htype => (records_recordKnownType htype e.id).bind
    fun _ _ => Records.pure (q := fun type : Option Ty => type.isSome) htype
  exact hrecord.mono (by simp)

/-- The type that a place demands of an expression is compared with the one that is recorded. -/
theorem Records.demanded
    {scope : Nat} {e : Expr} {p : Option Ty → Prop} (h : Records typed (Analysis.infer scope e) p)
    (expected : Option Ty) {rest : Option Ty → Analysis α}
    (hrest : ∀ type, Records typed' (rest type) q) :
    Records (typed ++ typed') (do
      let type ← Analysis.infer scope e
      expectKnownType e.id expected type
      rest type) q :=
  h.bind fun type _ => (records_expectKnownType e.id expected type).bind fun _ _ => hrest type

theorem records_declaredType (scope : Nat) (typeRef : Option TypeRef) :
    Records [] (typeRef.mapM (resolveTypeRef scope)) fun _ => True := by
  have hresolve : Keeps (Follows (typeRefNodes typeRef)) (typeRef.mapM (resolveTypeRef scope)) :=
    Keeps.optionMapM _ fun ref href =>
      keeps_resolveTypeRef (typeRef_mem_of_subset (List.Subset.refl _) ref href) scope
  exact .of_keeps hresolve

theorem records_declareLocal
    (scope node : Nat) (name : String) (mutable : Bool) (declared initialized : Option Ty) :
    Records [] (declareLocal scope node name mutable declared initialized) fun _ => True := by
  have hdeclare : Keeps (From (Session.Ground.free.admits [name] [] scope) (Follows [node]))
      (declareLocal scope node name mutable declared initialized) :=
    keepsFrom_declareLocal List.mem_cons_self List.mem_cons_self ..
  exact .of_keeps (hdeclare.mono fun _ _ h => h trivial)

theorem records_join {a b : Option Ty} (ha : a.isSome) (hb : b.isSome) :
    Records [] (do
      match a, b with
      | some a, some b => pure (some ((← get).descriptors.join a b))
      | _, _ => pure none : Analysis (Option Ty)) fun type => type.isSome := by
  obtain ⟨a, rfl⟩ := Option.isSome_iff_exists.mp ha
  obtain ⟨b, rfl⟩ := Option.isSome_iff_exists.mp hb
  exact fun s => ⟨⟨[], .refl [] s⟩, nofun, rfl⟩

/-! ### Expressions -/

mutual

/-- An expression without lambdas has a type, and the types of what is evaluated in it are
recorded. -/
theorem records_infer (scope : Nat) (e : Expr) (he : e.LambdaFree) :
    Records e.evaluated (infer scope e) fun type => type.isSome := by
  match e with
  | .constant _ (.int _) | .constant _ (.double _) | .constant _ (.string _)
  | .constant _ (.bool _) | .breakLoop _ | .continueLoop _ | .ret _ none =>
      exact Records.infer (.pure rfl)
  | .name node name =>
      exact Records.infer (.map_some (keeps_inferName (List.mem_singleton_self node) scope name))
  | .lambda .. => exact absurd (he _ List.mem_cons_self) Bool.noConfusion
  | .dot node receiver name =>
      have hreceiver := records_infer scope receiver (List.forall_mem_cons.mp he).2
      refine Records.infer (hreceiver.bind_last fun type htype => ?_)
      obtain ⟨type, rfl⟩ := Option.isSome_iff_exists.mp htype
      exact .map_some (keeps_inferMember (List.mem_singleton_self node) type name)
  | .block _ statements =>
      have hcreate : Keeps (Follows []) (createScope .block (some scope) none) :=
        keeps_createScope ..
      exact Records.infer ((Records.of_keeps hcreate).bind fun block _ =>
        records_inferStatements block rfl statements (List.forall_mem_cons.mp he).2)
  | .cond _ condition thenBranch none =>
      obtain ⟨hcondition, hthen⟩ := List.forall_mem_append.mp (List.forall_mem_cons.mp he).2
      have hbranch := (records_infer scope thenBranch hthen).bind fun _ _ => .some .unit
      exact (Records.infer ((records_infer scope condition hcondition).demanded (some .boolean) fun _ => hbranch)).mono
        (by simp [Expr.evaluated, Expr.id])
  | .cond _ condition thenBranch (some elseBranch) =>
      obtain ⟨hparts, helse⟩ := List.forall_mem_append.mp (List.forall_mem_cons.mp he).2
      obtain ⟨hcondition, hthen⟩ := List.forall_mem_append.mp hparts
      have hbranches := (records_infer scope thenBranch hthen).bind fun thenType hthenType =>
        (records_infer scope elseBranch helse).bind fun elseType helseType =>
          records_join hthenType helseType
      exact (Records.infer ((records_infer scope condition hcondition).demanded (some .boolean) fun _ => hbranches)).mono
        (by simp [Expr.evaluated, Expr.id])
  | .whileLoop _ condition body =>
      obtain ⟨hcondition, hbody⟩ := List.forall_mem_append.mp (List.forall_mem_cons.mp he).2
      have hloop := (records_infer scope body hbody).bind fun _ _ => .some .unit
      exact (Records.infer ((records_infer scope condition hcondition).demanded (some .boolean) fun _ => hloop)).mono
        (by simp [Expr.evaluated, Expr.id])
  | .doWhileLoop _ body condition =>
      obtain ⟨hbody, hcondition⟩ := List.forall_mem_append.mp (List.forall_mem_cons.mp he).2
      have hcheck := (records_infer scope condition hcondition).demanded (some .boolean)
        fun _ => .some .unit
      exact (Records.infer ((records_infer scope body hbody).bind fun _ _ => hcheck)).mono
        (by simp [Expr.evaluated, Expr.id])
  | .ret _ (some value) =>
      have hvalue := records_infer scope value (List.forall_mem_cons.mp he).2
      exact (Records.infer (hvalue.bind fun _ _ => .some .nothing)).mono
        (by simp [Expr.evaluated, Expr.id])
  | .binary node operator left right =>
      obtain ⟨hleft, hright⟩ := List.forall_mem_append.mp (List.forall_mem_cons.mp he).2
      refine (Records.infer ((records_infer scope left hleft).bind fun leftType hleftType =>
        (records_infer scope right hright).bind_last fun rightType hrightType => ?_)).mono
          (by simp [Expr.evaluated, Expr.id])
      obtain ⟨leftType, rfl⟩ := Option.isSome_iff_exists.mp hleftType
      obtain ⟨rightType, rfl⟩ := Option.isSome_iff_exists.mp hrightType
      have hoperator : Keeps (Follows []) (inferOperator node operator leftType rightType) :=
        keeps_inferOperator node operator leftType rightType
      exact .map_some hoperator
  | .assign _ target value =>
      obtain ⟨htarget, hvalue⟩ := List.forall_mem_append.mp (List.forall_mem_cons.mp he).2
      have htyped : Records (if isAssignable target then target.evaluated else [])
          (inferTarget scope target) fun _ => True := by
        unfold inferTarget
        split
        · exact (records_infer scope target htarget).imp fun _ _ => trivial
        · have hreport : Keeps (Follows []) (do
              reportCode .semanticError target.id "Invalid assignment target"
              pure none : Analysis (Option Ty)) :=
            (keeps_reportCode (by decide) ..).bind fun _ => Keeps.pure _
          exact .of_keeps hreport
      have hreassign : Keeps (Follows []) (checkReassignment target) := keeps_checkReassignment target
      have hassigned := fun type => (records_infer scope value hvalue).demanded type
        fun _ => .some .unit
      exact (Records.infer (htyped.bind fun type _ =>
        (Records.of_keeps hreassign).bind fun _ _ => hassigned type)).mono
          (by simp [Expr.evaluated, Expr.id])
  | .call node callee arguments =>
      have harguments := records_inferArguments scope arguments (List.forall_mem_cons.mp he).2
      refine Records.infer (harguments.bind_last fun types _ => ?_)
      exact .map_some (keeps_inferCall (List.mem_singleton_self node) scope callee types)
  | .localVariable node name mutable typeRef none =>
      exact (Records.infer ((records_declaredType scope typeRef).bind fun declared _ =>
        (records_declareLocal scope node name mutable declared none).bind fun _ _ =>
          .some .unit)).mono (by simp [Expr.evaluated, Expr.id])
  | .localVariable node name mutable typeRef (some initializer) =>
      have hinitializer := records_infer scope initializer (List.forall_mem_cons.mp he).2
      have hdeclared := fun declared => hinitializer.demanded declared fun type =>
        (records_declareLocal scope node name mutable declared type).bind fun _ _ => .some .unit
      exact (Records.infer ((records_declaredType scope typeRef).bind fun declared _ =>
        hdeclared declared)).mono (by simp [Expr.evaluated, Expr.id])

theorem records_inferStatements
    (scope : Nat) {last : Option Ty} (hlast : last.isSome) (es : List Expr)
    (hes : ∀ sub ∈ Expr.subexpressionsOf es, sub.isLambda = false) :
    Records (Expr.evaluatedOf es) (inferStatements scope last es) fun type => type.isSome := by
  match es with
  | [] => exact .pure hlast
  | e :: rest =>
      obtain ⟨he, hrest⟩ := List.forall_mem_append.mp hes
      exact (records_infer scope e he).bind fun type htype =>
        records_inferStatements scope htype rest hrest

theorem records_inferArguments
    (scope : Nat) (es : List Expr)
    (hes : ∀ sub ∈ Expr.subexpressionsOf es, sub.isLambda = false) :
    Records (Expr.evaluatedOf es) (inferArguments scope es) fun _ => True := by
  match es with
  | [] => exact .pure trivial
  | e :: rest =>
      obtain ⟨he, hrest⟩ := List.forall_mem_append.mp hes
      have hothers := records_inferArguments scope rest hrest
      exact (records_infer scope e he).bind fun type _ =>
        hothers.bind_last fun types _ => .pure trivial

end

end Analysis

end DeclAnalysis

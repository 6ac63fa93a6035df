import DeclAnalysis.Typing.Infer
import DeclAnalysis.Proofs.Tree.Children

/-!
# Names in the order of typing

A name in an expression refers to the latest local variable of that name that was declared, in the
order of typing, in the innermost block around it in which there is one. What is declared outside of
all blocks of the expression counts as declared in a block of its own around it. The order of typing
is given by the events that have to do with names; what the names refer to is then read off with a
stack of frames, one for each block that has been entered and not left.
-/

namespace DeclAnalysis

/-- An event of typing that has to do with names. -/
inductive NameEvent where
  /-- A block is entered. -/
  | enter
  /-- The innermost block is left. -/
  | leave
  /-- A local variable is declared. -/
  | declare (node : Nat) (name : String)
  /-- A name, which is not that of a backing field, is looked up. -/
  | mention (node : Nat) (name : String)
  /-- Something else may be recorded about a node, or found missing. -/
  | other (node : Nat)
deriving DecidableEq, Repr

/-- The variables that are declared in the blocks around a place, those of the innermost block
first. A variable is given by its name and the node of its declaration, the latest one first. -/
abbrev Frames := List (List (String × Nat))

namespace Frames

/-- The latest variable of a name in the innermost block that has one. -/
def declared? (frames : Frames) (name : String) : Option Nat := frames.findSome? (·.lookup name)

/-- The nodes of the variables. -/
def nodes (frames : Frames) : List Nat := frames.flatten.map Prod.snd

theorem mem_nodes_of_declared?
    {frames : Frames} {name : String} {node : Nat} (h : frames.declared? name = some node) :
    node ∈ frames.nodes := by
  obtain ⟨frame, hframe, hlookup⟩ := List.exists_of_findSome?_eq_some h
  obtain ⟨before, after, rfl, -⟩ := List.lookup_eq_some_iff.mp hlookup
  exact List.mem_map.mpr ⟨(name, node), List.mem_flatten.mpr ⟨_, hframe, by simp⟩, rfl⟩

end Frames

/-- A name that is looked up, with the node of the local variable that it refers to, if any. -/
structure Reading where
  node : Nat
  name : String
  declared? : Option Nat
deriving DecidableEq, Repr

namespace NameEvent

/-- The node that an event is about. -/
def node? : NameEvent → Option Nat
  | enter | leave => none
  | declare node _ | mention node _ | other node => some node

/-- The nodes that several events are about. -/
def nodes (xs : List NameEvent) : List Nat := xs.filterMap node?

/-- The frames after an event. -/
def step : Frames → NameEvent → Frames
  | frames, enter => [] :: frames
  | _ :: frames, leave => frames
  | frame :: frames, declare node name => ((name, node) :: frame) :: frames
  | frames, _ => frames

/-- The frames after several events. -/
def run (frames : Frames) (xs : List NameEvent) : Frames := xs.foldl step frames

/-- What is read off when a name is looked up. -/
def reading? (frames : Frames) : NameEvent → Option Reading
  | mention node name => some ⟨node, name, frames.declared? name⟩
  | _ => none

/-- What is read off while names are looked up one after the other. -/
def readings : Frames → List NameEvent → List Reading
  | _, [] => []
  | frames, x :: xs => (x.reading? frames).toList ++ readings (step frames x) xs

/-! ## Reading names off -/

section

variable (frames : Frames) (xs ys : List NameEvent)

theorem nodes_append : nodes (xs ++ ys) = nodes xs ++ nodes ys := List.filterMap_append

theorem run_append : run frames (xs ++ ys) = run (run frames xs) ys := List.foldl_append

theorem readings_append :
    readings frames (xs ++ ys) = readings frames xs ++ readings (run frames xs) ys := by
  induction xs generalizing frames with
  | nil => rfl
  | cons x xs ih =>
      rw [List.cons_append, readings, readings, ih, List.append_assoc]
      rfl

end

theorem nodes_step_subset (frames : Frames) (x : NameEvent) :
    (step frames x).nodes ⊆ frames.nodes ++ nodes [x] := by
  match x, frames with
  | enter, frames | other _, frames | mention _ _, frames | leave, [] | declare _ _, [] =>
      exact List.subset_append_left _ _
  | leave, frame :: frames =>
      unfold step Frames.nodes
      rw [List.flatten_cons, List.map_append, List.append_assoc]
      exact List.Subset.trans (List.subset_append_left _ _) (List.subset_append_right _ _)
  | declare node name, frame :: frames =>
      intro node' hnode'
      simp only [step, Frames.nodes, List.flatten_cons, List.cons_append, List.map_cons,
        List.mem_cons] at hnode'
      rcases hnode' with rfl | hnode'
      · exact List.mem_append_right _ List.mem_cons_self
      · exact List.mem_append_left _ hnode'

/-- The variables in the frames are those that were there and those that have been declared. -/
theorem nodes_run_subset (frames : Frames) (xs : List NameEvent) :
    (run frames xs).nodes ⊆ frames.nodes ++ nodes xs := by
  induction xs generalizing frames with
  | nil => exact List.subset_append_left _ _
  | cons x xs ih =>
      intro node hnode
      rw [← List.singleton_append, nodes_append]
      rcases List.mem_append.mp (ih (step frames x) hnode) with hnode | hnode
      · rw [← List.append_assoc]
        exact List.mem_append_left _ (nodes_step_subset frames x hnode)
      · exact List.mem_append_right _ (List.mem_append_right _ hnode)

/-- Names are read off where they are looked up. -/
theorem mention_mem_of_mem_readings
    {frames : Frames} {xs : List NameEvent} {r : Reading} (hr : r ∈ readings frames xs) :
    mention r.node r.name ∈ xs := by
  induction xs generalizing frames with
  | nil => cases hr
  | cons x xs ih =>
      rcases List.mem_append.mp hr with hr | hr
      · cases x with
        | mention node name =>
            obtain rfl := List.mem_singleton.mp hr
            exact List.mem_cons_self
        | _ => cases hr
      · exact List.mem_cons_of_mem x (ih hr)

/-- Wherever a name is looked up, something is read off. -/
theorem exists_reading_of_mention_mem
    {xs : List NameEvent} {node : Nat} {name : String} (h : mention node name ∈ xs)
    (frames : Frames) : ∃ r ∈ readings frames xs, r.node = node ∧ r.name = name := by
  induction xs generalizing frames with
  | nil => cases h
  | cons x xs ih =>
      rcases List.mem_cons.mp h with rfl | h
      · exact ⟨_, List.mem_append_left _ (List.mem_singleton_self _), rfl, rfl⟩
      · obtain ⟨r, hr, hnode, hname⟩ := ih h (step frames x)
        exact ⟨r, List.mem_append_right _ hr, hnode, hname⟩

theorem node_mem_of_mem_readings
    {frames : Frames} {xs : List NameEvent} {r : Reading} (hr : r ∈ readings frames xs) :
    r.node ∈ nodes xs :=
  List.mem_filterMap.mpr ⟨_, mention_mem_of_mem_readings hr, rfl⟩

/-- A name refers to a variable that was there or has been declared. -/
theorem declared?_mem_of_mem_readings
    {frames : Frames} {xs : List NameEvent} {r : Reading} (hr : r ∈ readings frames xs) {node : Nat}
    (hnode : r.declared? = some node) : node ∈ frames.nodes ++ nodes xs := by
  induction xs generalizing frames with
  | nil => cases hr
  | cons x xs ih =>
      rw [← List.singleton_append, nodes_append]
      rcases List.mem_append.mp hr with hr | hr
      · cases x with
        | mention node' name =>
            obtain rfl := List.mem_singleton.mp hr
            exact List.mem_append_left _ (Frames.mem_nodes_of_declared? hnode)
        | _ => cases hr
      · rcases List.mem_append.mp (ih hr) with hmem | hmem
        · rw [← List.append_assoc]
          exact List.mem_append_left _ (nodes_step_subset frames x hmem)
        · exact List.mem_append_right _ (List.mem_append_right _ hmem)

end NameEvent

namespace Expr

open Analysis (fieldName? isAssignable)
open NameEvent (enter leave declare mention other)

/-! ## Typed positions -/

/-- The children that are typed: all but the body of a lambda and the target of an assignment that
is neither a name nor a member access. -/
def typedChildren : Expr → List Expr
  | lambda .. => []
  | assign _ target value => if isAssignable target then [target, value] else [value]
  | e => e.children

theorem typedChildren_subset (e : Expr) : e.typedChildren ⊆ e.children := by
  unfold typedChildren
  split
  · exact List.nil_subset _
  · split
    · exact List.Subset.refl _
    · exact List.subset_cons_self _ _
  · exact List.Subset.refl _

/-- An expression is typed when another one is. -/
inductive IsTypedIn (x : Expr) : Expr → Prop
  | self : IsTypedIn x x
  | child {c e : Expr} : c ∈ e.typedChildren → IsTypedIn x c → IsTypedIn x e

/-! ## The events of an expression -/

mutual

/-- The events of typing an expression, in their order. -/
def nameEvents : Expr → List NameEvent
  | constant .. | breakLoop _ | continueLoop _ | ret _ none | lambda .. => []
  | name node text => if (fieldName? text).isSome then [other node] else [mention node text]
  | dot node receiver _ => receiver.nameEvents ++ [other node]
  | block _ statements => [enter] ++ nameEventsOf statements ++ [leave]
  | cond _ condition thenBranch none => condition.nameEvents ++ thenBranch.nameEvents
  | cond _ condition thenBranch (some elseBranch) =>
    condition.nameEvents ++ (thenBranch.nameEvents ++ elseBranch.nameEvents)
  | whileLoop _ condition body => condition.nameEvents ++ body.nameEvents
  | doWhileLoop _ body condition => body.nameEvents ++ condition.nameEvents
  | ret _ (some value) => value.nameEvents
  | binary _ _ left right => left.nameEvents ++ right.nameEvents
  | assign _ target value =>
    (if isAssignable target then target.nameEvents else []) ++ value.nameEvents
  | call node _ arguments => nameEventsOf arguments ++ [other node]
  | localVariable node text _ typeRef none =>
    (typeRefNodes typeRef).map other ++ [declare node text]
  | localVariable node text _ typeRef (some initializer) =>
    (typeRefNodes typeRef).map other ++ (initializer.nameEvents ++ [declare node text])

/-- The events of typing several expressions one after the other. -/
def nameEventsOf : List Expr → List NameEvent
  | [] => []
  | e :: rest => e.nameEvents ++ nameEventsOf rest

end

/-- What the names in an expression refer to, where no local variable is declared around it. -/
def readings (e : Expr) : List Reading := NameEvent.readings [[]] e.nameEvents

theorem nameEventsOf_eq_flatMap (es : List Expr) : nameEventsOf es = es.flatMap nameEvents := by
  induction es with
  | nil => rfl
  | cons e rest ih => rw [nameEventsOf, ih, List.flatMap_cons]

/-- A name is looked up for the expression itself or for one of its typed children. -/
theorem mention_mem_nameEvents_iff {node : Nat} {text : String} (e : Expr) :
    mention node text ∈ e.nameEvents ↔
      e = name node text ∧ fieldName? text = none ∨
        ∃ c ∈ e.typedChildren, mention node text ∈ c.nameEvents := by
  match e with
  | name node' text' =>
      cases h : fieldName? text' <;> simp +contextual [nameEvents, typedChildren, children, h]
      · grind
      · grind
  | assign _ target value =>
      cases h : isAssignable target <;> simp [nameEvents, typedChildren, h]
  | block .. | call .. =>
      simp [nameEvents, typedChildren, children, nameEventsOf_eq_flatMap]
  | constant .. | dot .. | cond _ _ _ none | cond _ _ _ (some _) | whileLoop ..
  | doWhileLoop .. | breakLoop _ | continueLoop _ | ret _ none | ret _ (some _) | binary ..
  | localVariable _ _ _ _ none | localVariable _ _ _ _ (some _) | lambda .. =>
      simp [nameEvents, typedChildren, children]

/-- The names that are looked up are those in typed positions. -/
theorem mention_mem_nameEvents {node : Nat} {text : String} {e : Expr} :
    mention node text ∈ e.nameEvents ↔
      (name node text).IsTypedIn e ∧ fieldName? text = none := by
  induction e using induction_children with
  | h e ih =>
      rw [mention_mem_nameEvents_iff]
      constructor
      · rintro (⟨rfl, hfield⟩ | ⟨c, hc, hmention⟩)
        · exact ⟨.self, hfield⟩
        · obtain ⟨htyped, hfield⟩ := (ih c (typedChildren_subset e hc)).mp hmention
          exact ⟨.child hc htyped, hfield⟩
      · rintro ⟨htyped, hfield⟩
        cases htyped with
        | self => exact .inl ⟨rfl, hfield⟩
        | child hc htyped =>
            exact .inr ⟨_, hc, (ih _ (typedChildren_subset e hc)).mpr ⟨htyped, hfield⟩⟩

/-- There is a reading for every name in a typed position, and for nothing else. -/
theorem exists_reading_iff {node : Nat} {text : String} {e : Expr} :
    (∃ r ∈ e.readings, r.node = node ∧ r.name = text) ↔
      (name node text).IsTypedIn e ∧ fieldName? text = none := by
  rw [← mention_mem_nameEvents]
  constructor
  · rintro ⟨r, hr, rfl, rfl⟩
    exact NameEvent.mention_mem_of_mem_readings hr
  · intro h
    exact NameEvent.exists_reading_of_mention_mem h [[]]

/-! ## The nodes of the events -/

theorem nodes_singleton (x : NameEvent) : NameEvent.nodes [x] = x.node?.toList := by
  cases x <;> rfl

theorem nodes_map_other (nodes : List Nat) : NameEvent.nodes (nodes.map other) = nodes := by
  induction nodes with
  | nil => rfl
  | cons node nodes ih => exact congrArg (node :: ·) ih

mutual

/-- Every event is about a node of its own. -/
theorem count_nameEvents_le (node : Nat) (e : Expr) :
    (NameEvent.nodes e.nameEvents).count node ≤ e.nodes.count node := by
  match e with
  | constant .. | breakLoop _ | continueLoop _ | ret _ none | lambda .. =>
      simp [nameEvents, NameEvent.nodes]
  | name _ text =>
      cases h : fieldName? text <;> simp [nameEvents, nodes, NameEvent.nodes, NameEvent.node?, h]
  | localVariable _ _ _ typeRef none =>
      simp only [nameEvents, nodes, NameEvent.nodes_append, nodes_map_other, nodes_singleton,
        NameEvent.node?, Option.toList, List.count_append, List.count_cons, List.count_nil]
      omega
  | dot _ inner _ | ret _ (some inner) | localVariable _ _ _ _ (some inner) =>
      have hinner := count_nameEvents_le node inner
      simp only [nameEvents, nodes, NameEvent.nodes_append, nodes_map_other, nodes_singleton,
        NameEvent.node?, Option.toList, List.count_append, List.count_cons, List.count_nil]
      omega
  | block _ es | call _ _ es =>
      have hes := count_nameEventsOf_le node es
      simp only [nameEvents, nodes, NameEvent.nodes_append, nodes_singleton, NameEvent.node?,
        Option.toList, List.count_append, List.count_cons, List.count_nil]
      omega
  | cond _ first second none | whileLoop _ first second | doWhileLoop _ first second
  | binary _ _ first second =>
      have hfirst := count_nameEvents_le node first
      have hsecond := count_nameEvents_le node second
      simp only [nameEvents, nodes, NameEvent.nodes_append, List.count_append, List.count_cons]
      omega
  | cond _ condition thenBranch (some elseBranch) =>
      have hcondition := count_nameEvents_le node condition
      have hthen := count_nameEvents_le node thenBranch
      have helse := count_nameEvents_le node elseBranch
      simp only [nameEvents, nodes, NameEvent.nodes_append, List.count_append, List.count_cons]
      omega
  | assign _ target value =>
      have htarget : (NameEvent.nodes (if isAssignable target then target.nameEvents else [])).count
          node ≤ target.nodes.count node := by
        split
        · exact count_nameEvents_le node target
        · exact Nat.zero_le _
      have hvalue := count_nameEvents_le node value
      simp only [nameEvents, nodes, NameEvent.nodes_append, List.count_append, List.count_cons]
      omega

theorem count_nameEventsOf_le (node : Nat) (es : List Expr) :
    (NameEvent.nodes (nameEventsOf es)).count node ≤ (nodesOf es).count node := by
  match es with
  | [] => exact Nat.zero_le _
  | e :: rest =>
      have he := count_nameEvents_le node e
      have hrest := count_nameEventsOf_le node rest
      simp only [nameEventsOf, nodesOf, NameEvent.nodes_append, List.count_append]
      omega

end

end Expr

end DeclAnalysis

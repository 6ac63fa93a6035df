import DeclAnalysis.Tree.Body
import DeclAnalysis.Tree.SourceFile
import DeclAnalysis.Proofs.Tree.Enclosing

/-!
# The bodies of a tree

The bodies that are run as subroutines of their own belong to functions, accessors and
constructors that stand in classes. In a numbered file each of them is numbered.
-/

namespace DeclAnalysis

namespace Body

theorem mem_ofExpr {node : Nat} {role : BodyRole} {e : Expr} {body : Option Expr} (he : e ∈ body) :
    ⟨node, role, e⟩ ∈ ofExpr node role body :=
  List.mem_map_of_mem (Option.mem_toList.mpr he)

theorem mem_ofAccessor
    {role : BodyRole} {a : Accessor} {accessor : Option Accessor} {e : Expr}
    (ha : a ∈ accessor.toList) (he : e ∈ a.body) : ⟨a.id, role, e⟩ ∈ ofAccessor role accessor :=
  List.mem_flatMap.mpr ⟨a, ha, mem_ofExpr he⟩

end Body

namespace Declaration

/-- The bodies of a declaration that are resolved as subroutines: an initializer is not, nor is
the body of a constructor that stands in no class. -/
def subroutines (q : Option Declaration × Declaration) : List Body :=
  q.2.ownBodies.filter fun b =>
    match b.role with
    | .function | .getter | .setter => true
    | .initializer => false
    | .constructor => (q.1.bind classHead?).isSome

theorem mem_ownBodies_of_mem_subroutines
    {q : Option Declaration × Declaration} {b : Body} (hb : b ∈ subroutines q) :
    b ∈ q.2.ownBodies :=
  List.mem_of_mem_filter hb

/-- What a subroutine belongs to. -/
inductive HasSubroutine (q : Option Declaration × Declaration) (b : Body) : Prop
  | function {decl : FunctionDecl} (hself : q.2 = .functionDecl decl)
      (hbody : decl.body = some b.expr) (hrole : b.role = .function)
      (hnode : b.subroutine = decl.id)
  | getter {decl : PropertyDecl} {a : Accessor} (hself : q.2 = .propertyDecl decl)
      (haccessor : decl.getter = some a) (hbody : a.body = some b.expr) (hrole : b.role = .getter)
      (hnode : b.subroutine = a.id)
  | setter {decl : PropertyDecl} {a : Accessor} (hself : q.2 = .propertyDecl decl)
      (haccessor : decl.setter = some a) (hbody : a.body = some b.expr) (hrole : b.role = .setter)
      (hnode : b.subroutine = a.id)
  | constructor {decl : ConstructorDecl} {head : ClassHead} (hself : q.2 = .constructorDecl decl)
      (hclass : q.1.bind classHead? = some head) (hbody : decl.body = some b.expr)
      (hrole : b.role = .constructor) (hnode : b.subroutine = decl.id)

theorem eq_of_mem_ofExpr
    {node : Nat} {role : BodyRole} {e : Option Expr} {b : Body}
    (hb : b ∈ Body.ofExpr node role e) :
    e = some b.expr ∧ b.role = role ∧ b.subroutine = node := by
  obtain ⟨e', he', rfl⟩ := List.mem_map.mp hb
  exact ⟨Option.mem_toList.mp he', rfl, rfl⟩

theorem exists_of_mem_ofAccessor
    {role : BodyRole} {a : Option Accessor} {b : Body} (hb : b ∈ Body.ofAccessor role a) :
    ∃ a', a = some a' ∧ a'.body = some b.expr ∧ b.role = role ∧ b.subroutine = a'.id := by
  obtain ⟨a', ha', hb⟩ := List.mem_flatMap.mp hb
  exact ⟨a', Option.mem_toList.mp ha', eq_of_mem_ofExpr hb⟩

theorem hasSubroutine_of_mem
    {q : Option Declaration × Declaration} {b : Body} (hb : b ∈ subroutines q) :
    HasSubroutine q b := by
  obtain ⟨around, d⟩ := q
  obtain ⟨hb, hrole⟩ := List.mem_filter.mp hb
  cases d with
  | functionDecl decl =>
      obtain ⟨hbody, hfunction, hnode⟩ := eq_of_mem_ofExpr hb
      exact .function rfl hbody hfunction hnode
  | constructorDecl decl =>
      obtain ⟨hbody, hconstructor, hnode⟩ := eq_of_mem_ofExpr hb
      rw [hconstructor] at hrole
      obtain ⟨head, hclass⟩ := Option.isSome_iff_exists.mp hrole
      exact .constructor rfl hclass hbody hconstructor hnode
  | propertyDecl decl =>
      rcases List.mem_append.mp hb with hb | hb
      · rcases List.mem_append.mp hb with hb | hb
        · obtain ⟨-, hinitializer, -⟩ := eq_of_mem_ofExpr hb
          rw [hinitializer] at hrole
          cases hrole
        · obtain ⟨a, haccessor, hbody, hgetter, hnode⟩ := exists_of_mem_ofAccessor hb
          exact .getter rfl haccessor hbody hgetter hnode
      · obtain ⟨a, haccessor, hbody, hsetter, hnode⟩ := exists_of_mem_ofAccessor hb
        exact .setter rfl haccessor hbody hsetter hnode
  | _ => cases hb

/-- No class has a subroutine of its own. -/
theorem HasSubroutine.classHead?_eq_none
    {q : Option Declaration × Declaration} {b : Body} (h : HasSubroutine q b) :
    q.2.classHead? = none := by
  cases h with
  | function hself | getter hself | setter hself | constructor hself =>
      rw [hself]
      rfl

/-! ## Nodes of bodies -/

theorem optionalNodes_eq_nodes {e : Option Expr} {e' : Expr} (h : e = some e') :
    Expr.optionalNodes e = e'.nodes := by
  rw [h]
  rfl

/-- The nodes of a body are among those inside its declaration. -/
theorem nodes_subset_innerNodes
    {q : Option Declaration × Declaration} {b : Body} (hb : HasSubroutine q b) :
    b.expr.nodes ⊆ q.2.ownNodes.tail := by
  intro node hnode
  cases hb with
  | function hself hbody =>
      rw [hself]
      rw [← optionalNodes_eq_nodes hbody] at hnode
      exact List.mem_append_right _ hnode
  | constructor hself _ hbody =>
      rw [hself]
      rw [← optionalNodes_eq_nodes hbody] at hnode
      exact List.mem_append_right _ hnode
  | getter hself haccessor hbody =>
      rw [hself]
      rw [← optionalNodes_eq_nodes hbody] at hnode
      refine List.mem_append_left _ (List.mem_append_right _ ?_)
      rw [haccessor]
      exact List.mem_flatMap.mpr ⟨_, List.mem_cons_self,
        List.mem_cons_of_mem _ (List.mem_append_right _ hnode)⟩
  | setter hself haccessor hbody =>
      rw [hself]
      rw [← optionalNodes_eq_nodes hbody] at hnode
      refine List.mem_append_right _ ?_
      rw [haccessor]
      exact List.mem_flatMap.mpr ⟨_, List.mem_cons_self,
        List.mem_cons_of_mem _ (List.mem_append_right _ hnode)⟩

/-! ## Numbers of bodies -/

mutual

theorem exists_number_of_mem_nested
    (n : Nat) (d : Declaration) {d' : Declaration} (h : d' ∈ (d.number n).nested) :
    ∃ m d₀, d' = number m d₀ := by
  match d with
  | namespaceDecl head members =>
      rcases List.mem_cons.mp h with rfl | h
      · exact ⟨n, namespaceDecl head members, rfl⟩
      · exact exists_number_of_mem_nestedIn (n + head.nodeCount) members h
  | classDecl head members =>
      rcases List.mem_cons.mp h with rfl | h
      · exact ⟨n, classDecl head members, rfl⟩
      · exact exists_number_of_mem_nestedIn (n + head.nodeCount) members h
  | classObject id members =>
      rcases List.mem_cons.mp h with rfl | h
      · exact ⟨n, classObject id members, rfl⟩
      · exact exists_number_of_mem_nestedIn (n + 1) members h
  | typedefDecl _ name => exact ⟨n, typedefDecl n name, List.mem_singleton.mp h⟩
  | extensionDecl _ name => exact ⟨n, extensionDecl n name, List.mem_singleton.mp h⟩
  | functionDecl decl => exact ⟨n, functionDecl decl, List.mem_singleton.mp h⟩
  | propertyDecl decl => exact ⟨n, propertyDecl decl, List.mem_singleton.mp h⟩
  | constructorDecl decl => exact ⟨n, constructorDecl decl, List.mem_singleton.mp h⟩

theorem exists_number_of_mem_nestedIn
    (n : Nat) (ds : List Declaration) {d' : Declaration} (h : d' ∈ nestedIn (numberAll n ds)) :
    ∃ m d₀, d' = number m d₀ := by
  match ds with
  | [] => cases h
  | d :: rest =>
      rcases List.mem_append.mp h with h | h
      · exact exists_number_of_mem_nested n d h
      · exact exists_number_of_mem_nestedIn (n + d.nodeCount) rest h

end

/-- The bodies of a numbered declaration are numbered. -/
theorem exists_number_of_mem_ownBodies
    {n : Nat} {d : Declaration} {b : Body} (hb : b ∈ (d.number n).ownBodies) :
    ∃ m e, b.expr = Expr.number m e := by
  have hofExpr : ∀ {node role m} {e : Option Expr}, b ∈ Body.ofExpr node role (e.map (Expr.number m)) →
      ∃ m e, b.expr = Expr.number m e := by
    intro node role m e hb
    obtain ⟨e', -, heq⟩ := Option.map_eq_some_iff.mp (eq_of_mem_ofExpr hb).1
    exact ⟨m, e', heq.symm⟩
  have hofAccessor : ∀ {role m} {a : Option Accessor},
      b ∈ Body.ofAccessor role (a.map (Accessor.number m)) → ∃ m e, b.expr = Expr.number m e := by
    intro role m a hb
    obtain ⟨a', ha', hb⟩ := List.mem_flatMap.mp hb
    obtain ⟨a₀, -, rfl⟩ := Option.map_eq_some_iff.mp (Option.mem_toList.mp ha')
    exact hofExpr hb
  cases d with
  | functionDecl decl => exact hofExpr hb
  | constructorDecl decl => exact hofExpr hb
  | propertyDecl decl =>
      rcases List.mem_append.mp hb with hb | hb
      · rcases List.mem_append.mp hb with hb | hb
        · exact hofExpr hb
        · exact hofAccessor hb
      · exact hofAccessor hb
  | _ => cases hb

end Declaration

end DeclAnalysis

import Mathlib.Logic.Relation
import DeclAnalysis.Proofs.Resolve.Pass

/-!
# The passes step by step

The passes work through an agenda. One step collects a class or a namespace, resolves the
supertypes of a class, registers a declaration, or resolves a delegation list, a property or a
function; what it gives rise to comes next on the agenda. The analysis of a file is the run of
its agenda to the end, or to the first step that stops with a fault.
-/

namespace DeclAnalysis

open Relation (ReflTransGen)

/-- Something on the agenda of the passes. What a pass looks up in the tables beforehand is part
of it. -/
inductive Task where
  | collect (scope : Nat) (d : Declaration)
  | resolveClasses
  | resolveClass (scope : Except Fault Nat) (head : ClassHead) (descriptor : Nat)
  | register (scope : Nat) (d : Declaration)
  | finalizeClasses
  | resolveBodies
  | resolveDelegations (head : ClassHead) (descriptor : Nat)
  | resolveProperty (scope : Except Fault Nat) (decl : PropertyDecl) (property : Nat)
  | resolveFunction (f : FunctionLike) (descriptor : Nat)

namespace Pass

open Analysis

/-- The scope of the contents of a namespace declaration that has been collected. -/
def namespaceScope (head : NamespaceHead) : Pass Nat := do
  match (← tables).namespaceScopes[head.id]? with
  | none => throw (.at_ head.id .namespaceNotCollected)
  | some inner => return inner

end Pass

namespace Task

open Analysis Pass

variable (options : AnalysisOptions)

/-- The supertype lists of all classes in the tables. -/
def ofClasses (tables : Tables) : List Task :=
  tables.classes.toList.map fun entry =>
    .resolveClass (tables.declaringScope entry.1.id) entry.1 entry.2

/-- The delegation lists, properties and functions in the tables. -/
def ofBodies (tables : Tables) : List Task :=
  tables.classes.toList.map (fun entry => .resolveDelegations entry.1 entry.2)
    ++ (tables.properties.toList.map (fun entry =>
        .resolveProperty (tables.declaringScope entry.1.id) entry.1 entry.2)
      ++ tables.functions.toList.map fun entry => .resolveFunction entry.1 entry.2)

/-- Does one step and gives back what it gives rise to. -/
def run : Task → Pass (List Task)
  | .collect scope (.classDecl head members) =>
    (fun inner => members.map (.collect inner)) <$> collectClass scope head
  | .collect scope (.namespaceDecl head members) =>
    (fun inner => members.map (.collect inner)) <$> collectNamespace options scope head
  | .collect scope (.classObject _ members) => pure (members.map (.collect scope))
  | .collect _ (.typedefDecl id _) => throw (.notImplemented id .typedef)
  | .collect _ (.extensionDecl id _) => throw (.notImplemented id .extension)
  | .collect _ (.functionDecl _) | .collect _ (.propertyDecl _)
  | .collect _ (.constructorDecl _) => pure []
  | .resolveClasses => ofClasses <$> tables
  | .resolveClass scope head descriptor => (fun _ => []) <$> do
    let scope ← Pass.ofExcept scope
    Analysis.resolveClass scope head descriptor
  | .register _ (.classDecl head members) =>
    (fun inner => members.map (.register inner)) <$> registerClass head
  | .register _ (.namespaceDecl head members) =>
    (fun inner => members.map (.register inner)) <$> namespaceScope head
  | .register scope (.classObject id members) =>
    (fun _ => members.map (.register scope)) <$>
      (reportCode .unsupportedConstruct id "Class objects are not supported yet" : Pass Unit)
  | .register scope d@(.functionDecl _) | .register scope d@(.propertyDecl _)
  | .register scope d@(.constructorDecl _) | .register scope d@(.typedefDecl ..)
  | .register scope d@(.extensionDecl ..) => (fun _ => []) <$> Pass.register scope d
  | .finalizeClasses => (fun _ => []) <$> Pass.finalizeClasses
  | .resolveBodies => ofBodies <$> tables
  | .resolveDelegations head descriptor =>
    (fun _ => []) <$> (Analysis.resolveDelegations head descriptor : Pass Unit)
  | .resolveProperty scope decl property => (fun _ => []) <$> do
    let scope ← Pass.ofExcept scope
    Analysis.resolvePropertyBodies options scope decl property
  | .resolveFunction f descriptor =>
    (fun _ => []) <$> resolveFunctionLike options f descriptor

/-- The agenda of all passes over the declarations of a file. -/
def agenda (declarations : List Declaration) : List Task :=
  declarations.map (.collect toplevel)
    ++ (.resolveClasses :: (declarations.map (.register toplevel)
      ++ [.finalizeClasses, .resolveBodies]))

end Task

/-- How far an analysis has come: what is left on the agenda, the fault that has stopped it, if
any, and the state of the passes. -/
structure Config where
  tasks : List Task
  fault : Option Fault
  state : PassState

namespace Config

variable (options : AnalysisOptions)

/-- An analysis that has not yet begun. -/
def start (declarations : List Declaration) : Config :=
  ⟨Task.agenda declarations, none, Pass.initialState⟩

/-- The next step of an analysis. After a fault nothing is done any more. -/
inductive Step : Config → Config → Prop
  | next {task : Task} {rest more : List Task} {s s' : PassState}
      (h : (task.run options).run.run s = (.ok more, s')) :
      Step ⟨task :: rest, none, s⟩ ⟨more ++ rest, none, s'⟩
  | stop {task : Task} {rest : List Task} {fault : Fault} {s s' : PassState}
      (h : (task.run options).run.run s = (.error fault, s')) :
      Step ⟨task :: rest, none, s⟩ ⟨[], some fault, s'⟩

/-- The second configuration comes from the first one in some steps. -/
abbrev Reaches : Config → Config → Prop := ReflTransGen (Step options)

/-! ## Passes as tasks -/

/-- To do what the tasks say, whatever comes after them, is to run the pass. -/
def Performs (tasks : List Task) (x : Pass Unit) : Prop :=
  ∀ (rest : List Task) (s : PassState), AfterOr x s
    (fun _ s' => Reaches options ⟨tasks ++ rest, none, s⟩ ⟨rest, none, s'⟩)
    fun fault s' => Reaches options ⟨tasks ++ rest, none, s⟩ ⟨[], some fault, s'⟩

variable {options}

theorem performs_nil : Performs options [] (pure ()) :=
  fun _ _ => afterOr_pure.mpr .refl

theorem Performs.append
    {tasks tasks' : List Task} {x y : Pass Unit} (hx : Performs options tasks x)
    (hy : Performs options tasks' y) :
    Performs options (tasks ++ tasks') (x >>= fun _ => y) := by
  intro rest s
  rw [List.append_assoc]
  refine afterOr_bind.mpr (AfterOr.imp (hx (tasks' ++ rest) s) ?_)
  intro _ s₁ h₁
  exact AfterOr.mono (hy rest s₁) (fun _ _ h => h₁.trans h) fun _ _ h => h₁.trans h

/-- One task, and what it gives rise to. -/
theorem performs_task
    {α : Type} {task : Task} {x : Pass α} {f : α → List Task} {y : α → Pass Unit}
    (hrun : task.run options = f <$> x) (hy : ∀ a, Performs options (f a) (y a)) :
    Performs options [task] (x >>= y) := by
  intro rest s
  refine afterOr_bind.mpr ?_
  have hstep : ∀ result s', x.run.run s = (result, s') →
      (task.run options).run.run s = (result.map f, s') := by
    intro result s' h
    rw [hrun, map_eq_pure_bind, ExceptT.run_bind, StateT.run_bind, h]
    cases result with
    | ok a => rfl
    | error fault => rfl
  unfold AfterOr After
  rcases hresult : x.run.run s with ⟨fault | a, s₁⟩
  · exact .single (.stop (hstep _ s₁ hresult))
  · have h₁ : Reaches options ⟨[task] ++ rest, none, s⟩ ⟨f a ++ rest, none, s₁⟩ :=
      .single (.next (hstep _ s₁ hresult))
    exact AfterOr.mono (hy a rest s₁) (fun _ _ h => h₁.trans h) fun _ _ h => h₁.trans h

/-- A task that asks for nothing. -/
theorem performs_done {task : Task} (hrun : task.run options = pure []) :
    Performs options [task] (pure ()) := by
  intro rest s
  have hstep : (task.run options).run.run s = (.ok [], s) := by
    rw [hrun]
    rfl
  exact .single (.next hstep)

/-- A task that gives rise to no other. -/
theorem performs_last
    {task : Task} {x : Pass Unit} (hrun : task.run options = (fun _ => []) <$> x) :
    Performs options [task] x := by
  rw [← bind_pure_unit (x := x)]
  exact performs_task hrun fun _ => performs_nil

theorem performs_forM
    {ι : Type} {xs : List ι} {f : ι → Task} {y : ι → Pass Unit}
    (h : ∀ i, Performs options [f i] (y i)) : Performs options (xs.map f) (xs.forM y) := by
  induction xs with
  | nil => exact performs_nil
  | cons i xs ih => exact (h i).append ih

/-! ### Collecting and registering -/

mutual

theorem performs_collect (scope : Nat) (d : Declaration) :
    Performs options [.collect scope d] (Pass.collect options scope d) := by
  match d with
  | .classDecl head members =>
      rw [Pass.collect]
      exact performs_task rfl fun inner => performs_collectAll inner members
  | .namespaceDecl head members =>
      rw [Pass.collect]
      exact performs_task rfl fun inner => performs_collectAll inner members
  | .classObject id members =>
      rw [Pass.collect]
      have htask : Performs options [.collect scope (.classObject id members)]
          ((pure () : Pass Unit) >>= fun _ => Pass.collectAll options scope members) :=
        performs_task rfl fun _ => performs_collectAll scope members
      exact htask
  | .typedefDecl .. | .extensionDecl .. =>
      rw [Pass.collect]
      exact fun rest s => .single (.stop rfl)
  | .functionDecl _ | .propertyDecl _ | .constructorDecl _ =>
      rw [Pass.collect]
      exact performs_done rfl

theorem performs_collectAll (scope : Nat) (ds : List Declaration) :
    Performs options (ds.map (.collect scope)) (Pass.collectAll options scope ds) := by
  match ds with
  | [] =>
      rw [Pass.collectAll]
      exact performs_nil
  | d :: rest =>
      rw [Pass.collectAll]
      exact (performs_collect scope d).append (performs_collectAll scope rest)

end

mutual

theorem performs_register (scope : Nat) (d : Declaration) :
    Performs options [.register scope d] (Pass.register scope d) := by
  match d with
  | .classDecl head members =>
      rw [Pass.register]
      exact performs_task rfl fun inner => performs_registerAll inner members
  | .namespaceDecl head members =>
      have heq : Pass.register scope (.namespaceDecl head members) =
          Pass.namespaceScope head >>= fun inner => Pass.registerAll inner members := by
        rw [Pass.register, Pass.namespaceScope, bind_assoc]
        congr 1
        funext tables
        cases tables.namespaceScopes[head.id]? with
        | none => rfl
        | some inner => rfl
      rw [heq]
      exact performs_task rfl fun inner => performs_registerAll inner members
  | .classObject id members =>
      rw [Pass.register]
      exact performs_task rfl fun _ => performs_registerAll scope members
  | .functionDecl _ | .propertyDecl _ | .constructorDecl _ | .typedefDecl ..
  | .extensionDecl .. => exact performs_last rfl

theorem performs_registerAll (scope : Nat) (ds : List Declaration) :
    Performs options (ds.map (.register scope)) (Pass.registerAll scope ds) := by
  match ds with
  | [] =>
      rw [Pass.registerAll]
      exact performs_nil
  | d :: rest =>
      rw [Pass.registerAll]
      exact (performs_register scope d).append (performs_registerAll scope rest)

end

/-! ### All passes -/

theorem performs_resolveClasses : Performs options [.resolveClasses] Pass.resolveClasses :=
  performs_task rfl fun _ => performs_forM fun _ => performs_last rfl

theorem performs_resolveBodies :
    Performs options [.resolveBodies] (Pass.resolveBodies options) :=
  performs_task rfl fun _ => (performs_forM fun _ => performs_last rfl).append
    ((performs_forM fun _ => performs_last rfl).append (performs_forM fun _ => performs_last rfl))

theorem performs_allPasses (declarations : List Declaration) :
    Performs options (Task.agenda declarations) (Pass.allPasses options declarations) := by
  have hfinalize : Performs options [.finalizeClasses]
      (Pass.finalizeClasses >>= fun _ => pure ()) :=
    performs_task rfl fun _ => performs_nil
  have hlast := hfinalize.append performs_resolveBodies
  rw [bind_assoc] at hlast
  exact (performs_collectAll Pass.toplevel declarations).append
    (performs_resolveClasses.append
      ((performs_registerAll Pass.toplevel declarations).append hlast))

/-- The analysis of a file is the run of its agenda. -/
theorem exists_reaches_analyze (file : SourceFile) (options : AnalysisOptions) :
    ∃ c, Reaches options (start file.declarations) c ∧ c.tasks = [] ∧
      file.analyze options = ⟨c.fault, c.state.toSession⟩ := by
  have hperforms : Performs options _ _ := performs_allPasses file.declarations
  have hrun := hperforms [] Pass.initialState
  rw [List.append_nil] at hrun
  unfold AfterOr After at hrun
  unfold SourceFile.analyze
  rcases hresult : (Pass.allPasses options file.declarations).run.run Pass.initialState with
    ⟨fault | _, s⟩
  · rw [hresult] at hrun
    exact ⟨_, hrun, rfl, rfl⟩
  · rw [hresult] at hrun
    exact ⟨_, hrun, rfl, rfl⟩

end Config

end DeclAnalysis

import DeclAnalysis.Command.Check
import DeclAnalysis.Files.Memory
import DeclAnalysis.Proofs.Computation
import Mathlib.Data.List.Induction
import Mathlib.Order.RelClasses

/-!
# What severities decide

Settings give severities to codes, under any of the several names that a code has. The order in
which they are listed makes no difference exactly if no code is given two of them.

The severities of what is reported in turn decide whether a check fails: errors do so in any case,
warnings if they count as well and are not left out. Nothing else about the diagnostics matters, nor
does the form in which they are shown.
-/

namespace DeclAnalysis

/-! ## The order of severities -/

namespace SeverityOverrides

variable (overrides : SeverityOverrides) (code : DiagnosticCode) (default : Severity)

theorem severity_concat (severity : Severity) :
    (overrides ++ [(code, severity)]).severity code default = severity := by
  simp [SeverityOverrides.severity, List.foldl_append]

theorem severity_concat_of_ne {other : DiagnosticCode} (hne : other ≠ code) (severity : Severity) :
    (overrides ++ [(other, severity)]).severity code default =
      overrides.severity code default := by
  simp [SeverityOverrides.severity, List.foldl_append, hne]

/-- The severity for a code is one that it has been given, or else the default. -/
theorem severity_cases :
    (code, overrides.severity code default) ∈ overrides ∨
      overrides.severity code default = default ∧ ∀ severity, (code, severity) ∉ overrides := by
  induction overrides using List.reverseRecOn with
  | nil => exact .inr ⟨rfl, fun _ => List.not_mem_nil⟩
  | append_singleton overrides last ih =>
      obtain ⟨other, severity⟩ := last
      by_cases hcode : other = code
      · subst hcode
        rw [severity_concat]
        exact .inl (List.mem_append_right _ List.mem_cons_self)
      · rw [severity_concat_of_ne _ _ _ hcode]
        rcases ih with hmem | ⟨hdefault, hnone⟩
        · exact .inl (List.mem_append_left _ hmem)
        · refine .inr ⟨hdefault, ?_⟩
          intro severity' hmem
          rcases List.mem_append.mp hmem with hmem | hmem
          · exact hnone severity' hmem
          · exact hcode (congrArg Prod.fst (List.mem_singleton.mp hmem)).symm

end SeverityOverrides

namespace Settings

/-- The settings with severities in place of their own. -/
def withSeverity (s : Settings) (severity : List (String × Severity)) : Settings :=
  { s with severity := severity }

/-- A code is given a severity, under one of its names. -/
def Gives (s : Settings) (code : DiagnosticCode) (severity : Severity) : Prop :=
  ∃ key, (key, severity) ∈ s.severity ∧ DiagnosticCode.ofText? key = some code

/-- No code is given two severities. -/
def Consistent (s : Settings) : Prop :=
  ∀ code severity severity', s.Gives code severity → s.Gives code severity' → severity = severity'

variable {s : Settings} {code : DiagnosticCode} {severity : Severity}
  {entries : List (String × Severity)}

theorem mem_overrides : (code, severity) ∈ s.overrides ↔ s.Gives code severity := by
  unfold overrides Gives
  constructor
  · intro hmem
    obtain ⟨⟨key, given⟩, hentry, hpair⟩ := List.mem_filterMap.mp hmem
    obtain ⟨named, hkey, heq⟩ := Option.map_eq_some_iff.mp hpair
    obtain ⟨rfl, rfl⟩ := Prod.mk.inj heq
    exact ⟨key, hentry, hkey⟩
  · rintro ⟨key, hentry, hkey⟩
    refine List.mem_filterMap.mpr ⟨(key, severity), hentry, ?_⟩
    exact Option.map_eq_some_iff.mpr ⟨code, hkey, rfl⟩

instance : Decidable s.Consistent :=
  decidable_of_iff (∀ p ∈ s.overrides, ∀ q ∈ s.overrides, p.1 = q.1 → p.2 = q.2) (by
    constructor
    · intro h code severity severity' hgives hgives'
      exact h _ (mem_overrides.mpr hgives) _ (mem_overrides.mpr hgives') rfl
    · rintro h ⟨code, severity⟩ hp ⟨_, severity'⟩ hq rfl
      exact h code severity severity' (mem_overrides.mp hp) (mem_overrides.mp hq))

theorem gives_withSeverity_iff (hperm : entries.Perm s.severity) :
    (s.withSeverity entries).Gives code severity ↔ s.Gives code severity := by
  constructor
  · rintro ⟨key, hentry, hkey⟩
    exact ⟨key, hperm.mem_iff.mp hentry, hkey⟩
  · rintro ⟨key, hentry, hkey⟩
    exact ⟨key, hperm.mem_iff.mpr hentry, hkey⟩

/-- The severity that a code is given holds, unless it is given another one, too. -/
theorem Consistent.severity_overrides (hs : s.Consistent) (hgives : s.Gives code severity)
    (default : Severity) : s.overrides.severity code default = severity := by
  rcases s.overrides.severity_cases code default with hmem | ⟨-, hnone⟩
  · exact hs code _ _ (mem_overrides.mp hmem) hgives
  · exact absurd (mem_overrides.mpr hgives) (hnone severity)

theorem severity_overrides_of_forall_not_gives (hnone : ∀ severity, ¬ s.Gives code severity)
    (default : Severity) : s.overrides.severity code default = default := by
  rcases s.overrides.severity_cases code default with hmem | ⟨hdefault, -⟩
  · exact absurd (mem_overrides.mp hmem) (hnone _)
  · exact hdefault

theorem Consistent.withSeverity (hs : s.Consistent) (hperm : entries.Perm s.severity) :
    (s.withSeverity entries).Consistent := by
  intro code severity severity' h h'
  exact hs code severity severity' ((gives_withSeverity_iff hperm).mp h)
    ((gives_withSeverity_iff hperm).mp h')

theorem Consistent.severity_overrides_withSeverity (hs : s.Consistent)
    (hperm : entries.Perm s.severity) (code : DiagnosticCode) (default : Severity) :
    (s.withSeverity entries).overrides.severity code default =
      s.overrides.severity code default := by
  by_cases hgiven : ∃ severity, s.Gives code severity
  · obtain ⟨severity, hgives⟩ := hgiven
    have hgives' := (gives_withSeverity_iff hperm).mpr hgives
    rw [(hs.withSeverity hperm).severity_overrides hgives' default,
      hs.severity_overrides hgives default]
  · have hnone : ∀ severity, ¬ s.Gives code severity := fun severity h => hgiven ⟨severity, h⟩
    have hnone' : ∀ severity, ¬ (s.withSeverity entries).Gives code severity :=
      fun severity h => hnone severity ((gives_withSeverity_iff hperm).mp h)
    rw [severity_overrides_of_forall_not_gives hnone',
      severity_overrides_of_forall_not_gives hnone]

/-- A severity that a code is given holds if it is listed last. -/
theorem exists_perm_severity_overrides (hgives : s.Gives code severity) :
    ∃ entries, entries.Perm s.severity ∧
      ∀ default, (s.withSeverity entries).overrides.severity code default = severity := by
  obtain ⟨key, hentry, hkey⟩ := hgives
  refine ⟨s.severity.erase (key, severity) ++ [(key, severity)], ?_, ?_⟩
  · exact List.perm_append_comm.trans (List.perm_cons_erase hentry).symm
  · intro default
    let others := s.severity.erase (key, severity)
    have hlast : (s.withSeverity (others ++ [(key, severity)])).overrides =
        (s.withSeverity others).overrides ++ [(code, severity)] := by
      simp [overrides, Settings.withSeverity, hkey]
    rw [hlast, SeverityOverrides.severity_concat]

end Settings

/-- Only the severities for the codes matter to an engine. -/
theorem Engine.analyze_congr {options : AnalysisOptions} {overrides overrides' : SeverityOverrides}
    (h : ∀ code default, overrides.severity code default = overrides'.severity code default)
    (file : SourceFile) :
    Engine.analyze ⟨options, overrides⟩ file = Engine.analyze ⟨options, overrides'⟩ file := by
  have happly : overrides.apply = overrides'.apply := by
    funext d
    unfold SeverityOverrides.apply
    rw [h]
  unfold Engine.analyze
  simp only [happly]

/-- The severities that settings come down to are the same in whatever order they are listed exactly
if no code is given two of them; and in that case so is all that an engine reports of any file. -/
theorem Settings.severity_eq_of_perm_iff (s : Settings) :
    ((∀ entries, entries.Perm s.severity → ∀ code default,
        (s.withSeverity entries).overrides.severity code default =
          s.overrides.severity code default) ↔ s.Consistent) ∧
      (s.Consistent → ∀ entries, entries.Perm s.severity → ∀ file,
        (s.withSeverity entries).engine.analyze file = s.engine.analyze file) := by
  refine ⟨⟨?_, ?_⟩, ?_⟩
  · intro hall code severity severity' hgives hgives'
    obtain ⟨entries, hperm, hlast⟩ := exists_perm_severity_overrides hgives
    obtain ⟨entries', hperm', hlast'⟩ := exists_perm_severity_overrides hgives'
    calc severity = s.overrides.severity code severity := by
            rw [← hall entries hperm, hlast]
      _ = severity' := by rw [← hall entries' hperm', hlast']
  · intro hs entries hperm
    exact hs.severity_overrides_withSeverity hperm
  · intro hs entries hperm file
    exact Engine.analyze_congr (hs.severity_overrides_withSeverity hperm) file

/-- Settings for two codes, one under its id and one under its name. -/
def Settings.plain : Settings :=
  { severity := [("k002", .error), ("type-mismatch", .hint), ("K002", .error)] }

theorem Settings.analyze_plain_swapped (file : SourceFile) :
    (plain.withSeverity
        [("type-mismatch", .hint), ("k002", .error), ("K002", .error)]).engine.analyze file =
      plain.engine.analyze file := by
  obtain ⟨-, hreport⟩ := severity_eq_of_perm_iff plain
  exact hreport (by decide +kernel) _ (.swap ..) file

/-- A function that goes on after it has returned. -/
def SourceFile.goingOn : SourceFile :=
  ofDeclarations "going-on"
    [.functionDecl { name := "f", body := some (.block 0 [.ret 0 none, .constant 0 (.int 0)]) }]

set_option maxRecDepth 20000 in
/-- Where a code is given two severities, their order decides whether a file has errors. -/
theorem Settings.hasErrors_contradictory :
    [("K002", Severity.hint), ("unreachable-code", .error)].Perm
        [("unreachable-code", .error), ("K002", .hint)] ∧
      ((withSeverity {} [("K002", .hint), ("unreachable-code", .error)]).engine.analyze
        SourceFile.goingOn).hasErrors = true ∧
      ((withSeverity {} [("unreachable-code", .error), ("K002", .hint)]).engine.analyze
        SourceFile.goingOn).hasErrors = false := by
  refine ⟨.swap .., ?_, ?_⟩
  all_goals decide +kernel

/-! ## When a check fails -/

namespace Engine

variable {engine : Engine} {file : String} {content : Except String String} {severity : Severity}

/-- The analysis of a file, of which reading has given the content, does not come to an end. -/
inductive Stops (engine : Engine) (file : String) : Except String String → Prop where
  | unreadable (reason : String) : Stops engine file (.error reason)
  | noTree {text : String} {fault : TextFault} (h : SourceFile.ofText file text = .error fault) :
      Stops engine file (.ok text)
  | aborted {text : String} {source : SourceFile} {fault : Fault}
      (h : SourceFile.ofText file text = .ok source)
      (hfault : (engine.analyze source).fault = some fault) : Stops engine file (.ok text)

/-- Something of a severity is reported about a file, of which reading has given the content. -/
inductive Reports (engine : Engine) (severity : Severity) (file : String) :
    Except String String → Prop where
  | intro {text : String} {source : SourceFile} {d : FileDiagnostic}
      (h : SourceFile.ofText file text = .ok source) (hd : d ∈ (engine.analyze source).diagnostics)
      (hseverity : d.severity = severity) : Reports engine severity file (.ok text)

theorem isSome_failure_ofFile_iff :
    (CheckOutcome.ofFile engine file content).2.isSome ↔ engine.Stops file content := by
  cases content with
  | error reason => exact iff_of_true rfl (.unreadable reason)
  | ok text =>
      cases hsource : SourceFile.ofText file text with
      | error fault =>
          have hfailure : (CheckOutcome.ofFile engine file (.ok text)).2.isSome := by
            simp [CheckOutcome.ofFile, hsource]
          exact iff_of_true hfailure (.noTree hsource)
      | ok source =>
          have hfailure : (CheckOutcome.ofFile engine file (.ok text)).2.isSome =
              (engine.analyze source).fault.isSome := by
            simp [CheckOutcome.ofFile, hsource]
          rw [hfailure, Option.isSome_iff_exists]
          constructor
          · rintro ⟨fault, hfault⟩
            exact .aborted hsource hfault
          · intro hstops
            cases hstops with
            | noTree h => cases hsource.symm.trans h
            | aborted h hfault =>
                cases hsource.symm.trans h
                exact ⟨_, hfault⟩

theorem exists_diagnostic_ofFile_iff :
    (∃ d ∈ (CheckOutcome.ofFile engine file content).1, d.severity = severity) ↔
      engine.Reports severity file content := by
  constructor
  · rintro ⟨d, hd, hseverity⟩
    cases content with
    | error reason => cases hd
    | ok text =>
        cases hsource : SourceFile.ofText file text with
        | error fault => simp [CheckOutcome.ofFile, hsource] at hd
        | ok source =>
            have hreported : d ∈ (engine.analyze source).diagnostics := by
              simpa [CheckOutcome.ofFile, hsource] using hd
            exact .intro hsource hreported hseverity
  · rintro ⟨hsource, hd, hseverity⟩
    refine ⟨_, ?_, hseverity⟩
    simpa [CheckOutcome.ofFile, hsource] using hd

instance : Decidable (engine.Reports severity file content) :=
  decidable_of_iff _ exists_diagnostic_ofFile_iff

end Engine

namespace CheckOutcome

variable {engine : Engine} {least severity : Severity}
  {files : List (String × Except String String)}

theorem fails_iff (o : CheckOutcome) (failOnWarnings : Bool) :
    o.fails failOnWarnings ↔
      o.failures ≠ [] ∨ (∃ d ∈ o.diagnostics, d.severity = .error) ∨
        failOnWarnings ∧ ∃ d ∈ o.diagnostics, d.severity = .warning := by
  have hcount (severity : Severity) :
      0 < o.count severity ↔ ∃ d ∈ o.diagnostics, d.severity = severity := by
    simp [count, List.countP_pos_iff]
  have herrors : 0 < o.errorCount ↔ o.failures ≠ [] ∨ 0 < o.count .error := by
    rw [← List.length_pos_iff, errorCount]
    omega
  simp only [fails, Bool.or_eq_true, Bool.and_eq_true, decide_eq_true_eq, herrors, hcount, or_assoc]

theorem failures_ofFiles_ne_nil_iff :
    (ofFiles engine least files).failures ≠ [] ↔
      ∃ entry ∈ files, engine.Stops entry.1 entry.2 := by
  have hfailures : (ofFiles engine least files).failures =
      files.filterMap fun entry => (ofFile engine entry.1 entry.2).2 :=
    List.filterMap_map
  simp only [hfailures, ← Engine.isSome_failure_ofFile_iff, ne_eq, List.filterMap_eq_nil_iff,
    not_forall, ← Option.isSome_iff_ne_none, exists_prop]

/-- Of what is reported about files, whatever is grave enough is kept. -/
theorem exists_diagnostic_ofFiles_iff :
    (∃ d ∈ (ofFiles engine least files).diagnostics, d.severity = severity) ↔
      least.rank ≤ severity.rank ∧
        ∃ entry ∈ files, engine.Reports severity entry.1 entry.2 := by
  have hkept (d : FileDiagnostic) : d ∈ (ofFiles engine least files).diagnostics ↔
      ∃ entry ∈ files, d ∈ (ofFile engine entry.1 entry.2).1 ∧ least.rank ≤ d.severity.rank := by
    simp only [ofFiles, List.flatMap_map, List.mem_flatMap, List.mem_filter, decide_eq_true_eq]
  constructor
  · rintro ⟨d, hd, rfl⟩
    obtain ⟨entry, hentry, hreported, hrank⟩ := (hkept d).mp hd
    exact ⟨hrank, entry, hentry, Engine.exists_diagnostic_ofFile_iff.mp ⟨d, hreported, rfl⟩⟩
  · rintro ⟨hrank, entry, hentry, hreports⟩
    obtain ⟨d, hd, rfl⟩ := Engine.exists_diagnostic_ofFile_iff.mpr hreports
    exact ⟨d, (hkept d).mpr ⟨entry, hentry, hd, hrank⟩, rfl⟩

/-- What is left out decides nothing, unless warnings count and only errors are kept. -/
theorem fails_ofFiles_iff (failOnWarnings : Bool) :
    (ofFiles engine least files).fails failOnWarnings ↔
      (∃ entry ∈ files, engine.Stops entry.1 entry.2) ∨
      (∃ entry ∈ files, engine.Reports .error entry.1 entry.2) ∨
      failOnWarnings ∧ least ≠ .error ∧
        ∃ entry ∈ files, engine.Reports .warning entry.1 entry.2 := by
  have herror : least.rank ≤ Severity.error.rank := by cases least <;> decide
  have hwarning : least.rank ≤ Severity.warning.rank ↔ least ≠ .error := by cases least <;> decide
  rw [fails_iff, failures_ofFiles_ne_nil_iff, exists_diagnostic_ofFiles_iff,
    exists_diagnostic_ofFiles_iff, and_iff_right herror, hwarning]

end CheckOutcome

section Access

variable {σ : Type} {files : Files (StateM σ)}

/-- Looking at the files changes nothing. -/
structure Files.Steady (files : Files (StateM σ)) : Prop where
  kind? : ∀ path, Keeps Eq (files.kind? path)
  read : ∀ path, Keeps Eq (files.read path)
  listing : ∀ path, Keeps Eq (files.listing path)
  workingDirectory : Keeps Eq files.workingDirectory

theorem Memory.steady_files : Memory.files.Steady where
  kind? _ := Keeps.get_bind fun _ => Keeps.pure _
  read _ := Keeps.get_bind fun _ => Keeps.pure _
  listing _ := Keeps.get_bind fun _ => Keeps.pure _
  workingDirectory := Keeps.get_bind fun _ => Keeps.pure _

namespace Settings

theorem keeps_firstExisting? (hfiles : files.Steady) (paths : List String) :
    Keeps Eq (firstExisting? files paths) := by
  induction paths with
  | nil => exact Keeps.pure none
  | cons path rest ih =>
      refine (hfiles.kind? path).bind fun kind => ?_
      cases kind with
      | none => exact ih
      | some kind => exact Keeps.pure _

theorem keeps_loadOrDefault (hfiles : files.Steady) (start : String) :
    Keeps Eq (loadOrDefault files start) := by
  refine (keeps_firstExisting? hfiles _).bind fun found => ?_
  cases found with
  | none => exact Keeps.pure _
  | some path =>
      refine Keeps.bind ?_ fun loaded => ?_
      · refine (hfiles.read path).bind fun content => ?_
        cases content with
        | error reason => exact Keeps.pure _
        | ok text => exact Keeps.pure _
      · cases loaded with
        | error fault => exact Keeps.pure _
        | ok loaded => exact Keeps.pure _

end Settings

theorem Discovery.keeps_find? (hfiles : files.Steady) (exclude : List String) (path : String) :
    Keeps Eq (find? files exclude path) := by
  refine (hfiles.kind? path).bind fun kind => ?_
  cases kind with
  | none => exact Keeps.pure _
  | some kind =>
      cases kind with
      | file => exact Keeps.pure _
      | directory => exact (hfiles.listing path).bind fun _ => Keeps.pure _

/-- Files that are read one after the other have the contents that each has on its own. -/
theorem Files.Steady.after_mapM_read (hfiles : files.Steady) (paths : List String) (s : σ) :
    After (paths.mapM fun path => do return (path, ← files.read path)) s fun contents s' =>
      s = s' ∧ contents = paths.map fun path => (path, ((files.read path).run s).1) := by
  induction paths with
  | nil => exact ⟨rfl, rfl⟩
  | cons path rest ih =>
      rw [List.mapM_cons]
      have hfirst : After (do return (path, ← files.read path)) s fun entry s' =>
          s = s' ∧ entry = (path, ((files.read path).run s).1) :=
        ⟨(hfiles.read path).after s, rfl⟩
      refine hfirst.bind ?_
      rintro _ _ ⟨rfl, rfl⟩
      refine ih.bind ?_
      rintro _ _ ⟨rfl, rfl⟩
      exact ⟨rfl, rfl⟩

theorem CheckRequest.status_respond_ne_zero_iff (r : CheckRequest) {styled : Bool}
    {workingDirectory : String} {settings : Settings} {least : Severity}
    {contents : List (String × Except String String)} (hne : contents ≠ []) :
    (r.respond styled workingDirectory settings least contents).status ≠ 0 ↔
      (CheckOutcome.ofFiles settings.engine least contents).fails r.failOnWarnings := by
  have hsome : contents.isEmpty = false := by simpa using hne
  simp [respond, hsome]

/-- A check of several files fails exactly if one of them is not analysed to its end, if an error is
reported, or if a warning is reported where warnings count and more than errors are shown. The
severities are those that the settings make of them, and the form of the output plays no part. -/
theorem CheckRequest.status_run_iff (hfiles : files.Steady) {r : CheckRequest}
    {wish : Terminal.StyleWish} {s : σ} {loaded : Settings.Loaded} {paths : List String}
    {least : Severity}
    (hloaded : ((Settings.loadOrDefault files r.path).run s).1 = loaded)
    (hpaths : ((Discovery.find? files loaded.settings.exclude r.path).run s).1 = some paths)
    (hne : paths ≠ []) (hleast : r.least? = some least) :
    ((r.run files wish).run s).1.status ≠ 0 ↔
      (∃ path ∈ paths, loaded.settings.engine.Stops path ((files.read path).run s).1) ∨
      (∃ path ∈ paths, loaded.settings.engine.Reports .error path ((files.read path).run s).1) ∨
      r.failOnWarnings ∧ least ≠ .error ∧
        ∃ path ∈ paths,
          loaded.settings.engine.Reports .warning path ((files.read path).run s).1 := by
  change After (r.run files wish) s fun response _ => response.status ≠ 0 ↔ _
  have hload : After (Settings.loadOrDefault files r.path) s fun a s' => s = s' ∧ a = loaded :=
    ⟨(Settings.keeps_loadOrDefault hfiles r.path).after s, hloaded⟩
  refine hload.bind ?_
  rintro loaded _ ⟨rfl, rfl⟩
  have hfind : After (Discovery.find? files loaded.settings.exclude r.path) s fun a s' =>
      s = s' ∧ a = some paths :=
    ⟨(Discovery.keeps_find? hfiles _ _).after s, hpaths⟩
  refine hfind.bind ?_
  rintro _ _ ⟨rfl, rfl⟩
  rw [hleast]
  refine (hfiles.after_mapM_read paths s).bind ?_
  rintro _ _ ⟨rfl, rfl⟩
  have hcontents : paths.map (fun path => (path, ((files.read path).run s).1)) ≠ [] := by
    simpa using hne
  have hdirectory : After files.workingDirectory s fun _ _ => True := True.intro
  refine hdirectory.bind fun directory s' _ => ?_
  refine (r.status_respond_ne_zero_iff hcontents).trans ?_
  rw [CheckOutcome.fails_ofFiles_iff]
  simp only [List.mem_map, exists_exists_and_eq_and]

end Access

namespace CheckRequest

/-- A function that goes on after it has returned, in a file of its own. -/
def goingOnMemory : Memory :=
  { tree := .directory [("going-on.keel.json", .file <| some <|
      "\x7b\"declarations\": [\x7b\"kind\": \"function\", \"name\": \"f\", \"body\": "
        ++ "\x7b\"kind\": \"block\", \"statements\": [\x7b\"kind\": \"return\"\x7d, "
        ++ "\x7b\"kind\": \"break\"\x7d]\x7d\x7d]\x7d")] }

/-- The check of that file, in which warnings count. -/
def goingOnRequest (severity : Option String) : CheckRequest :=
  { path := "going-on.keel.json", failOnWarnings := true, severity := severity }

set_option maxRecDepth 20000 in
theorem status_run_goingOn :
    (goingOnRequest none).least? = some .hint ∧
      (((goingOnRequest none).run Memory.files ⟨false, false, true⟩).run goingOnMemory).1.status
        ≠ 0 := by
  have hleast : (goingOnRequest none).least? = some .hint := rfl
  have hloaded : ((Settings.loadOrDefault Memory.files (goingOnRequest none).path).run
      goingOnMemory).1 = {} := by decide +kernel
  have hpaths : ((Discovery.find? Memory.files ({} : Settings.Loaded).settings.exclude
      (goingOnRequest none).path).run goingOnMemory).1 = some ["going-on.keel.json"] := by
    decide +kernel
  have hreports : ({} : Settings.Loaded).settings.engine.Reports .warning "going-on.keel.json"
      ((Memory.files.read "going-on.keel.json").run goingOnMemory).1 := by decide +kernel
  refine ⟨hleast, (status_run_iff Memory.steady_files hloaded hpaths (by decide) hleast).mpr ?_⟩
  exact .inr (.inr ⟨rfl, by decide, "going-on.keel.json", List.mem_cons_self, hreports⟩)

set_option maxRecDepth 20000 in
/-- If only errors are shown, a warning does not make the check fail although warnings count. -/
theorem status_run_goingOn_error :
    (goingOnRequest (some "error")).failOnWarnings = true ∧
      ({} : Settings).engine.Reports .warning "going-on.keel.json"
        (goingOnMemory.read "going-on.keel.json") ∧
      (((goingOnRequest (some "error")).run Memory.files ⟨false, false, true⟩).run
        goingOnMemory).1.status = 0 := by
  refine ⟨rfl, ?_, ?_⟩
  all_goals decide +kernel

end CheckRequest

end DeclAnalysis

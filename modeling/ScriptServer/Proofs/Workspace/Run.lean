import ScriptServer.Proofs.Library.Changes
import ScriptServer.Proofs.Server.Modules

namespace ScriptServer

/-!
# Runs of a workspace

Between two operations anything may happen to the files on disk, so every operation comes with the
disk it finds.

* `Workspace.Operation` — what can be done with a workspace.
* `Workspace.run` — what a row of operations does.
* `Workspace.perform_cases` — what an operation can do to the settings and the modules.
* `Workspace.entries_absolute` — whatever was done, all modules have absolute paths, and therefore
  identifiers.
-/

namespace Library

/-! ### Modules have absolute paths -/

section Absolute

variable {disk : Disk} {layout : Layout} {root directory : Path} {place : Place} {entry : Entry}

theorem isAbsolute_of_mem_walkFrom (hdirectory : directory.isAbsolute = true)
    (h : entry ∈ (walkFrom disk layout root directory place).entries) :
    entry.path.isAbsolute = true := by
  obtain ⟨row, hentry⟩ := exists_of_mem_walkFrom h
  obtain ⟨name, -, hpath⟩ := exists_of_mem_entriesIn hentry
  rw [hpath]
  exact Path.isAbsolute_child (Path.isAbsolute_descend hdirectory row) name

end Absolute

namespace Index

variable {index : Index} {disk : Disk} {layout : Layout} {root directory : Path} {scanned : Scanned}

/-- Whether all modules of an index have absolute paths. -/
def Absolute (index : Index) : Prop := ∀ entry ∈ index.entries, entry.path.isAbsolute = true

theorem absolute_scan (h : index.scan disk layout root = .ok scanned) :
    scanned.index.Absolute := by
  obtain ⟨place, hplace, hindex⟩ := exists_of_scan h
  have hroot := (Disk.find_eq_directory_iff.mp hplace).2.2.1
  intro entry hentry
  rw [hindex] at hentry
  exact isAbsolute_of_mem_walkFrom hroot (mem_of_mem_build hentry)

theorem absolute_discover {known : List Path} {entry : Entry}
    (h : entry ∈ (discover disk layout root known directory).1) : entry.path.isAbsolute = true := by
  unfold discover at h
  split at h
  · rename_i place hplace
    have hdirectory := (Disk.find_eq_directory_iff.mp hplace).2.2.1
    rcases List.mem_append.mp h with hentry | hentry
    · obtain ⟨name, -, hpath⟩ := exists_of_mem_entriesIn hentry
      rw [hpath]
      exact Path.isAbsolute_child hdirectory name
    · obtain ⟨walk, hwalk, hentry⟩ := List.mem_flatMap.mp hentry
      obtain ⟨name, -, rfl⟩ := List.mem_map.mp hwalk
      exact isAbsolute_of_mem_walkFrom (Path.isAbsolute_child hdirectory name) hentry
  · exact absurd h List.not_mem_nil

theorem absolute_rescan (h : index.Absolute) :
    (index.rescan disk layout directory).index.Absolute := by
  unfold rescan
  split
  · exact h
  · split
    · intro entry hentry
      rw [index_relist] at hentry
      rcases List.mem_append.mp (mem_of_mem_build hentry) with hkept | hfound
      · exact h entry (List.mem_filter.mp hkept).1
      · exact absolute_discover hfound
    · exact h

end Index

end Library

open Library

namespace Workspace

/-- What can be done with a workspace. -/
inductive Operation where
  | openDocument (uri : Uri) (text : String)
  | changeDocument (uri : Uri) (text : String)
  | closeDocument (uri : Uri)
  | configure (settings : Settings)
  | indexFile (path : Path)
  | scan (root : Path)
  | rescan (directory : Path)

/-- What an operation does.  A scan that fails changes nothing. -/
def perform (workspace : Workspace) (disk : Disk) : Operation → Workspace
  | .openDocument uri text => workspace.openDocument uri text
  | .changeDocument uri text => workspace.changeDocument uri text
  | .closeDocument uri => workspace.closeDocument disk uri
  | .configure settings => (workspace.configure settings).1
  | .indexFile path => workspace.tryIndexFile disk path
  | .scan root =>
    match workspace.scan disk root with
    | .ok (after, _) => after
    | .error _ => workspace
  | .rescan directory => (workspace.rescan disk directory).1

/-- What a row of operations does, each with the disk as it is then. -/
def run (workspace : Workspace) (steps : List (Disk × Operation)) : Workspace :=
  steps.foldl (fun workspace step => workspace.perform step.1 step.2) workspace

theorem exists_of_scan {workspace after : Workspace} {disk : Disk} {root : Path}
    {watch : List Path} (h : workspace.scan disk root = .ok (after, watch)) :
    ∃ scanned, workspace.index.scan disk workspace.settings.layout root = .ok scanned
      ∧ after = workspace.adopt disk scanned := by
  unfold scan at h
  cases hscan : workspace.index.scan disk workspace.settings.layout root with
  | error => rw [hscan] at h; cases h
  | ok scanned =>
    rw [hscan] at h
    cases h
    exact ⟨scanned, rfl, rfl⟩

/-- **What an operation can do** to the settings and the modules: nothing, or one of three things. -/
theorem perform_cases (workspace : Workspace) (disk : Disk) (operation : Operation) :
    KeepsModules workspace (workspace.perform disk operation)
      ∨ (∃ settings, operation = .configure settings
        ∧ (workspace.perform disk operation).index = workspace.index)
      ∨ (∃ root scanned, workspace.index.scan disk workspace.settings.layout root = .ok scanned
        ∧ workspace.perform disk operation = workspace.adopt disk scanned)
      ∨ ∃ directory, workspace.perform disk operation
        = workspace.adopt disk
          (workspace.index.rescan disk workspace.settings.layout directory) := by
  cases operation with
  | openDocument uri text => exact .inl ⟨rfl, rfl⟩
  | changeDocument uri text => exact .inl ⟨rfl, rfl⟩
  | closeDocument uri => exact .inl (keepsModules_closeDocument workspace disk uri)
  | configure settings => exact .inr (.inl ⟨settings, rfl, rfl⟩)
  | indexFile path =>
    refine .inl ?_
    show KeepsModules workspace (workspace.tryIndexFile disk path)
    unfold tryIndexFile
    split
    next after hindex => exact keepsModules_indexFile hindex
    next => exact .refl workspace
  | scan root =>
    simp only [perform]
    split
    next after watch hscan =>
      obtain ⟨scanned, hscanned, rfl⟩ := exists_of_scan hscan
      exact .inr (.inr (.inl ⟨root, scanned, hscanned, rfl⟩))
    next => exact .inl (.refl workspace)
  | rescan directory => exact .inr (.inr (.inr ⟨directory, rfl⟩))

/-- Only a scan that succeeds and a rescan change the modules. -/
theorem index_perform (workspace : Workspace) (disk : Disk) (operation : Operation) :
    (workspace.perform disk operation).index = workspace.index
      ∨ (∃ root scanned, workspace.index.scan disk workspace.settings.layout root = .ok scanned
        ∧ (workspace.perform disk operation).index = scanned.index)
      ∨ ∃ directory, (workspace.perform disk operation).index
        = (workspace.index.rescan disk workspace.settings.layout directory).index := by
  rcases perform_cases workspace disk operation with
    hkeeps | ⟨settings, -, hindex⟩ | ⟨root, scanned, hscanned, heq⟩ | ⟨directory, heq⟩
  · exact .inl hkeeps.index
  · exact .inl hindex
  · exact .inr (.inl ⟨root, scanned, hscanned, by rw [heq, (adopt_frame workspace disk scanned).2]⟩)
  · exact .inr (.inr ⟨directory, by rw [heq, (adopt_frame workspace disk _).2]⟩)

/-- Only new settings change the settings. -/
theorem settings_perform (workspace : Workspace) (disk : Disk) {operation : Operation}
    (h : ∀ settings, operation ≠ .configure settings) :
    (workspace.perform disk operation).settings = workspace.settings := by
  rcases perform_cases workspace disk operation with
    hkeeps | ⟨settings, hconfigure, -⟩ | ⟨root, scanned, -, heq⟩ | ⟨directory, heq⟩
  · exact hkeeps.settings
  · exact absurd hconfigure (h settings)
  · rw [heq, (adopt_frame workspace disk scanned).1]
  · rw [heq, (adopt_frame workspace disk _).1]

/-- What every operation of a row keeps, the whole row keeps. -/
theorem run_keeps (kept : Workspace → Prop) {steps : List (Disk × Operation)}
    (hstep : ∀ workspace, ∀ step ∈ steps, kept workspace → kept (workspace.perform step.1 step.2))
    {workspace : Workspace} (h : kept workspace) : kept (workspace.run steps) := by
  induction steps generalizing workspace with
  | nil => exact h
  | cons step steps ih =>
    have hsteps := fun workspace => List.forall_mem_cons.mp (hstep workspace)
    exact ih (fun workspace => (hsteps workspace).2) ((hsteps workspace).1 h)

/-- Every operation keeps the paths of the modules absolute. -/
theorem absolute_perform {workspace : Workspace} (disk : Disk) (operation : Operation)
    (h : workspace.index.Absolute) : (workspace.perform disk operation).index.Absolute := by
  rcases index_perform workspace disk operation with
    heq | ⟨root, scanned, hscanned, heq⟩ | ⟨directory, heq⟩
  · rw [heq]
    exact h
  · rw [heq]
    exact Index.absolute_scan hscanned
  · rw [heq]
    exact Index.absolute_rescan h

/-- Whatever was done, all modules have absolute paths. -/
theorem entries_absolute (settings : Settings) (steps : List (Disk × Operation)) :
    ((ofSettings settings).run steps).index.Absolute := by
  refine run_keeps (fun workspace => workspace.index.Absolute) ?_ ?_
  · exact fun workspace step _ => absolute_perform step.1 step.2
  · exact fun entry hentry => absurd hentry List.not_mem_nil

end Workspace

end ScriptServer

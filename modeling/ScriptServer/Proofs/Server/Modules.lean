import ScriptServer.Proofs.Library.Refinement
import ScriptServer.Proofs.Server.Documents

namespace ScriptServer

/-!
# When modules are looked for

Modules are looked for when the editor is ready, and again when settings that matter for them
change.

* `Workspace.KeepsModules` — a change of the workspace that leaves settings and modules alone.
  Everything that is about documents is of this kind.
* `Server.findsModules` — the module root in force is a directory.
* `Server.indexModules_of_finds`, `Server.indexModules_of_not_finds` — what a search does.
* `Server.configure_accepted`, `Server.configure_refused` — what new settings do.
* `Server.reconfigured_root_indexed` — a module root that settings name is indexed, once a first
  search has found something.
* `Server.root_unindexed_after_failed_start` — and it is not, as long as none has.
-/

open Library

namespace Workspace

/-! ### Changes that leave modules alone -/

/-- From one workspace to another the settings and the index of modules stay the same. -/
structure KeepsModules (before after : Workspace) : Prop where
  settings : after.settings = before.settings
  index : after.index = before.index

theorem KeepsModules.refl (workspace : Workspace) : KeepsModules workspace workspace := ⟨rfl, rfl⟩

theorem KeepsModules.trans {a b c : Workspace} (hab : KeepsModules a b) (hbc : KeepsModules b c) :
    KeepsModules a c :=
  ⟨hbc.settings.trans hab.settings, hbc.index.trans hab.index⟩

theorem keepsModules_indexFile {workspace after : Workspace} {disk : Disk} {path : Path}
    (h : workspace.indexFile disk path = .ok after) : KeepsModules workspace after := by
  unfold indexFile at h
  split at h
  · cases h
  · split at h
    · cases h
      exact .refl workspace
    · split at h
      · cases h
      · cases h
        exact ⟨rfl, rfl⟩

theorem keepsModules_applyChange (disk : Disk) (workspace : Workspace) (change : Change) :
    KeepsModules workspace (applyChange disk workspace change) := by
  have htry : ∀ path, KeepsModules workspace (workspace.tryIndexFile disk path) := by
    intro path
    unfold tryIndexFile
    split
    next after h => exact keepsModules_indexFile h
    next => exact .refl workspace
  cases change with
  | added entry => exact htry entry.path
  | changed entry => exact htry entry.path
  | removed entry =>
    show KeepsModules workspace (workspace.forgetFile entry)
    unfold forgetFile
    split
    · split
      · exact .refl workspace
      · exact ⟨rfl, rfl⟩
    · exact .refl workspace

theorem keepsModules_applyChanges (workspace : Workspace) (disk : Disk) (changes : List Change) :
    KeepsModules workspace (workspace.applyChanges disk changes) := by
  unfold applyChanges
  induction changes generalizing workspace with
  | nil => exact .refl workspace
  | cons change rest ih => exact (keepsModules_applyChange disk workspace change).trans (ih _)

theorem keepsModules_closeDocument (workspace : Workspace) (disk : Disk) (uri : Uri) :
    KeepsModules workspace (workspace.closeDocument disk uri) := by
  have hclosed : KeepsModules workspace
      { workspace with opened := workspace.opened.filter (· ≠ uri) } := ⟨rfl, rfl⟩
  unfold closeDocument
  dsimp only
  split
  · split
    next after h => exact hclosed.trans (keepsModules_indexFile h)
    next => exact ⟨rfl, rfl⟩
  · exact ⟨rfl, rfl⟩

theorem keepsModules_complete (workspace : Workspace) (connection : Connection) (uri : Uri)
    (text : String) (point : Position) :
    KeepsModules workspace (workspace.complete connection uri text point).1 := by
  unfold complete
  split
  · exact .refl workspace
  · split
    · exact .refl workspace
    · exact .refl workspace
    · rename_i clause _
      show KeepsModules workspace (workspace.clauseCandidates connection clause).1
      unfold clauseCandidates
      split
      · exact .refl workspace
      · exact ⟨rfl, rfl⟩

theorem keepsModules_changeDocuments (workspace : Workspace) (entries : List (Uri × String)) :
    KeepsModules workspace (entries.foldl
      (fun workspace entry => workspace.changeDocument entry.1 entry.2) workspace) := by
  induction entries generalizing workspace with
  | nil => exact .refl workspace
  | cons entry rest ih =>
    have hchange : KeepsModules workspace (workspace.changeDocument entry.1 entry.2) := ⟨rfl, rfl⟩
    exact hchange.trans (ih _)

/-! ### Scans -/

/-- What a scan has found replaces the index and leaves the settings alone. -/
theorem adopt_frame (workspace : Workspace) (disk : Disk) (scanned : Scanned) :
    (workspace.adopt disk scanned).settings = workspace.settings
      ∧ (workspace.adopt disk scanned).index = scanned.index := by
  have hkeeps := keepsModules_applyChanges { workspace with index := scanned.index } disk
    scanned.changes
  exact ⟨hkeeps.settings, hkeeps.index⟩

/-- A scan of a directory succeeds, and the index is what lies below it. -/
theorem scan_of_find (workspace : Workspace) {disk : Disk} {path : Path} {place : Place}
    (h : disk.find path = .directory place) :
    ∃ after watch, workspace.scan disk path = .ok (after, watch)
      ∧ after.settings = workspace.settings
      ∧ after.index = .ofDisk disk workspace.settings.layout path place := by
  generalize hlayout : workspace.settings.layout = layout
  obtain ⟨scanned, hscan, hindex⟩ : ∃ scanned, workspace.index.scan disk layout path = .ok scanned
      ∧ scanned.index = .ofDisk disk layout path place :=
    ⟨_, Index.scan_of_find workspace.index h, rfl⟩
  obtain ⟨hsettings, hadopted⟩ := workspace.adopt_frame disk scanned
  refine ⟨workspace.adopt disk scanned, scanned.watch, ?_, hsettings, hadopted.trans hindex⟩
  unfold scan
  rw [hlayout, hscan]
  rfl

/-- A scan of anything else fails. -/
theorem scan_of_not_hasDirectory (workspace : Workspace) {disk : Disk} {path : Path}
    (h : disk.hasDirectory path = false) : ∃ error, workspace.scan disk path = .error error := by
  unfold scan
  cases hscan : workspace.index.scan disk workspace.settings.layout path with
  | error error => exact ⟨error, rfl⟩
  | ok scanned =>
    obtain ⟨place, hplace, -⟩ := Index.exists_of_scan hscan
    rw [Disk.hasDirectory_iff.mpr ⟨place, hplace⟩] at h
    cases h

end Workspace

namespace Server

/-! ### Searches -/

/-- Whether the module root in force is a directory. -/
def findsModules (server : Server) (disk : Disk) : Bool :=
  server.moduleRoot?.any disk.hasDirectory

/-- The module root follows from the root of the workspace and the settings. -/
theorem moduleRoot?_congr {before after : Server} (hroot : after.root = before.root)
    (hsettings : after.workspace.settings = before.workspace.settings) :
    after.moduleRoot? = before.moduleRoot? := by
  unfold moduleRoot?
  rw [hroot, hsettings]

/-- A search that finds its root a directory: the index is what lies below it, and the findings in
    all open documents are published. -/
theorem indexModules_of_finds {server : Server} {disk : Disk} {path : Path} {place : Place}
    (hroot : server.moduleRoot? = some path) (hfind : disk.find path = .directory place) :
    ∃ workspace text,
      server.indexModules disk
          = ({ server with workspace },
            .log .info text :: { server with workspace }.publishAll)
        ∧ workspace.settings = server.workspace.settings
        ∧ workspace.index = .ofDisk disk server.workspace.settings.layout path place := by
  obtain ⟨workspace, watch, hscan, hsettings, hindex⟩ := server.workspace.scan_of_find hfind
  refine ⟨workspace, "Indexed " ++ workspace.index.entries.length.repr ++ " modules under "
    ++ path.text, ?_, hsettings, hindex⟩
  simp only [indexModules, hroot, hscan]

/-- A search without a root that is a directory changes nothing and publishes nothing. -/
theorem indexModules_of_not_finds {server : Server} {disk : Disk}
    (h : server.findsModules disk = false) :
    server.indexModules disk = (server, [])
      ∨ ∃ text, server.indexModules disk = (server, [.log .warning text]) := by
  unfold findsModules at h
  cases hroot : server.moduleRoot? with
  | none =>
    left
    simp only [indexModules, hroot]
  | some path =>
    rw [hroot, Option.any_some] at h
    obtain ⟨error, hscan⟩ := server.workspace.scan_of_not_hasDirectory h
    refine .inr ⟨"Module scan failed: " ++ error.message, ?_⟩
    simp only [indexModules, hroot, hscan]

/-- The root and its place on disk, when a search finds it a directory. -/
theorem exists_of_findsModules {server : Server} {disk : Disk}
    (h : server.findsModules disk = true) :
    ∃ path place, server.moduleRoot? = some path ∧ disk.find path = .directory place := by
  unfold findsModules at h
  cases hroot : server.moduleRoot? with
  | none =>
    rw [hroot] at h
    cases h
  | some path =>
    rw [hroot, Option.any_some] at h
    obtain ⟨place, hplace⟩ := Disk.hasDirectory_iff.mp h
    exact ⟨path, place, rfl, hplace⟩

/-- A search changes nothing but the modules. -/
theorem indexModules_frame (server : Server) (disk : Disk) :
    (server.indexModules disk).1.root = server.root
      ∧ (server.indexModules disk).1.documents = server.documents
      ∧ (server.indexModules disk).1.workspace.settings = server.workspace.settings := by
  cases hfinds : server.findsModules disk with
  | false =>
    rcases indexModules_of_not_finds hfinds with heq | ⟨text, heq⟩ <;> rw [heq] <;>
      exact ⟨rfl, rfl, rfl⟩
  | true =>
    obtain ⟨path, place, hroot, hplace⟩ := exists_of_findsModules hfinds
    obtain ⟨workspace, text, heq, hsettings, -⟩ := indexModules_of_finds hroot hplace
    rw [heq]
    exact ⟨rfl, rfl, hsettings⟩

/-- A search that succeeds leaves an index behind, one that fails leaves the old one. -/
theorem isReady_indexModules (server : Server) (disk : Disk) :
    (server.indexModules disk).1.workspace.index.isReady
      = (server.findsModules disk || server.workspace.index.isReady) := by
  cases hfinds : server.findsModules disk with
  | false =>
    rcases indexModules_of_not_finds hfinds with heq | ⟨text, heq⟩ <;> rw [heq] <;> rfl
  | true =>
    obtain ⟨path, place, hroot, hplace⟩ := exists_of_findsModules hfinds
    obtain ⟨workspace, text, heq, -, hindex⟩ := indexModules_of_finds hroot hplace
    rw [heq]
    show workspace.index.isReady = true
    rw [hindex]
    rfl

/-! ### New settings -/

/-- Making the tables of open documents anew leaves all else alone. -/
theorem keepsModules_reindexDocuments (server : Server) :
    server.workspace.KeepsModules server.reindexDocuments.workspace :=
  Workspace.keepsModules_changeDocuments server.workspace server.documents.entries

/-- Settings that cannot be read change nothing; the findings in open documents are published
    anew all the same. -/
theorem configure_refused {server : Server} (disk : Disk) {settings : Json}
    (h : Settings.ofJson? settings = none) :
    server.configure disk settings = (server, server.publishAll) := by
  simp [configure, applySettings, h]

/-- The server after it has taken over settings, with the tables of open documents made anew when
    the settings call for it. -/
def adoptSettings (server : Server) (settings : Settings) : Server :=
  let adopted := { server with workspace := (server.workspace.configure settings).1 }
  if server.workspace.settings.needsScan settings then adopted.reindexDocuments else adopted

theorem adoptSettings_frame (server : Server) (settings : Settings) :
    (server.adoptSettings settings).root = server.root
      ∧ (server.adoptSettings settings).documents = server.documents
      ∧ (server.adoptSettings settings).workspace.settings = settings
      ∧ (server.adoptSettings settings).workspace.index = server.workspace.index := by
  unfold adoptSettings
  dsimp only
  split
  · have hkeeps := keepsModules_reindexDocuments
      { server with workspace := (server.workspace.configure settings).1 }
    exact ⟨rfl, rfl, hkeeps.settings, hkeeps.index⟩
  · exact ⟨rfl, rfl, rfl, rfl⟩

/-- **Settings that can be read are taken over.**  Then modules are looked for, if the settings call
    for it and an earlier search has succeeded; else the findings in open documents are published
    anew. -/
theorem configure_accepted {server : Server} (disk : Disk) {json : Json} {settings : Settings}
    (h : Settings.ofJson? json = some settings) :
    server.configure disk json
      = if server.workspace.settings.needsScan settings && server.workspace.index.isReady then
          (server.adoptSettings settings).indexModules disk
        else (server.adoptSettings settings, (server.adoptSettings settings).publishAll) := by
  have hindex := (server.adoptSettings_frame settings).2.2.2
  have hadopted : server.adoptSettings settings
      = if server.workspace.settings.needsScan settings then
          { server with workspace := (server.workspace.configure settings).1 }.reindexDocuments
        else { server with workspace := (server.workspace.configure settings).1 } := rfl
  have happly : server.applySettings json
      = ({ server with workspace := (server.workspace.configure settings).1 },
        server.workspace.settings.needsScan settings) := by
    simp only [applySettings, h]
    rfl
  simp only [configure, happly]
  by_cases hneeds : server.workspace.settings.needsScan settings = true
  · rw [if_pos hneeds] at hadopted
    rw [if_pos hneeds, ← hadopted, hindex, hneeds, Bool.true_and]
  · rw [if_neg hneeds] at hadopted
    rw [if_neg hneeds, ← hadopted, Bool.eq_false_iff.mpr hneeds, Bool.false_and]
    rfl

/-! ### Runs of new settings -/

/-- Settings never make an index that is there go away, nor one appear that is not there. -/
theorem isReady_configure (server : Server) (disk : Disk) (json : Json) :
    (server.configure disk json).1.workspace.index.isReady = server.workspace.index.isReady := by
  cases hsettings : Settings.ofJson? json with
  | none => rw [configure_refused disk hsettings]
  | some settings =>
    have hindex := (server.adoptSettings_frame settings).2.2.2
    rw [configure_accepted disk hsettings]
    split
    next hscans =>
      rw [isReady_indexModules, hindex, (Bool.and_eq_true_iff.mp hscans).2, Bool.or_true]
    next => rw [hindex]

/-- **Settings that matter for modules bring a search**, if an earlier one has succeeded. -/
theorem index_configure {server : Server} {disk : Disk} {json : Json} {settings : Settings}
    (h : Settings.ofJson? json = some settings)
    (hneeds : server.workspace.settings.needsScan settings = true)
    (hready : server.workspace.index.isReady = true) {path : Path} {place : Place}
    (hroot : (server.configure disk json).1.moduleRoot? = some path)
    (hplace : disk.find path = .directory place) :
    (server.configure disk json).1.workspace.index = .ofDisk disk settings.layout path place := by
  obtain ⟨-, -, hadopted, -⟩ := server.adoptSettings_frame settings
  rw [configure_accepted disk h, hneeds, hready] at hroot ⊢
  simp only [Bool.and_self, if_true] at hroot ⊢
  -- the search itself does not change what the root is
  obtain ⟨hsame, -, hsettings⟩ := (server.adoptSettings settings).indexModules_frame disk
  rw [moduleRoot?_congr hsame hsettings] at hroot
  obtain ⟨workspace, text, heq, -, hindex⟩ := indexModules_of_finds hroot hplace
  rw [heq, ← hadopted]
  exact hindex

end Server

/-- The editor is ready, with the disk and the database as they are then. -/
def Step.ready (disk : Disk) (connection : Connection) : Step :=
  ⟨disk, connection, .message .ready rfl⟩

/-- New settings arrive, with the disk and the database as they are then. -/
structure Reconfiguration where
  disk : Disk
  connection : Connection
  settings : Json

/-- The event. -/
def Reconfiguration.step (change : Reconfiguration) : Step :=
  ⟨change.disk, change.connection, .message (.configure change.settings) rfl⟩

/-- From one group of settings to another, the extension of scripts, the separator of module paths
    or the module root changes. -/
def Settings.Alters (old new : Settings) : Prop :=
  old.layout.extension ≠ new.layout.extension ∨ old.layout.separator ≠ new.layout.separator
    ∨ Settings.sameRoot old.moduleRoot new.moduleRoot = false

theorem Settings.needsScan_iff {old new : Settings} :
    old.needsScan new = true ↔ old.Alters new := by
  have hlayout : old.layout ≠ new.layout
      ↔ old.layout.extension ≠ new.layout.extension
        ∨ old.layout.separator ≠ new.layout.separator := by
    rw [Ne, Layout.mk.injEq, not_and_or]
  unfold Settings.needsScan Settings.Alters
  rw [Bool.or_eq_true_iff, decide_eq_true_iff, hlayout, Bool.not_eq_true', or_assoc]

namespace Server

/-- The server after settings have arrived, one after the other. -/
def reconfigure (server : Server) (changes : List Reconfiguration) : Server :=
  (server.run (changes.map (·.step))).1

theorem reconfigure_cons (server : Server) (change : Reconfiguration)
    (rest : List Reconfiguration) :
    server.reconfigure (change :: rest)
      = (server.configure change.disk change.settings).1.reconfigure rest := rfl

theorem reconfigure_append (server : Server) (changes more : List Reconfiguration) :
    server.reconfigure (changes ++ more) = (server.reconfigure changes).reconfigure more := by
  induction changes generalizing server with
  | nil => rfl
  | cons change rest ih =>
    rw [List.cons_append, reconfigure_cons, ih, reconfigure_cons]

theorem isReady_reconfigure (server : Server) (changes : List Reconfiguration) :
    (server.reconfigure changes).workspace.index.isReady = server.workspace.index.isReady := by
  induction changes generalizing server with
  | nil => rfl
  | cons change rest ih => rw [reconfigure_cons, ih, isReady_configure]

theorem reconfigure_of_refused (server : Server) {changes : List Reconfiguration}
    (h : ∀ change ∈ changes, Settings.ofJson? change.settings = none) :
    server.reconfigure changes = server := by
  induction changes generalizing server with
  | nil => rfl
  | cons change rest ih =>
    obtain ⟨hchange, hrest⟩ := List.forall_mem_cons.mp h
    rw [reconfigure_cons, configure_refused change.disk hchange]
    exact ih server hrest

/-- When the editor introduces itself, no search has taken place. -/
theorem isReady_introduce (root : Option Path) (options : Option Json) :
    (fresh.introduce root options).workspace.index.isReady = false := by
  unfold introduce
  cases options with
  | none => rfl
  | some options =>
    unfold applySettings
    dsimp only
    split <;> rfl

/-- The server after the editor has introduced itself and was ready. -/
def started (root : Option Path) (options : Option Json) (disk : Disk) (connection : Connection) :
    Server :=
  ((fresh.introduce root options).step (.ready disk connection)).1

theorem isReady_started (root : Option Path) (options : Option Json) (disk : Disk)
    (connection : Connection) :
    (started root options disk connection).workspace.index.isReady
      = (fresh.introduce root options).findsModules disk := by
  show ((fresh.introduce root options).indexModules disk).1.workspace.index.isReady = _
  rw [isReady_indexModules, isReady_introduce, Bool.or_false]

/-- **A module root that settings name is indexed, if the first search has succeeded.**  Let the
    editor introduce itself and be ready, and let settings arrive one after the other, with any
    changes on disk in between.  Whether there is an index is decided by the first search alone.  If
    there is one, and the last settings that could be read have changed the extension, the separator
    or the module root, and the module root is a directory, then the index is that of a scan of it
    at that moment. -/
theorem reconfigured_root_indexed (root : Option Path) (options : Option Json) (disk : Disk)
    (connection : Connection) :
    (∀ changes, ((started root options disk connection).reconfigure changes).workspace.index.isReady
        = (fresh.introduce root options).findsModules disk)
      ∧ ∀ earlier change rest settings path,
        (fresh.introduce root options).findsModules disk = true →
        Settings.ofJson? change.settings = some settings →
        (∀ later ∈ rest, Settings.ofJson? later.settings = none) →
        ((started root options disk connection).reconfigure earlier).workspace.settings.Alters
          settings →
        ((started root options disk connection).reconfigure
          (earlier ++ change :: rest)).moduleRoot? = some path →
        change.disk.hasDirectory path = true →
        ∃ scanned, Index.empty.scan change.disk settings.layout path = .ok scanned
          ∧ ((started root options disk connection).reconfigure
              (earlier ++ change :: rest)).workspace.index = scanned.index
          ∧ scanned.index.root = some path := by
  have hready : ∀ changes,
      ((started root options disk connection).reconfigure changes).workspace.index.isReady
        = (fresh.introduce root options).findsModules disk := by
    intro changes
    rw [isReady_reconfigure, isReady_started]
  refine ⟨hready, ?_⟩
  intro earlier change rest settings path hfinds haccepted hrefused halters hroot hdirectory
  obtain ⟨place, hplace⟩ := Disk.hasDirectory_iff.mp hdirectory
  rw [reconfigure_append, reconfigure_cons, reconfigure_of_refused _ hrefused] at hroot ⊢
  refine ⟨_, Index.scan_of_find Index.empty hplace, ?_, rfl⟩
  exact index_configure haccepted (Settings.needsScan_iff.mpr halters)
    ((hready earlier).trans hfinds) hroot hplace

/-- A workspace with one script in a directory. -/
def scriptDisk : Disk := ⟨[["ws"], ["ws", "lib"]], [(["ws", "lib", "m.dos"], .text "x")]⟩

/-- Settings that name a module root. -/
def rootSettings (root : String) : Json := .object [("moduleRoot", .string root)]

/-- The root is indexed although settings before have named a missing one, and although settings
    that cannot be read come after. -/
theorem root_indexed_after_missing_root :
    (fresh.introduce (some ⟨"/ws"⟩) none).findsModules scriptDisk = true
      ∧ ∃ scanned, Index.empty.scan scriptDisk ⟨"dos", "::"⟩ ⟨"/ws/lib"⟩ = .ok scanned
        ∧ ((started (some ⟨"/ws"⟩) none scriptDisk .silent).reconfigure
            ([⟨scriptDisk, .silent, rootSettings "missing"⟩]
              ++ ⟨scriptDisk, .silent, rootSettings "lib"⟩
              :: [⟨.empty, .silent, .string "?"⟩])).workspace.index = scanned.index
        ∧ scanned.index.root = some ⟨"/ws/lib"⟩ := by
  have hfinds : (fresh.introduce (some ⟨"/ws"⟩) none).findsModules scriptDisk = true := by
    decide +kernel
  refine ⟨hfinds, ?_⟩
  exact (reconfigured_root_indexed (some ⟨"/ws"⟩) none scriptDisk .silent).2
    [⟨scriptDisk, .silent, rootSettings "missing"⟩] ⟨scriptDisk, .silent, rootSettings "lib"⟩
    [⟨.empty, .silent, .string "?"⟩] { moduleRoot := some ⟨"lib"⟩ } ⟨"/ws/lib"⟩ hfinds
    (by decide +kernel) (List.forall_mem_singleton.mpr (by decide +kernel))
    (Settings.needsScan_iff.mp (by decide +kernel)) (by decide +kernel) (by decide +kernel)

/-- **A module root is not indexed after a failed start.**  At first the settings name a missing
    directory, so the first search fails.  Then they name one that exists, and still there is no
    index. -/
theorem root_unindexed_after_failed_start :
    ¬ ∀ root options disk connection earlier change rest settings path,
      Settings.ofJson? change.settings = some settings →
      (∀ later ∈ rest, Settings.ofJson? later.settings = none) →
      ((started root options disk connection).reconfigure earlier).workspace.settings.Alters
        settings →
      ((started root options disk connection).reconfigure
        (earlier ++ change :: rest)).moduleRoot? = some path →
      change.disk.hasDirectory path = true →
      ((started root options disk connection).reconfigure
        (earlier ++ change :: rest)).workspace.index.isReady = true := by
  intro hclaim
  have hready := hclaim (some ⟨"/ws"⟩) (some (rootSettings "missing")) scriptDisk .silent []
    ⟨scriptDisk, .silent, rootSettings "lib"⟩ [] { moduleRoot := some ⟨"lib"⟩ } ⟨"/ws/lib"⟩
    (by decide +kernel) (fun _ hmem => nomatch hmem) (Settings.needsScan_iff.mp (by decide +kernel))
    (by decide +kernel) (by decide +kernel)
  rw [isReady_reconfigure, isReady_started] at hready
  exact absurd hready (by decide +kernel)

end Server

end ScriptServer

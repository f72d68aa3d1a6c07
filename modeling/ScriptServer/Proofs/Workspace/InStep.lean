import ScriptServer.Proofs.Workspace.Tables
import ScriptServer.Workspace.Symbols

namespace ScriptServer

/-!
# Which tables a scan and a rescan renew

* `Workspace.scan_refreshes_new_modules` — a scan renews the tables of the modules that the index
  did not have before, and no others.
* `Workspace.scan_keeps_outdated_table` — so a file that is written between two scans can keep a
  table that is out of date.
* `Workspace.InStep`, `Workspace.tables_in_step_with_rescan` — a rescan renews the tables of the
  modules in its directory and of those that the index did not have before under these names, drops
  those of the modules that are gone, and leaves all others alone.
* `Workspace.rescan_renews_renamed_module` — the names matter there: a module can be renewed though
  the index had one in the same file.
* `Workspace.rescan_keeps_unreadable_table` — a module whose file cannot be read any more keeps the
  symbols that it had, `Workspace.rescan_keeps_stale_symbols`.
-/

open Library

namespace Workspace

/-! ### Scans -/

/-- **A scan refreshes the modules that are new to it.**  Let a scan succeed, and let the file of a
    module that it finds be closed and readable.  Then the module has the table of its file exactly
    when the index before did not have the module, or when it had this table already. -/
theorem scan_refreshes_new_modules {workspace after : Workspace} {disk : Disk} {root : Path}
    {watch : List Path} (hscan : workspace.scan disk root = .ok (after, watch)) {entry : Entry}
    (hentry : entry ∈ after.index.entries) :
    ∃ uri, entry.uri? = some uri ∧ (after.isOpen uri = false →
      ∀ text, disk.read entry.path = .ok text →
        (after.table? uri = some (Outline.table after.syn uri text)
          ↔ workspace.index.has entry = false
            ∨ workspace.table? uri = some (Outline.table after.syn uri text))) := by
  obtain ⟨scanned, hscanned, rfl⟩ := exists_of_scan hscan
  have htells := Index.tells_scan hscanned
  rw [(adopt_frame workspace disk scanned).2] at hentry
  obtain ⟨uri, huri⟩ := Uri.exists_ofPath? (Index.absolute_scan hscanned entry hentry)
  refine ⟨uri, huri, fun hclosed text htext => ?_⟩
  rw [isOpen_adopt] at hclosed
  rw [(keepsEditor_adopt workspace disk scanned).syn]
  by_cases hhas : workspace.index.has entry = true
  · have hkept : (workspace.adopt disk scanned).table? uri = workspace.table? uri := by
      apply table?_adopt_of_entry htells hentry huri
      intro hreports
      simp [Index.reports, hhas] at hreports
    simp [hkept, hhas]
  · have hreports : workspace.index.reports none entry = true := by simp [Index.reports, hhas]
    have hfresh : (workspace.adopt disk scanned).table? uri
        = reread disk workspace.syn uri entry.path (workspace.table? uri) :=
      table?_adopt_of_reported htells hentry huri hclosed hreports
    simp [hfresh, reread, htext, hhas]

/-- A module root with one file. -/
def oneScript (content : Content) : Disk := ⟨[["ws"]], [(["ws", "m.dos"], content)]⟩

/-- The module in the file. -/
def oneModule : Entry := ⟨"m", none, ⟨"/ws/m.dos"⟩⟩

/-- The identifier of the file. -/
def oneUri : Uri := ⟨"file:///ws/m.dos"⟩

theorem uri?_oneModule : oneModule.uri? = some oneUri := by decide +kernel

/-- The root is scanned while the file has a function `f`. -/
def oneScan : List (Disk × Operation) := [(oneScript (.text "def f() {}\n"), .scan ⟨"/ws"⟩)]

/-- A module that is written between two scans has the table of its file after the second one. -/
theorem scan_refreshes_added_module :
    ∃ after watch,
      ((ofSettings {}).run [(⟨[["ws"]], []⟩, .scan ⟨"/ws"⟩)]).scan
          (oneScript (.text "def f() {}\n")) ⟨"/ws"⟩ = .ok (after, watch)
        ∧ after.table? oneUri = some (Outline.table after.syn oneUri "def f() {}\n") := by
  have hfind : (oneScript (.text "def f() {}\n")).find ⟨"/ws"⟩ = .directory ["ws"] := by
    decide +kernel
  obtain ⟨after, watch, hscan, -, hindex⟩ :=
    ((ofSettings {}).run [(⟨[["ws"]], []⟩, .scan ⟨"/ws"⟩)]).scan_of_find hfind
  have hentry : oneModule ∈ after.index.entries := by
    rw [hindex]
    decide +kernel
  obtain ⟨uri, huri, hiff⟩ := scan_refreshes_new_modules hscan hentry
  obtain rfl : oneUri = uri := Option.some.inj (uri?_oneModule.symm.trans huri)
  have hclosed : after.isOpen oneUri = false := by
    rw [isOpen, (keepsEditor_scan hscan).opened]
    decide +kernel
  exact ⟨after, watch, hscan,
    (hiff hclosed "def f() {}\n" (by decide +kernel)).mpr (.inl (by decide +kernel))⟩

/-- **A scan can leave a table that is out of date.**  A file is written between two scans and keeps
    its names, so the second scan does not report it. -/
theorem scan_keeps_outdated_table :
    ¬ ∀ settings steps disk root after watch,
      ((ofSettings settings).run steps).scan disk root = .ok (after, watch) →
      ∀ entry ∈ after.index.entries, ∀ uri, entry.uri? = some uri → after.isOpen uri = false →
      ∀ text, disk.read entry.path = .ok text →
        after.table? uri = some (Outline.table after.syn uri text) := by
  intro hclaim
  -- the module is found, it is closed, and its table is not that of the file
  have hfacts : (((ofSettings {}).run oneScan).scan (oneScript (.text "def g() {}\n"))
      ⟨"/ws"⟩).toOption.map (fun result =>
        (result.1.index.entries.contains oneModule, result.1.isOpen oneUri,
          decide (result.1.table? oneUri
            = some (Outline.table result.1.syn oneUri "def g() {}\n"))))
      = some (true, false, false) := by decide +kernel
  cases hscan : ((ofSettings {}).run oneScan).scan (oneScript (.text "def g() {}\n")) ⟨"/ws"⟩ with
  | error reason =>
    rw [hscan] at hfacts
    cases hfacts
  | ok result =>
    obtain ⟨after, watch⟩ := result
    rw [hscan] at hfacts
    simp only [Except.toOption, Option.map_some, Option.some.injEq, Prod.mk.injEq,
      List.contains_iff_mem, decide_eq_false_iff_not] at hfacts
    exact hfacts.2.2 (hclaim {} _ _ ⟨"/ws"⟩ after watch hscan _ hfacts.1 _ uri?_oneModule
      hfacts.2.1 _ (by decide +kernel))

/-! ### Rescans -/

/-- The tables before and after the directory is listed anew.  A module of the new index is taken
    for renewed when it lies directly in the directory, or when the old index did not have it: no
    module in this file, or one with another name. -/
structure InStep (before after : Workspace) (disk : Disk) (directory : Path) : Prop where
  settings : after.settings = before.settings
  opened : after.opened = before.opened
  renewed : ∀ entry ∈ after.index.entries,
    entry.isIn directory = true ∨ before.index.has entry = false →
    ∃ uri, entry.uri? = some uri ∧ (after.isOpen uri = false →
      ∀ text, disk.read entry.path = .ok text →
        after.table? uri = some (Outline.table after.syn uri text))
  dropped : ∀ entry ∈ before.index.entries, after.index.byPath? entry.path = none →
    ∃ uri, entry.uri? = some uri ∧ (after.isOpen uri = false → after.table? uri = none)
  kept : ∀ uri,
    (∀ entry ∈ after.index.entries, entry.uri? = some uri →
      entry.isIn directory = true ∨ before.index.has entry = false →
      after.isOpen uri = true ∨ ∃ reason, disk.read entry.path = .error reason) →
    (∀ entry ∈ before.index.entries, entry.uri? = some uri →
      after.index.byPath? entry.path = none → after.isOpen uri = true) →
    after.table? uri = before.table? uri

theorem reports_some_iff {old : Index} {directory : Path} {entry : Entry} :
    old.reports (some directory) entry = true
      ↔ entry.isIn directory = true ∨ old.has entry = false := by
  simp [Index.reports, or_comm]

/-- Under the root, a rescan reports how the modules have changed. -/
theorem exists_of_rescan {workspace : Workspace} {root directory : Path}
    (hroot : workspace.index.root = some root) (hunder : directory.isUnder root = true)
    (disk : Disk) :
    ∃ scanned, scanned.Tells workspace.index (some directory)
      ∧ (workspace.rescan disk directory).1 = workspace.adopt disk scanned :=
  ⟨_, Index.tells_rescan hroot hunder, rfl⟩

/-- Whatever was done, every module has an identifier, and every module that a rescan finds. -/
theorem exists_uri? (settings : Settings) (steps : List (Disk × Operation)) {entry : Entry}
    (h : entry ∈ ((ofSettings settings).run steps).index.entries) :
    ∃ uri, entry.uri? = some uri :=
  Uri.exists_ofPath? (entries_absolute settings steps entry h)

theorem exists_uri?_rescan {settings : Settings} {steps : List (Disk × Operation)} {disk : Disk}
    {directory : Path} {entry : Entry}
    (h : entry ∈ (((ofSettings settings).run steps).rescan disk directory).1.index.entries) :
    ∃ uri, entry.uri? = some uri := by
  -- the rescan is one more step
  refine exists_uri? settings (steps ++ [(disk, .rescan directory)]) ?_
  rw [run, List.foldl_append]
  exact h

/-- **Tables stay in step with a rescan.**  Whatever was done with a workspace before, when a
    directory under the root is listed anew: the modules in it and those that the index did not
    have get the tables of their files, modules that are gone have no table, and all other tables
    stay as they were, in particular those of open documents. -/
theorem tables_in_step_with_rescan (settings : Settings) (steps : List (Disk × Operation))
    (disk : Disk) {root directory : Path}
    (hroot : ((ofSettings settings).run steps).index.root = some root)
    (hunder : directory.isUnder root = true) :
    InStep ((ofSettings settings).run steps)
      (((ofSettings settings).run steps).rescan disk directory).1 disk directory := by
  have hnew := fun entry => @exists_uri?_rescan settings steps disk directory entry
  have hold := fun entry => @exists_uri? settings steps entry
  generalize (ofSettings settings).run steps = workspace at *
  obtain ⟨scanned, htells, hrescan⟩ := exists_of_rescan hroot hunder disk
  rw [hrescan] at hnew ⊢
  have hkeeps := keepsEditor_adopt workspace disk scanned
  have hindex := (adopt_frame workspace disk scanned).2
  refine ⟨hkeeps.settings, hkeeps.opened, ?_, ?_, ?_⟩
  · intro entry hentry hrenewed
    obtain ⟨uri, huri⟩ := hnew entry hentry
    refine ⟨uri, huri, fun hclosed text htext => ?_⟩
    rw [hindex] at hentry
    rw [isOpen_adopt] at hclosed
    rw [hkeeps.syn, table?_adopt_of_reported htells hentry huri hclosed
      (reports_some_iff.mpr hrenewed), reread, htext]
  · intro entry hentry hmissing
    obtain ⟨uri, huri⟩ := hold entry hentry
    refine ⟨uri, huri, fun hclosed => ?_⟩
    rw [hindex] at hmissing
    rw [isOpen_adopt] at hclosed
    exact table?_adopt_of_missing htells hentry hmissing huri hclosed
  · intro uri hrenewed hdropped
    rw [hindex] at hrenewed hdropped
    rw [isOpen_adopt] at hrenewed hdropped
    apply table?_adopt_of_kept htells
    · intro entry hentry huri hreports
      exact hrenewed entry hentry huri (reports_some_iff.mp hreports)
    · exact hdropped

/-- A module that is written anew has the table of its file after a rescan of its directory. -/
theorem rescan_renews_written_module :
    let before := (ofSettings {}).run oneScan
    let after := (before.rescan (oneScript (.text "def g() {}\n")) ⟨"/ws"⟩).1
    before.index.root = some ⟨"/ws"⟩
      ∧ after.table? oneUri = some (Outline.table after.syn oneUri "def g() {}\n") := by
  intro before after
  have hroot : before.index.root = some ⟨"/ws"⟩ := by decide +kernel
  have hstep : InStep before after _ _ :=
    tables_in_step_with_rescan {} _ (oneScript (.text "def g() {}\n")) hroot (by decide +kernel)
  obtain ⟨uri, huri, hnew⟩ :=
    hstep.renewed oneModule (by decide +kernel) (.inl (by decide +kernel))
  obtain rfl : oneUri = uri := Option.some.inj (uri?_oneModule.symm.trans huri)
  exact ⟨hroot, hnew (by decide +kernel) _ (by decide +kernel)⟩

/-- A module deep below the root is listed before the directories on the way to it are known.  Then
    a directory takes the place of its file and is listed. -/
def deepModule : List (Disk × Operation) :=
  [(⟨[["ws"], ["ws", "lib"]], []⟩, .scan ⟨"/ws"⟩),
    (⟨[["ws"], ["ws", "lib"], ["ws", "lib", "p"], ["ws", "lib", "p", "q"]],
      [(["ws", "lib", "p", "q", "x.dos"], .text "module one\n")]⟩, .rescan ⟨"/ws/lib/p/q"⟩),
    (⟨[["ws"], ["ws", "lib"], ["ws", "lib", "p"], ["ws", "lib", "p", "q"],
      ["ws", "lib", "p", "q", "x.dos"]], []⟩, .rescan ⟨"/ws/lib/p/q/x.dos"⟩)]

/-- The directory is gone and the file is written again. -/
def deepModuleDisk : Disk :=
  ⟨[["ws"], ["ws", "lib"], ["ws", "lib", "p"], ["ws", "lib", "p", "q"]],
    [(["ws", "lib", "p", "q", "x.dos"], .text "module two\n")]⟩

/-- **A module can be renewed far from the directory that is listed.**  It was in the index before,
    under another name, and its file does not lie directly in the directory.  So it does not do to
    ask only whether the old index had a module in the same file. -/
theorem rescan_renews_renamed_module :
    ¬ ∀ settings steps disk root directory,
      ((ofSettings settings).run steps).index.root = some root → directory.isUnder root = true →
      let before := (ofSettings settings).run steps
      let after := (before.rescan disk directory).1
      ∀ uri,
        (∀ entry ∈ after.index.entries, entry.uri? = some uri →
          entry.isIn directory = true ∨ before.index.byPath? entry.path = none →
          after.isOpen uri = true ∨ ∃ reason, disk.read entry.path = .error reason) →
        (∀ entry ∈ before.index.entries, entry.uri? = some uri →
          after.index.byPath? entry.path = none → after.isOpen uri = true) →
        after.table? uri = before.table? uri := by
  intro hclaim
  have hsame := hclaim {} deepModule deepModuleDisk ⟨"/ws"⟩ ⟨"/ws/lib"⟩ (by decide +kernel)
    (by decide +kernel) ⟨"file:///ws/lib/p/q/x.dos"⟩
  have hnew : ∀ entry ∈ (((ofSettings {}).run deepModule).rescan deepModuleDisk
      ⟨"/ws/lib"⟩).1.index.entries,
      ¬ (entry.isIn ⟨"/ws/lib"⟩ = true
        ∨ ((ofSettings {}).run deepModule).index.byPath? entry.path = none) := by decide +kernel
  have hold : ∀ entry ∈ ((ofSettings {}).run deepModule).index.entries,
      (((ofSettings {}).run deepModule).rescan deepModuleDisk ⟨"/ws/lib"⟩).1.index.byPath?
        entry.path ≠ none := by decide +kernel
  have hdiffer : (((ofSettings {}).run deepModule).rescan deepModuleDisk ⟨"/ws/lib"⟩).1.table?
        ⟨"file:///ws/lib/p/q/x.dos"⟩
      ≠ ((ofSettings {}).run deepModule).table? ⟨"file:///ws/lib/p/q/x.dos"⟩ := by decide +kernel
  exact hdiffer (hsame (fun entry hentry _ hrenewed => absurd hrenewed (hnew entry hentry))
    (fun entry hentry _ hnone => absurd hnone (hold entry hentry)))

/-! ### Files that cannot be read -/

theorem symbols_congr {before after : Workspace} {uri : Uri}
    (h : after.table? uri = before.table? uri) : after.symbols uri = before.symbols uri := by
  rw [symbols, h, symbols]

/-- **A rescan keeps the symbols of a module that cannot be read.**  Whatever was done with a
    workspace before, when a directory under the root is listed anew, a module whose file cannot be
    read has the table that it had.  So it has symbols exactly when it had some. -/
theorem rescan_keeps_unreadable_table (settings : Settings) (steps : List (Disk × Operation))
    (disk : Disk) {root directory : Path}
    (hroot : ((ofSettings settings).run steps).index.root = some root)
    (hunder : directory.isUnder root = true) {entry : Entry}
    (hentry : entry ∈ (((ofSettings settings).run steps).rescan disk directory).1.index.entries)
    {reason : ReadError} (hread : disk.read entry.path = .error reason) :
    let before := (ofSettings settings).run steps
    let after := (before.rescan disk directory).1
    ∃ uri, entry.uri? = some uri ∧ after.table? uri = before.table? uri
      ∧ (after.symbols uri = [] ↔ before.symbols uri = []) := by
  intro before after
  obtain ⟨uri, huri⟩ := exists_uri?_rescan hentry
  obtain ⟨scanned, htells, hrescan⟩ := exists_of_rescan hroot hunder disk
  rw [hrescan, (adopt_frame before disk scanned).2] at hentry
  have hkept : after.table? uri = before.table? uri :=
    (congrArg (table? · uri) hrescan).trans
      (table?_adopt_of_entry htells hentry huri fun _ => .inr ⟨reason, hread⟩)
  exact ⟨uri, huri, hkept, by rw [symbols_congr hkept]⟩

/-- The file of a module is overwritten by bytes that are no text. -/
theorem rescan_keeps_garbled_table :
    let before := (ofSettings {}).run oneScan
    let after := (before.rescan (oneScript .binary) ⟨"/ws"⟩).1
    after.table? oneUri = before.table? oneUri := by
  intro before after
  have hroot : before.index.root = some ⟨"/ws"⟩ := by decide +kernel
  have hentry : oneModule ∈ after.index.entries := by decide +kernel
  have hread : (oneScript .binary).read oneModule.path = .error .invalidData := by decide +kernel
  obtain ⟨uri, huri, hkept, -⟩ := rescan_keeps_unreadable_table {} oneScan (oneScript .binary)
    hroot (by decide +kernel) hentry hread
  obtain rfl : oneUri = uri := Option.some.inj (uri?_oneModule.symm.trans huri)
  exact hkept

/-- **A module that cannot be read can have symbols.** -/
theorem rescan_keeps_stale_symbols :
    ¬ ∀ settings steps disk root directory,
      ((ofSettings settings).run steps).index.root = some root → directory.isUnder root = true →
      let after := (((ofSettings settings).run steps).rescan disk directory).1
      ∀ entry ∈ after.index.entries, entry.isIn directory = true →
      ∀ uri, entry.uri? = some uri → after.isOpen uri = false →
      ∀ reason, disk.read entry.path = .error reason → after.symbols uri = [] := by
  intro hclaim
  have hnone := hclaim {} oneScan (oneScript .binary) ⟨"/ws"⟩ ⟨"/ws"⟩ (by decide +kernel)
    (by decide +kernel) oneModule (by decide +kernel) (by decide +kernel) oneUri uri?_oneModule
    (by decide +kernel) .invalidData (by decide +kernel)
  have hsome : (((ofSettings {}).run oneScan).rescan (oneScript .binary) ⟨"/ws"⟩).1.symbols oneUri
      ≠ [] := by decide +kernel
  exact hsome hnone

end Workspace

end ScriptServer

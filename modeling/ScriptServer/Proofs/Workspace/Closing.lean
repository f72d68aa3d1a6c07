import ScriptServer.Proofs.Workspace.InStep
import ScriptServer.Uri.Parser

namespace ScriptServer

/-!
# What is left of a document that is closed

Tables are kept by identifiers, modules by the paths of their files.  A path may be spelled by
several identifiers, and only one of them is the module's own.

* `Workspace.HoldsNoText` — a document has no table, or the one of its file on disk.
* `Workspace.Respelled` — an identifier that stands for the file of a module and is not its own.
* `Workspace.closing_leaves_no_text` — closing a document leaves nothing of the editor's text,
  unless its identifier is such another spelling; a module under its own identifier falls back to
  its file.
* `Workspace.closing_leaves_text_under_other_spelling` — under another spelling the table of the
  editor's text can stay.
-/

open Library

namespace Disk

/-- Only the parts of a path decide which file it leads to. -/
theorem foldl_follow_of_find {disk : Disk} {path : Path} {place : Place} {content : Content}
    (h : disk.find path = .file place content) :
    path.parts.foldl disk.follow (.directory []) = .file place content := by
  unfold find at h
  split at h
  · cases h
  · split at h
    · cases h
    · split at h
      · split at h
        · rename_i hfound
          split at h
          · cases h
          · rw [hfound, h]
        · rename_i hother
          exact absurd h (hother place content)
      · cases h

theorem find_of_read {disk : Disk} {path : Path} {text : String} (h : disk.read path = .ok text) :
    ∃ place, disk.find path = .file place (.text text) := by
  unfold read at h
  split at h
  · rename_i place value hfind
    cases h
    exact ⟨place, hfind⟩
  all_goals cases h

/-- Paths that mean the same have the same text, as far as they can be read. -/
theorem read_unique {disk : Disk} {p q : Path} (hparts : p.parts = q.parts) {text other : String}
    (hp : disk.read p = .ok text) (hq : disk.read q = .ok other) : text = other := by
  obtain ⟨place, hfind⟩ := find_of_read hp
  obtain ⟨place', hfind'⟩ := find_of_read hq
  have hsame := foldl_follow_of_find hfind
  rw [hparts, foldl_follow_of_find hfind'] at hsame
  injection hsame with _ hcontent
  injection hcontent with htext
  exact htext.symm

end Disk

namespace Workspace

/-- The table of a document is the one of the file that its identifier stands for, as it is on
    disk. -/
def TellsDisk (workspace : Workspace) (disk : Disk) (uri : Uri) : Prop :=
  ∃ path file text, uri.path? = some path ∧ file.parts = path.parts ∧ disk.read file = .ok text
    ∧ workspace.table? uri = some (Outline.table workspace.syn uri text)

/-- No text of the editor is left: a document has no table, or that of its file. -/
def HoldsNoText (workspace : Workspace) (disk : Disk) (uri : Uri) : Prop :=
  workspace.table? uri = none ∨ workspace.TellsDisk disk uri

/-- Another spelling for the file of a module, while the module's own identifier is open in the
    editor or its file can be read. -/
def Respelled (workspace : Workspace) (disk : Disk) (uri : Uri) : Prop :=
  ∃ entry own, workspace.entryOf? uri = some entry ∧ entry.uri? = some own ∧ own ≠ uri
    ∧ (workspace.isOpen own || (disk.read entry.path).toOption.isSome) = true

section Close

variable {workspace : Workspace} {disk : Disk} {uri own : Uri} {entry : Entry}

/-! ### The module in the file of a document -/

theorem exists_path?_of_entryOf? (h : workspace.entryOf? uri = some entry) :
    entry ∈ workspace.index.entries
      ∧ ∃ path, uri.path? = some path ∧ entry.path.parts = path.parts := by
  obtain ⟨path, hpath, hfind⟩ := Option.bind_eq_some_iff.mp h
  obtain ⟨hmem, hsame⟩ := Index.byPath?_eq_some_iff.mp hfind
  exact ⟨hmem, path, hpath, Path.same_iff.mp hsame⟩

/-- A module is found under its own identifier. -/
theorem entryOf?_of_uri? (hentry : entry ∈ workspace.index.entries)
    (huri : entry.uri? = some uri) :
    workspace.entryOf? uri = some entry := by
  obtain ⟨path, hpath, hparts⟩ := Uri.exists_path?_of_ofPath? huri
  cases hfound : workspace.entryOf? uri with
  | none =>
    rw [entryOf?, hpath] at hfound
    exact absurd hparts.symm (Index.byPath?_eq_none_iff.mp hfound entry hentry)
  | some found =>
    obtain ⟨hmem, path', hpath', hparts'⟩ := exists_path?_of_entryOf? hfound
    rw [hpath, Option.some.injEq] at hpath'
    subst hpath'
    rw [Index.eq_of_parts_eq hmem hentry (hparts'.trans hparts)]

/-! ### The table of a closed document -/

/-- The workspace in which a document no longer counts as open. -/
def released (workspace : Workspace) (uri : Uri) : Workspace :=
  { workspace with opened := workspace.opened.filter (· ≠ uri) }

theorem isOpen_released : (workspace.released uri).isOpen uri = false := by
  simp [isOpen, released]

theorem isOpen_released_of_ne (h : own ≠ uri) :
    (workspace.released uri).isOpen own = workspace.isOpen own := by
  simp [isOpen, released, h]

theorem isOpen_closeDocument : (workspace.closeDocument disk uri).isOpen uri = false := by
  rw [isOpen, (keepsEditor_closeDocument workspace disk uri).opened]
  exact isOpen_released

/-- A document that is no module has no table. -/
theorem table?_closeDocument_of_none (h : workspace.entryOf? uri = none) :
    (workspace.closeDocument disk uri).table? uri = none := by
  unfold closeDocument
  simp only [entryOf?] at h ⊢
  rw [h]
  exact (table?_forget ..).trans (if_pos rfl)

/-- The table of a module, by what comes of indexing its file. -/
theorem table?_closeDocument_of_some (h : workspace.entryOf? uri = some entry) :
    (workspace.closeDocument disk uri).table? uri
      = ((workspace.released uri).indexFile disk entry.path).toOption.bind (·.table? uri) := by
  unfold closeDocument released
  simp only [entryOf?] at h ⊢
  simp only [h]
  split
  next after hindex =>
    rw [hindex]
    rfl
  next reason hindex =>
    rw [hindex]
    exact (table?_forget ..).trans (if_pos rfl)

/-- A module under its own identifier has the table of its file, if that can be read. -/
theorem table?_closeDocument_of_own (disk : Disk) (h : workspace.entryOf? uri = some entry)
    (huri : entry.uri? = some uri) :
    (workspace.closeDocument disk uri).table? uri
      = (disk.read entry.path).toOption.map (Outline.table workspace.syn uri) := by
  rw [table?_closeDocument_of_some h, indexFile, show Uri.ofPath? entry.path = some uri from huri]
  simp only [isOpen_released, Bool.false_eq_true, if_false]
  cases disk.read entry.path with
  | error reason => rfl
  | ok text => exact (table?_update ..).trans (if_pos rfl)

/-- Another spelling keeps the table that it has, unless the file is asked for and cannot be
    read: what is indexed is the module's own identifier. -/
theorem table?_closeDocument_of_other (disk : Disk) (h : workspace.entryOf? uri = some entry)
    (huri : entry.uri? = some own) (hne : own ≠ uri) :
    (workspace.closeDocument disk uri).table? uri
      = if workspace.isOpen own || (disk.read entry.path).toOption.isSome
        then workspace.table? uri else none := by
  rw [table?_closeDocument_of_some h, indexFile, show Uri.ofPath? entry.path = some own from huri]
  simp only [isOpen_released_of_ne hne]
  cases workspace.isOpen own with
  | true => rfl
  | false =>
    cases disk.read entry.path with
    | error reason => rfl
    | ok text => exact (table?_update ..).trans (if_neg (Ne.symm hne))

/-! ### What is left of the text -/

theorem respelled_iff (disk : Disk) (h : workspace.entryOf? uri = some entry)
    (huri : entry.uri? = some own) :
    workspace.Respelled disk uri ↔ own ≠ uri
      ∧ (workspace.isOpen own || (disk.read entry.path).toOption.isSome) = true := by
  constructor
  · rintro ⟨entry', own', hentry, hown, hrest⟩
    rw [h, Option.some.injEq] at hentry
    subst hentry
    rw [huri, Option.some.injEq] at hown
    subst hown
    exact hrest
  · exact fun hrest => ⟨entry, own, h, huri, hrest⟩

theorem holdsNoText_closeDocument_of_own (h : workspace.entryOf? uri = some entry)
    (huri : entry.uri? = some uri) : (workspace.closeDocument disk uri).HoldsNoText disk uri := by
  obtain ⟨-, path, hpath, hparts⟩ := exists_path?_of_entryOf? h
  have htable := table?_closeDocument_of_own disk h huri
  cases hread : disk.read entry.path with
  | error reason =>
    rw [hread] at htable
    exact .inl htable
  | ok text =>
    rw [hread] at htable
    refine .inr ⟨path, entry.path, text, hpath, hparts, hread, ?_⟩
    rw [htable, (keepsEditor_closeDocument workspace disk uri).syn]
    rfl

/-- A table that stays tells of the disk when it did before. -/
theorem holdsNoText_closeDocument_of_kept
    (h : (workspace.closeDocument disk uri).table? uri = workspace.table? uri) :
    (workspace.closeDocument disk uri).HoldsNoText disk uri ↔ workspace.HoldsNoText disk uri := by
  unfold HoldsNoText TellsDisk
  rw [(keepsEditor_closeDocument workspace disk uri).syn, h]
  rfl

/-- Text is left exactly under another spelling that has a table of such a text. -/
theorem holdsNoText_closeDocument_iff (habsolute : workspace.index.Absolute) :
    (workspace.closeDocument disk uri).HoldsNoText disk uri
      ↔ workspace.HoldsNoText disk uri ∨ ¬ workspace.Respelled disk uri := by
  cases hentry : workspace.entryOf? uri with
  | none =>
    have hspelled : ¬ workspace.Respelled disk uri := by
      rintro ⟨entry, own, hentry', -⟩
      rw [hentry] at hentry'
      cases hentry'
    exact iff_of_true (.inl (table?_closeDocument_of_none hentry)) (.inr hspelled)
  | some entry =>
    obtain ⟨own, hown⟩ :=
      Uri.exists_ofPath? (habsolute entry (exists_path?_of_entryOf? hentry).1)
    have hspelled := respelled_iff disk hentry hown
    by_cases hne : own = uri
    · subst hne
      exact iff_of_true (holdsNoText_closeDocument_of_own hentry hown)
        (.inr fun h => (hspelled.mp h).1 rfl)
    · have htable := table?_closeDocument_of_other disk hentry hown hne
      split at htable
      · rename_i hkept
        rw [holdsNoText_closeDocument_of_kept htable, hspelled]
        simp [hne, hkept]
      · rename_i hlost
        exact iff_of_true (.inl htable) (.inr fun h => hlost (hspelled.mp h).2)

end Close

/-- **Closing a document leaves nothing of the editor's text.**  Whatever was done with a workspace
    before, a document that is closed is not open.  It has no table or that of its file on disk,
    unless its identifier is another spelling for the file of a module and had another table
    before.  A module under its own identifier has the table of its file when that can be read, and
    none otherwise. -/
theorem closing_leaves_no_text (settings : Settings) (steps : List (Disk × Operation))
    (disk : Disk) (uri : Uri) :
    let before := (ofSettings settings).run steps
    let after := before.closeDocument disk uri
    after.isOpen uri = false
      ∧ (after.HoldsNoText disk uri ↔ before.HoldsNoText disk uri ∨ ¬ before.Respelled disk uri)
      ∧ ∀ entry ∈ before.index.entries, entry.uri? = some uri →
        after.table? uri = (disk.read entry.path).toOption.map (Outline.table before.syn uri) := by
  intro before after
  refine ⟨isOpen_closeDocument, ?_, fun entry hentry huri => ?_⟩
  · exact holdsNoText_closeDocument_iff (entries_absolute settings steps)
  · have hfound := entryOf?_of_uri? hentry huri
    exact table?_closeDocument_of_own disk hfound huri

/-- The root is scanned while the file has a function `f`, and a document is opened whose text has a
    function `g`. -/
def scanAndOpen (uri : Uri) : List (Disk × Operation) :=
  oneScan ++ [(oneScript (.text "def f() {}\n"), .openDocument uri "def g() {}\n")]

/-- A module that the editor closes falls back to its file. -/
theorem closing_falls_back_to_file :
    let before := (ofSettings {}).run (scanAndOpen oneUri)
    let after := before.closeDocument (oneScript (.text "def f() {}\n")) oneUri
    before.table? oneUri = some (Outline.table before.syn oneUri "def g() {}\n")
      ∧ after.isOpen oneUri = false
      ∧ after.table? oneUri = some (Outline.table before.syn oneUri "def f() {}\n") := by
  intro before after
  obtain ⟨hclosed, -, hfile⟩ := closing_leaves_no_text {} (scanAndOpen oneUri)
    (oneScript (.text "def f() {}\n")) oneUri
  refine ⟨by decide +kernel, hclosed, ?_⟩
  exact (hfile oneModule (by decide +kernel) uri?_oneModule).trans (by decide +kernel)

/-- The identifier of the file with its first letter escaped. -/
def escapedUri : Uri := ⟨"file:///ws/%6D.dos"⟩

/-- **Text can be left under another spelling.**  An editor may escape a letter of a file name, and
    the identifier that is read from it stands for the same file.  When the document is closed, the
    table of the module's own identifier is made anew, and this one stays. -/
theorem closing_leaves_text_under_other_spelling :
    ¬ ∀ settings steps disk written uri, Uri.parse? written = some uri →
      let after := ((ofSettings settings).run steps).closeDocument disk uri
      after.isOpen uri = false ∧ after.HoldsNoText disk uri := by
  intro hclaim
  obtain ⟨-, hholds⟩ := hclaim {} (scanAndOpen escapedUri) (oneScript (.text "def f() {}\n"))
    "file:///ws/%6D.dos" escapedUri (by decide +kernel)
  have htable : (((ofSettings {}).run (scanAndOpen escapedUri)).closeDocument
      (oneScript (.text "def f() {}\n")) escapedUri).table? escapedUri
      = some (Outline.table .standard escapedUri "def g() {}\n") := by decide +kernel
  rcases hholds with hnone | ⟨path, file, text, hpath, hparts, hread, htold⟩
  · rw [htable] at hnone
    cases hnone
  · -- whatever path is taken for the file, its text is the one on disk
    have hpath' : escapedUri.path? = some ⟨"/ws/m.dos"⟩ := by decide +kernel
    have hdisk : (oneScript (.text "def f() {}\n")).read ⟨"/ws/m.dos"⟩ = .ok "def f() {}\n" := by
      decide +kernel
    rw [hpath', Option.some.injEq] at hpath
    subst hpath
    obtain rfl := Disk.read_unique hparts hread hdisk
    rw [htable] at htold
    revert htold
    decide +kernel

end Workspace

end ScriptServer

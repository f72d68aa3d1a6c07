import ScriptServer.Proofs.Workspace.Run

namespace ScriptServer

/-!
# Symbol tables follow the modules

A scan and a rescan report how the modules have changed, and the symbol tables follow the reports.

* `Workspace.follow` — what one report makes of the table of a closed document.
* `Workspace.table?_applyChanges` — what all reports make of it, one after the other.
* `Workspace.table?_adopt_of_reported`, `Workspace.table?_adopt_of_missing`,
  `Workspace.table?_adopt_of_kept` — the table afterwards: that of the file for a module that is
  reported, none for one that is gone, and the one before for everything else.
-/

open Library

namespace Workspace

/-! ### One report -/

/-- The table of a document when its file is read again.  A file that cannot be read changes
    nothing. -/
def reread (disk : Disk) (syn : ModuleSyntax) (uri : Uri) (path : Path)
    (table : Option SymbolTable) : Option SymbolTable :=
  match disk.read path with
  | .ok text => some (Outline.table syn uri text)
  | .error _ => table

/-- What the report of a change makes of the table of a closed document. -/
def follow (disk : Disk) (syn : ModuleSyntax) (uri : Uri) (table : Option SymbolTable)
    (change : Change) : Option SymbolTable :=
  if change.entry.uri? = some uri then
    match change with
    | .added entry => reread disk syn uri entry.path table
    | .changed entry => reread disk syn uri entry.path table
    | .removed _ => none
  else table

section Follow

variable {disk : Disk} {syn : ModuleSyntax} {uri : Uri} {table : Option SymbolTable}
  {change : Change}

theorem follow_of_ne (h : change.entry.uri? ≠ some uri) :
    follow disk syn uri table change = table := if_neg h

/-- A report that is heard twice says nothing new. -/
theorem follow_follow :
    follow disk syn uri (follow disk syn uri table change) change
      = follow disk syn uri table change := by
  have hreread : ∀ path, reread disk syn uri path (reread disk syn uri path table)
      = reread disk syn uri path table := by
    intro path
    unfold reread
    cases disk.read path <;> rfl
  by_cases huri : change.entry.uri? = some uri
  · unfold follow
    simp only [huri, if_true]
    cases change with
    | added entry => exact hreread entry.path
    | changed entry => exact hreread entry.path
    | removed entry => rfl
  · rw [follow_of_ne huri]

theorem foldl_follow_of_ne {changes : List Change}
    (h : ∀ change ∈ changes, change.entry.uri? ≠ some uri) :
    changes.foldl (follow disk syn uri) table = table := by
  induction changes with
  | nil => rfl
  | cons first rest ih =>
    have hne := List.forall_mem_cons.mp h
    rw [List.foldl_cons, follow_of_ne hne.1, ih hne.2]

/-- Once a report was heard, others that say the same change nothing. -/
theorem foldl_follow_follow {changes : List Change}
    (hsame : ∀ other ∈ changes, other.entry.uri? = some uri →
      ∀ table, follow disk syn uri table other = follow disk syn uri table change) :
    changes.foldl (follow disk syn uri) (follow disk syn uri table change)
      = follow disk syn uri table change := by
  induction changes with
  | nil => rfl
  | cons first rest ih =>
    have hall := List.forall_mem_cons.mp hsame
    have hfirst : follow disk syn uri (follow disk syn uri table change) first
        = follow disk syn uri table change := by
      by_cases hfirst : first.entry.uri? = some uri
      · rw [hall.1 hfirst, follow_follow]
      · exact follow_of_ne hfirst
    rw [List.foldl_cons, hfirst, ih hall.2]

/-- When all reports about a document say the same, it is as if there were one. -/
theorem foldl_follow_of_mem {changes : List Change} (hmem : change ∈ changes)
    (huri : change.entry.uri? = some uri)
    (hsame : ∀ other ∈ changes, other.entry.uri? = some uri →
      ∀ table, follow disk syn uri table other = follow disk syn uri table change) :
    changes.foldl (follow disk syn uri) table = follow disk syn uri table change := by
  induction changes with
  | nil => exact absurd hmem List.not_mem_nil
  | cons first rest ih =>
    have hall := List.forall_mem_cons.mp hsame
    rw [List.foldl_cons]
    by_cases hfirst : first.entry.uri? = some uri
    · rw [hall.1 hfirst, foldl_follow_follow hall.2]
    · rw [follow_of_ne hfirst]
      rcases List.mem_cons.mp hmem with rfl | hmem
      · exact absurd huri hfirst
      · exact ih hmem hall.2

end Follow

section Apply

variable {workspace : Workspace} {disk : Disk} {uri : Uri}

theorem table?_tryIndexFile (disk : Disk) (path : Path) (hclosed : workspace.isOpen uri = false) :
    (workspace.tryIndexFile disk path).table? uri
      = if Uri.ofPath? path = some uri
        then reread disk workspace.syn uri path (workspace.table? uri)
        else workspace.table? uri := by
  unfold tryIndexFile indexFile reread
  cases Uri.ofPath? path with
  | none => rfl
  | some other =>
    by_cases hother : other = uri
    · subst hother
      simp only [hclosed, Bool.false_eq_true, if_false, if_true]
      cases disk.read path with
      | error reason => rfl
      | ok text => exact (table?_update ..).trans (if_pos rfl)
    · have hne : ¬ some other = some uri := fun h => hother (Option.some.inj h)
      rw [if_neg hne]
      by_cases hopen : workspace.isOpen other = true
      · simp only [hopen, if_true]
      · simp only [hopen]
        cases disk.read path with
        | error reason => rfl
        | ok text => exact (table?_update ..).trans (if_neg (Ne.symm hother))

theorem table?_forgetFile (entry : Entry) (hclosed : workspace.isOpen uri = false) :
    (workspace.forgetFile entry).table? uri
      = if entry.uri? = some uri then none else workspace.table? uri := by
  unfold forgetFile
  cases entry.uri? with
  | none => rfl
  | some other =>
    by_cases hother : other = uri
    · subst hother
      simp [hclosed]
    · have hne : ¬ some other = some uri := fun h => hother (Option.some.inj h)
      rw [if_neg hne]
      by_cases hopen : workspace.isOpen other = true
      · simp only [hopen, if_true]
      · simp only [hopen]
        exact (table?_forget ..).trans (if_neg (Ne.symm hother))

/-- What one report does to the table of a closed document. -/
theorem table?_applyChange (change : Change) (hclosed : workspace.isOpen uri = false) :
    (applyChange disk workspace change).table? uri
      = follow disk workspace.syn uri (workspace.table? uri) change := by
  cases change with
  | added entry => exact table?_tryIndexFile disk entry.path hclosed
  | changed entry => exact table?_tryIndexFile disk entry.path hclosed
  | removed entry => exact table?_forgetFile entry hclosed

/-- What all reports do to the table of a closed document. -/
theorem table?_applyChanges (changes : List Change) (hclosed : workspace.isOpen uri = false) :
    (workspace.applyChanges disk changes).table? uri
      = changes.foldl (follow disk workspace.syn uri) (workspace.table? uri) := by
  induction changes generalizing workspace with
  | nil => rfl
  | cons change rest ih =>
    have hkeeps := keepsEditor_applyChange disk workspace change
    have hclosed' : (applyChange disk workspace change).isOpen uri = false := by
      rw [isOpen, hkeeps.opened]
      exact hclosed
    show ((applyChange disk workspace change).applyChanges disk rest).table? uri = _
    rw [ih hclosed', hkeeps.syn, table?_applyChange change hclosed, List.foldl_cons]

end Apply

/-! ### Scans and rescans -/

section Adopt

variable {workspace : Workspace} {disk : Disk} {scanned : Scanned} {touched : Option Path}
  {entry : Entry} {uri : Uri}

theorem parts_eq_of_uri? {other : Entry} (h : entry.uri? = some uri)
    (hother : other.uri? = some uri) : entry.path.parts = other.path.parts :=
  Uri.parts_eq_of_ofPath? h hother

/-- No two reports about a document differ in what they make of its table. -/
theorem follow_unique (h : scanned.Tells workspace.index touched) {a b : Change}
    (ha : a ∈ scanned.changes) (hb : b ∈ scanned.changes) (hauri : a.entry.uri? = some uri)
    (hburi : b.entry.uri? = some uri) (syn : ModuleSyntax) (table : Option SymbolTable) :
    follow disk syn uri table a = follow disk syn uri table b := by
  rw [h.changes_eq, Index.mem_changesFrom] at ha hb
  -- a file in the new index is not reported as gone
  have hgone : ∀ entry ∈ scanned.index.entries, ∀ other : Entry, entry.uri? = some uri →
      other.uri? = some uri → scanned.index.byPath? other.path ≠ none := by
    intro entry hentry other huri hother hnone
    exact Index.byPath?_eq_none_iff.mp hnone entry hentry (parts_eq_of_uri? huri hother)
  rcases ha with ⟨entry, hentry, ha⟩ | ⟨entry, -, hnone, rfl⟩
  · rw [Index.entry_of_changeOf? ha] at hauri
    rcases hb with ⟨other, hother, hb⟩ | ⟨other, -, hnone, rfl⟩
    · rw [Index.entry_of_changeOf? hb] at hburi
      obtain rfl := Index.eq_of_parts_eq hentry hother (parts_eq_of_uri? hauri hburi)
      rw [Option.some.inj (ha.symm.trans hb)]
    · exact absurd hnone (hgone entry hentry other hauri hburi)
  · rcases hb with ⟨other, hother, hb⟩ | ⟨other, -, hnone', rfl⟩
    · rw [Index.entry_of_changeOf? hb] at hburi
      exact absurd hnone (hgone other hother entry hburi hauri)
    · exact (if_pos hauri).trans (if_pos hburi).symm

/-- The table of a document that a report is about. -/
theorem table?_adopt_of_mem (h : scanned.Tells workspace.index touched) {change : Change}
    (hmem : change ∈ scanned.changes) (huri : change.entry.uri? = some uri)
    (hclosed : workspace.isOpen uri = false) :
    (workspace.adopt disk scanned).table? uri
      = follow disk workspace.syn uri (workspace.table? uri) change := by
  have hfold : (workspace.adopt disk scanned).table? uri
      = scanned.changes.foldl (follow disk workspace.syn uri) (workspace.table? uri) :=
    table?_applyChanges _ hclosed
  rw [hfold]
  exact foldl_follow_of_mem hmem huri fun other hother hother' table =>
    follow_unique h hother hmem hother' huri _ table

/-- A module that is reported gets the table of its file, if that can be read. -/
theorem table?_adopt_of_reported (h : scanned.Tells workspace.index touched)
    (hentry : entry ∈ scanned.index.entries) (huri : entry.uri? = some uri)
    (hclosed : workspace.isOpen uri = false)
    (hreports : workspace.index.reports touched entry = true) :
    (workspace.adopt disk scanned).table? uri
      = reread disk workspace.syn uri entry.path (workspace.table? uri) := by
  obtain ⟨change, hchange⟩ := Index.exists_changeOf? hreports
  have hmem : change ∈ scanned.changes := by
    rw [h.changes_eq, Index.mem_changesFrom]
    exact .inl ⟨entry, hentry, hchange⟩
  have huri' : change.entry.uri? = some uri := by
    rw [Index.entry_of_changeOf? hchange]
    exact huri
  rw [table?_adopt_of_mem h hmem huri' hclosed]
  rcases Index.of_changeOf?_eq_some hchange with rfl | rfl
  · exact if_pos huri'
  · exact if_pos huri'

/-- A module that is gone has no table. -/
theorem table?_adopt_of_missing (h : scanned.Tells workspace.index touched)
    (hentry : entry ∈ workspace.index.entries)
    (hmissing : scanned.index.byPath? entry.path = none) (huri : entry.uri? = some uri)
    (hclosed : workspace.isOpen uri = false) :
    (workspace.adopt disk scanned).table? uri = none := by
  have hmem : Change.removed entry ∈ scanned.changes := by
    rw [h.changes_eq, Index.mem_changesFrom]
    exact .inr ⟨entry, hentry, hmissing, rfl⟩
  rw [table?_adopt_of_mem h hmem huri hclosed]
  exact if_pos huri

/-- A document keeps its table when no report is about it, when its file cannot be read, and when
    the editor has it open. -/
theorem table?_adopt_of_kept (h : scanned.Tells workspace.index touched)
    (hnew : ∀ entry ∈ scanned.index.entries, entry.uri? = some uri →
      workspace.index.reports touched entry = true →
      workspace.isOpen uri = true ∨ ∃ reason, disk.read entry.path = .error reason)
    (hold : ∀ entry ∈ workspace.index.entries, entry.uri? = some uri →
      scanned.index.byPath? entry.path = none → workspace.isOpen uri = true) :
    (workspace.adopt disk scanned).table? uri = workspace.table? uri := by
  by_cases hopen : workspace.isOpen uri = true
  · exact (keepsEditor_adopt workspace disk scanned).tables uri (isOpen_iff.mp hopen)
  have hclosed : workspace.isOpen uri = false := Bool.eq_false_iff.mpr hopen
  by_cases hreported : ∃ entry ∈ scanned.index.entries, entry.uri? = some uri
      ∧ workspace.index.reports touched entry = true
  · obtain ⟨entry, hentry, huri, hreports⟩ := hreported
    rcases hnew entry hentry huri hreports with hopen' | ⟨reason, hread⟩
    · exact absurd hopen' hopen
    · rw [table?_adopt_of_reported h hentry huri hclosed hreports, reread, hread]
  · have hfold : (workspace.adopt disk scanned).table? uri
        = scanned.changes.foldl (follow disk workspace.syn uri) (workspace.table? uri) :=
      table?_applyChanges _ hclosed
    rw [hfold]
    apply foldl_follow_of_ne
    intro change hchange huri
    rw [h.changes_eq, Index.mem_changesFrom] at hchange
    rcases hchange with ⟨entry, hentry, hchange⟩ | ⟨entry, hentry, hnone, rfl⟩
    · rw [Index.entry_of_changeOf? hchange] at huri
      have hreports : workspace.index.reports touched entry = false :=
        Bool.eq_false_iff.mpr fun hreports => hreported ⟨entry, hentry, huri, hreports⟩
      rw [Index.changeOf?_eq_none_iff.mpr hreports] at hchange
      cases hchange
    · exact hopen (hold entry hentry huri hnone)

/-- A module of the new index keeps its table when it is not reported, when its file cannot be read,
    and when the editor has it open. -/
theorem table?_adopt_of_entry (h : scanned.Tells workspace.index touched)
    (hentry : entry ∈ scanned.index.entries) (huri : entry.uri? = some uri)
    (hkept : workspace.index.reports touched entry = true →
      workspace.isOpen uri = true ∨ ∃ reason, disk.read entry.path = .error reason) :
    (workspace.adopt disk scanned).table? uri = workspace.table? uri := by
  apply table?_adopt_of_kept h
  · intro other hother huri'
    obtain rfl := Index.eq_of_parts_eq hentry hother (parts_eq_of_uri? huri huri')
    exact hkept
  · intro other _ huri' hnone
    exact absurd (parts_eq_of_uri? huri huri') (Index.byPath?_eq_none_iff.mp hnone entry hentry)

theorem isOpen_adopt : (workspace.adopt disk scanned).isOpen uri = workspace.isOpen uri := by
  rw [isOpen, (keepsEditor_adopt workspace disk scanned).opened, isOpen]

end Adopt

end Workspace

end ScriptServer

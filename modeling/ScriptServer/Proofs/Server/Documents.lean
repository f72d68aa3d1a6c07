import ScriptServer.Proofs.Server.Run

namespace ScriptServer

/-!
# Open documents and their symbol tables

The texts of the open documents, the list of what is open and the symbol tables are kept in
three places and changed by different messages.

* `Workspace.KeepsEditor` — a change of the workspace that leaves alone what the editor owns.
  Everything that reads the disk is of this kind.
* `Server.InSync` — the three places agree: the table of an open document is the one of its
  text, read with the settings in force.
* `Server.documents_stay_in_sync` — so it is after every run.
-/

open Library

namespace Workspace

/-! ### Changes that leave the editor's documents alone -/

/-- From one workspace to another the settings, the list of open documents and the symbol tables
    of these documents stay the same. -/
structure KeepsEditor (before after : Workspace) : Prop where
  settings : after.settings = before.settings
  opened : after.opened = before.opened
  tables : ∀ uri ∈ before.opened, after.table? uri = before.table? uri

theorem KeepsEditor.refl (workspace : Workspace) : KeepsEditor workspace workspace :=
  ⟨rfl, rfl, fun _ _ => rfl⟩

theorem KeepsEditor.trans {a b c : Workspace} (hab : KeepsEditor a b) (hbc : KeepsEditor b c) :
    KeepsEditor a c where
  settings := by rw [hbc.settings, hab.settings]
  opened := by rw [hbc.opened, hab.opened]
  tables := by
    intro uri huri
    rw [hbc.tables uri (by rw [hab.opened]; exact huri), hab.tables uri huri]

theorem KeepsEditor.syn {before after : Workspace} (h : KeepsEditor before after) :
    after.syn = before.syn := by
  rw [Workspace.syn, h.settings, Workspace.syn]

@[simp] theorem table?_update (workspace : Workspace) (uri other : Uri) (text : String) :
    (workspace.update uri text).table? other
      = if other = uri then some (Outline.table workspace.syn uri text)
        else workspace.table? other :=
  Store.get?_insert ..

@[simp] theorem table?_forget (workspace : Workspace) (uri other : Uri) :
    (workspace.forget uri).table? other
      = if other = uri then none else workspace.table? other :=
  Store.get?_erase ..

theorem isOpen_iff {workspace : Workspace} {uri : Uri} :
    workspace.isOpen uri ↔ uri ∈ workspace.opened :=
  List.contains_iff_mem

theorem keepsEditor_update {workspace : Workspace} {uri : Uri} (text : String)
    (h : uri ∉ workspace.opened) : KeepsEditor workspace (workspace.update uri text) where
  settings := rfl
  opened := rfl
  tables := by
    intro other hother
    rw [table?_update, if_neg (by rintro rfl; exact h hother)]

theorem keepsEditor_forget {workspace : Workspace} {uri : Uri} (h : uri ∉ workspace.opened) :
    KeepsEditor workspace (workspace.forget uri) where
  settings := rfl
  opened := rfl
  tables := by
    intro other hother
    rw [table?_forget, if_neg (by rintro rfl; exact h hother)]

/-- A file is indexed only when the editor does not have it open. -/
theorem keepsEditor_indexFile {workspace after : Workspace} {disk : Disk} {path : Path}
    (h : workspace.indexFile disk path = .ok after) : KeepsEditor workspace after := by
  unfold indexFile at h
  split at h
  · cases h
  · split at h
    · cases h
      exact .refl workspace
    · rename_i uri _ hclosed
      split at h
      · cases h
      · cases h
        exact keepsEditor_update _ (fun hmem => hclosed (isOpen_iff.mpr hmem))

theorem keepsEditor_applyChange (disk : Disk) (workspace : Workspace) (change : Change) :
    KeepsEditor workspace (applyChange disk workspace change) := by
  have htry : ∀ path, KeepsEditor workspace (workspace.tryIndexFile disk path) := by
    intro path
    unfold tryIndexFile
    split
    next after h => exact keepsEditor_indexFile h
    next => exact .refl workspace
  cases change with
  | added entry => exact htry entry.path
  | changed entry => exact htry entry.path
  | removed entry =>
    show KeepsEditor workspace (workspace.forgetFile entry)
    unfold forgetFile
    split
    next uri _ =>
      split
      next => exact .refl workspace
      next hclosed => exact keepsEditor_forget (fun hmem => hclosed (isOpen_iff.mpr hmem))
    next => exact .refl workspace

theorem keepsEditor_applyChanges (workspace : Workspace) (disk : Disk) (changes : List Change) :
    KeepsEditor workspace (workspace.applyChanges disk changes) := by
  unfold applyChanges
  induction changes generalizing workspace with
  | nil => exact .refl workspace
  | cons change rest ih => exact (keepsEditor_applyChange disk workspace change).trans (ih _)

theorem keepsEditor_adopt (workspace : Workspace) (disk : Disk) (scanned : Scanned) :
    KeepsEditor workspace (workspace.adopt disk scanned) := by
  have hindex : KeepsEditor workspace { workspace with index := scanned.index } :=
    ⟨rfl, rfl, fun _ _ => rfl⟩
  exact hindex.trans (keepsEditor_applyChanges _ disk scanned.changes)

theorem keepsEditor_scan {workspace after : Workspace} {disk : Disk} {root : Path}
    {watch : List Path} (h : workspace.scan disk root = .ok (after, watch)) :
    KeepsEditor workspace after := by
  unfold scan at h
  cases hscan : workspace.index.scan disk workspace.settings.layout root with
  | error => rw [hscan] at h; cases h
  | ok scanned =>
    rw [hscan] at h
    cases h
    exact keepsEditor_adopt workspace disk scanned

theorem keepsEditor_rescan (workspace : Workspace) (disk : Disk) (directory : Path) :
    KeepsEditor workspace (workspace.rescan disk directory).1 :=
  keepsEditor_adopt workspace disk _

theorem keepsEditor_rescans (workspace : Workspace) (disk : Disk) (directories : List Path) :
    KeepsEditor workspace (directories.foldl
      (fun workspace directory => (workspace.rescan disk directory).1) workspace) := by
  induction directories generalizing workspace with
  | nil => exact .refl workspace
  | cons directory rest ih => exact (keepsEditor_rescan workspace disk directory).trans (ih _)

/-- New database listings are no concern of the editor's documents. -/
theorem keepsEditor_metadata (workspace : Workspace) (metadata : Metadata) :
    KeepsEditor workspace { workspace with metadata } :=
  ⟨rfl, rfl, fun _ _ => rfl⟩

theorem keepsEditor_complete (workspace : Workspace) (connection : Connection) (uri : Uri)
    (text : String) (point : Position) :
    KeepsEditor workspace (workspace.complete connection uri text point).1 := by
  unfold complete
  split
  · exact .refl workspace
  · split
    · exact .refl workspace
    · exact .refl workspace
    · rename_i clause _
      show KeepsEditor workspace (workspace.clauseCandidates connection clause).1
      unfold clauseCandidates
      split
      · exact .refl workspace
      · exact keepsEditor_metadata workspace _

/-- Closing a document takes it off the list; whatever else happens is no concern of the
    documents that stay open, even when the file on disk has another spelling of the name. -/
theorem keepsEditor_closeDocument (workspace : Workspace) (disk : Disk) (uri : Uri) :
    KeepsEditor { workspace with opened := workspace.opened.filter (· ≠ uri) }
      (workspace.closeDocument disk uri) := by
  have hclosed : uri ∉ workspace.opened.filter (· ≠ uri) := by simp
  unfold closeDocument
  dsimp only
  split
  · split
    next after h => exact keepsEditor_indexFile h
    next => exact keepsEditor_forget hclosed
  · exact keepsEditor_forget hclosed

end Workspace

namespace Server

/-! ### The three places agree -/

/-- The documents whose texts are kept are those that are open, and each of them has the symbol
    table of its text, read with the module syntax in force. -/
structure InSync (server : Server) : Prop where
  keys : ∀ uri, uri ∈ server.documents.keys ↔ uri ∈ server.workspace.opened
  tables : ∀ uri text, server.documents.get? uri = some text →
    server.workspace.table? uri = some (Outline.table server.workspace.syn uri text)

theorem InSync.mem_opened {server : Server} (h : server.InSync) {uri : Uri} {text : String}
    (htext : server.documents.get? uri = some text) : uri ∈ server.workspace.opened := by
  rw [← h.keys, Store.mem_keys, htext]
  rfl

/-- A change that leaves the editor's documents alone keeps the three places in agreement. -/
theorem InSync.of_keepsEditor {before after : Server} (h : before.InSync)
    (hdocuments : after.documents = before.documents)
    (hkeeps : Workspace.KeepsEditor before.workspace after.workspace) : after.InSync where
  keys := by
    intro uri
    rw [hdocuments, hkeeps.opened]
    exact h.keys uri
  tables := by
    intro uri text htext
    rw [hdocuments] at htext
    rw [hkeeps.tables uri (h.mem_opened htext), hkeeps.syn]
    exact h.tables uri text htext

theorem inSync_indexModules {server : Server} (disk : Disk) (h : server.InSync) :
    (server.indexModules disk).1.InSync := by
  unfold indexModules
  split
  · exact h
  · split
    next => exact h
    next hscan => exact h.of_keepsEditor rfl (Workspace.keepsEditor_scan hscan)

theorem inSync_directoriesChanged {server : Server} (disk : Disk) (directories : List Path)
    (h : server.InSync) : (server.directoriesChanged disk directories).1.InSync :=
  h.of_keepsEditor rfl (Workspace.keepsEditor_rescans _ disk directories)

/-! ### Documents come and go -/

/-- A document that is opened or changed gets the table of its new text; the others keep
    theirs. -/
theorem inSync_open {server : Server} (uri : Uri) (text : String) (h : server.InSync) :
    InSync { server with
      documents := server.documents.insert uri text
      workspace := server.workspace.openDocument uri text } where
  keys := by
    intro other
    have hkeys := h.keys other
    rw [Store.mem_keys] at hkeys
    rw [Store.mem_keys, Store.get?_insert]
    show _ ↔ other ∈ if server.workspace.isOpen uri then _ else _
    by_cases hother : other = uri
    · subst hother
      by_cases hopen : server.workspace.isOpen other
      · simp [hopen, Workspace.isOpen_iff.mp hopen]
      · simp [hopen]
    · rw [if_neg hother, hkeys]
      split <;> simp [hother]
  tables := by
    intro other content hcontent
    rw [Store.get?_insert] at hcontent
    show Workspace.table? (Workspace.update _ uri text) other = _
    rw [Workspace.table?_update]
    by_cases hother : other = uri
    · subst hother
      simp only [↓reduceIte, Option.some.injEq] at hcontent
      rw [if_pos rfl, ← hcontent]
      rfl
    · rw [if_neg hother] at hcontent ⊢
      exact h.tables other content hcontent

/-- Dropping a document takes it off the list of open ones as well. -/
theorem inSync_forgetDocument {server : Server} (disk : Disk) (uri : Uri) (h : server.InSync) :
    (server.forgetDocument disk uri).1.InSync := by
  have hdropped : InSync { server with
      documents := server.documents.erase uri
      workspace := { server.workspace with
        opened := server.workspace.opened.filter (· ≠ uri) } } := by
    constructor
    · intro other
      have hkeys := h.keys other
      rw [Store.mem_keys] at hkeys
      rw [Store.mem_keys, Store.get?_erase]
      by_cases hother : other = uri <;> simp [hother, hkeys]
    · intro other text htext
      rw [Store.get?_erase] at htext
      split at htext
      · cases htext
      · exact h.tables other text htext
  exact hdropped.of_keepsEditor rfl (Workspace.keepsEditor_closeDocument _ disk uri)

theorem inSync_storeDocument {server : Server} (disk : Disk) (uri : Uri) (text : String)
    (h : server.InSync) : (server.storeDocument disk uri text).1.InSync := by
  unfold storeDocument
  dsimp only
  split
  · exact inSync_forgetDocument disk uri h
  · exact inSync_open uri text h

/-! ### New settings -/

/-- Making tables anew changes nothing but tables. -/
theorem reindex_frame (entries : List (Uri × String)) (workspace : Workspace) :
    let after := entries.foldl
      (fun workspace entry => workspace.changeDocument entry.1 entry.2) workspace
    after.settings = workspace.settings ∧ after.opened = workspace.opened := by
  induction entries generalizing workspace with
  | nil => exact ⟨rfl, rfl⟩
  | cons entry rest ih => exact ih (workspace.changeDocument entry.1 entry.2)

/-- When tables are made anew, documents that are not mentioned keep theirs. -/
theorem reindex_table?_of_not_mem (entries : List (Uri × String)) (workspace : Workspace)
    {uri : Uri} (h : uri ∉ entries.map (·.1)) :
    (entries.foldl (fun workspace entry => workspace.changeDocument entry.1 entry.2)
      workspace).table? uri = workspace.table? uri := by
  induction entries generalizing workspace with
  | nil => rfl
  | cons entry rest ih =>
    rw [List.map_cons, List.mem_cons, not_or] at h
    rw [List.foldl_cons, ih _ h.2]
    show (workspace.update entry.1 entry.2).table? uri = _
    rw [Workspace.table?_update, if_neg h.1]

/-- When tables are made anew, each document mentioned once gets the table of its text, read
    with the syntax in force. -/
theorem reindex_table?_of_mem (entries : List (Uri × String)) (workspace : Workspace)
    (hdistinct : (entries.map (·.1)).Nodup) {uri : Uri} {text : String}
    (h : (uri, text) ∈ entries) :
    (entries.foldl (fun workspace entry => workspace.changeDocument entry.1 entry.2)
      workspace).table? uri = some (Outline.table workspace.syn uri text) := by
  induction entries generalizing workspace with
  | nil => cases h
  | cons entry rest ih =>
    rw [List.map_cons, List.nodup_cons] at hdistinct
    rw [List.foldl_cons]
    rcases List.mem_cons.mp h with rfl | hrest
    · rw [reindex_table?_of_not_mem rest _ hdistinct.1]
      show (workspace.update uri text).table? uri = _
      rw [Workspace.table?_update, if_pos rfl]
    · exact ih (workspace.changeDocument entry.1 entry.2) hdistinct.2 hrest

/-- Making all tables anew restores the agreement, whatever the tables were. -/
theorem inSync_reindexDocuments {server : Server}
    (hkeys : ∀ uri, uri ∈ server.documents.keys ↔ uri ∈ server.workspace.opened) :
    server.reindexDocuments.InSync where
  keys := by
    intro uri
    have hframe := reindex_frame server.documents.entries server.workspace
    show _ ↔ uri ∈ (List.foldl _ server.workspace server.documents.entries).opened
    rw [hframe.2]
    exact hkeys uri
  tables := by
    intro uri text htext
    have hframe := reindex_frame server.documents.entries server.workspace
    have hmem := Store.mem_entries.mpr htext
    show Workspace.table? (List.foldl _ server.workspace server.documents.entries) uri
      = some (Outline.table (List.foldl _ server.workspace server.documents.entries).settings.syn
          uri text)
    rw [hframe.1]
    exact reindex_table?_of_mem _ server.workspace server.documents.distinct hmem

/-- Settings that ask for no scan have the same separator as before. -/
theorem syn_eq_of_needsScan {old new : Settings} (h : old.needsScan new = false) :
    new.syn = old.syn := by
  unfold Settings.needsScan at h
  rw [Bool.or_eq_false_iff] at h
  have hlayout : old.layout = new.layout := by simpa using h.1
  rw [Settings.syn, ← hlayout, Settings.syn]

/-- Settings that are taken over leave the documents and the list of open ones alone. -/
theorem applySettings_frame (server : Server) (settings : Json) :
    (server.applySettings settings).1.documents = server.documents
      ∧ (server.applySettings settings).1.workspace.opened = server.workspace.opened := by
  unfold applySettings
  split
  · exact ⟨rfl, rfl⟩
  · exact ⟨rfl, rfl⟩

/-- Settings that ask for no scan keep the agreement: the separator is the same. -/
theorem inSync_applySettings {server : Server} (settings : Json) (h : server.InSync)
    (hscan : (server.applySettings settings).2 = false) :
    (server.applySettings settings).1.InSync := by
  unfold applySettings at hscan ⊢
  split
  · exact h
  · rename_i new hnew
    rw [hnew] at hscan
    have hsyn : new.syn = server.workspace.settings.syn := syn_eq_of_needsScan hscan
    constructor
    · exact h.keys
    · intro uri text htext
      show server.workspace.table? uri = some (Outline.table new.syn uri text)
      rw [hsyn]
      exact h.tables uri text htext

theorem inSync_configure {server : Server} (disk : Disk) (settings : Json) (h : server.InSync) :
    (server.configure disk settings).1.InSync := by
  unfold configure
  dsimp only
  have hframe := applySettings_frame server settings
  by_cases hscan : (server.applySettings settings).2
  · rw [if_pos hscan]
    have hreindexed : (server.applySettings settings).1.reindexDocuments.InSync := by
      apply inSync_reindexDocuments
      rw [hframe.1, hframe.2]
      exact h.keys
    split
    · exact inSync_indexModules disk hreindexed
    · exact hreindexed
  · rw [if_neg hscan]
    exact inSync_applySettings settings h (by simpa using hscan)

/-! ### Messages and runs -/

theorem inSync_start {server : Server} (disk : Disk) (connection : Connection)
    (h : server.InSync) : (server.start disk connection).1.InSync :=
  (inSync_indexModules disk h).of_keepsEditor rfl (Workspace.keepsEditor_metadata _ _)

/-- One message keeps the agreement, as long as the server is not shut down. -/
theorem inSync_handle {server : Server} (disk : Disk) (connection : Connection)
    (message : Message) (hongoing : message.isOngoing) (h : server.InSync) :
    (server.handle disk connection message).1.InSync := by
  cases message with
  | introduce root options => cases hongoing
  | ready => exact inSync_start disk connection h
  | openDocument uri text => exact inSync_storeDocument disk uri text h
  | changeDocument uri text =>
    cases text with
    | none => exact h
    | some text => exact inSync_storeDocument disk uri text h
  | closeDocument uri => exact inSync_forgetDocument disk uri h
  | configure settings => exact inSync_configure disk settings h
  | complete uri point =>
    simp only [handle]
    split
    · exact h
    · exact h.of_keepsEditor rfl (Workspace.keepsEditor_complete ..)
  | hover uri point => exact h
  | definition uri point => exact h
  | shutdown => cases hongoing

/-- One event keeps the agreement. -/
theorem inSync_step (server : Server) (step : Step) (h : server.InSync) :
    (server.step step).1.InSync := by
  unfold Server.step
  split
  next message hongoing _ => exact inSync_handle step.disk step.connection message hongoing h
  next changed _ => exact inSync_directoriesChanged step.disk changed h
  next millis _ => exact h.of_keepsEditor rfl (Workspace.keepsEditor_metadata _ _)

/-- When the editor introduces itself nothing is open yet, so there is nothing to disagree
    about. -/
theorem inSync_introduce (root : Option Path) (options : Option Json) :
    (fresh.introduce root options).InSync := by
  have hroot : InSync { fresh with root } :=
    ⟨fun uri => by simp [fresh, Store.keys, Store.empty, Workspace.ofSettings],
      fun uri text htext => by cases htext⟩
  cases options with
  | none => exact hroot
  | some options =>
    have hframe := applySettings_frame { fresh with root } options
    constructor
    · intro uri
      show uri ∈ (applySettings _ options).1.documents.keys ↔ _
      rw [hframe.1]
      show _ ↔ uri ∈ (applySettings _ options).1.workspace.opened
      rw [hframe.2]
      exact hroot.keys uri
    · intro uri text htext
      change (applySettings _ options).1.documents.get? uri = some text at htext
      rw [hframe.1] at htext
      cases htext

/-- **Documents stay in sync.**  However a run goes on after the editor has introduced itself,
    and whatever happens on disk in the meantime, the texts that are kept are those of the open
    documents, and the symbol table of each is the one of its text under the settings in
    force. -/
theorem documents_stay_in_sync (root : Option Path) (options : Option Json)
    (steps : List Step) : ((fresh.introduce root options).run steps).1.InSync :=
  run_preserves inSync_step _ steps (inSync_introduce root options)

end Server

end ScriptServer

import ScriptServer.Proofs.Server.Modules

namespace ScriptServer

/-!
# What the editor shows

An editor shows the findings that were published last for a document.

* `shown` — the findings that a row of notices leaves an editor with.
* `Server.misses`, `Server.renews` — events after which the findings in all documents may be out of
  date, and events that publish all of them.
* `Server.Effect`, `Server.effect_step` — the four things that an event can do to findings.
* `Server.UpToDate` — what the editor shows follows from the state of the server.
* `Server.findings_up_to_date` — so it is after every run, unless a search for modules has failed
  after new settings.
* `Server.findings_outdated_after_failed_search` — in that case it is not.
-/

open Library

/-! ### Notices -/

/-- The findings that a notice has for a document. -/
def Notice.shows (uri : Uri) : Notice → Option (List Diagnostic)
  | .publish other found => if other = uri then some found else none
  | _ => none

/-- The findings that a row of notices leaves an editor with for a document: the last ones. -/
def shown (uri : Uri) : List Notice → Option (List Diagnostic)
  | [] => none
  | notice :: later => (shown uri later).or (notice.shows uri)

theorem shown_append (uri : Uri) (notices more : List Notice) :
    shown uri (notices ++ more) = (shown uri more).or (shown uri notices) := by
  induction notices with
  | nil => rw [List.nil_append, shown, Option.or_none]
  | cons notice rest ih => rw [List.cons_append, shown, shown, ih, Option.or_assoc]

/-- Log lines and questions show nothing. -/
theorem shown_eq_none {uri : Uri} {notices : List Notice}
    (h : ∀ notice ∈ notices, notice.shows uri = none) : shown uri notices = none := by
  induction notices with
  | nil => rfl
  | cons notice rest ih =>
    obtain ⟨hnotice, hrest⟩ := List.forall_mem_cons.mp h
    rw [shown, ih hrest, hnotice]
    rfl

theorem shown_map_ask (uri : Uri) (asked : List Query) : shown uri (asked.map .ask) = none :=
  shown_eq_none fun notice hnotice => by
    obtain ⟨query, -, rfl⟩ := List.mem_map.mp hnotice
    rfl

/-- Of documents that are all different, each is shown what is published for it. -/
theorem shown_map_publish (uri : Uri) (findings : String → List Diagnostic)
    {entries : List (Uri × String)} (h : (entries.map (·.1)).Nodup) :
    shown uri (entries.map fun entry => .publish entry.1 (findings entry.2))
      = (entries.find? fun entry => entry.1 = uri).map fun entry => findings entry.2 := by
  induction entries with
  | nil => rfl
  | cons entry rest ih =>
    rw [List.map_cons, List.nodup_cons] at h
    rw [List.map_cons, shown, ih h.2, List.find?_cons]
    by_cases hentry : entry.1 = uri
    · -- no later notice is about the same document
      have hnone : rest.find? (fun entry => entry.1 = uri) = none := by
        refine List.find?_eq_none.mpr fun other hother hsame => h.1 ?_
        have huri : other.1 = uri := of_decide_eq_true hsame
        rw [hentry, ← huri]
        exact List.mem_map_of_mem hother
      simp [hnone, hentry, Notice.shows]
    · simp [hentry, Notice.shows]

/-- When the findings in all open documents are published, each document is shown its own. -/
theorem Server.shown_publishAll (server : Server) (uri : Uri) :
    shown uri server.publishAll
      = (server.documents.get? uri).map server.workspace.diagnostics := by
  have hshown := shown_map_publish uri server.workspace.diagnostics server.documents.distinct
  rw [Store.get?, Option.map_map]
  exact hshown

/-! ### Findings -/

/-- The findings in a text follow from the settings and the modules. -/
theorem Workspace.KeepsModules.diagnostics_eq {before after : Workspace}
    (h : KeepsModules before after) : after.diagnostics = before.diagnostics := by
  have hlines : ∀ number lines masked,
      after.diagnosticsIn number lines masked = before.diagnosticsIn number lines masked := by
    intro number lines masked
    induction lines generalizing number masked with
    | nil => simp only [diagnosticsIn]
    | cons line lines ih =>
      cases masked with
      | nil => simp only [diagnosticsIn]
      | cons code masked =>
        simp only [diagnosticsIn, unknownModule, Workspace.syn, h.settings, h.index, ih]
  funext text
  unfold diagnostics
  rw [h.index]
  simp only [hlines]

/-! ### What an event does to findings -/

/-- Whether an event brings, changes or takes away the text of a document. -/
def Step.concerns (step : Step) (uri : Uri) : Bool :=
  match step.event with
  | .message (.openDocument other _) _ => other = uri
  | .message (.changeDocument other (some _)) _ => other = uri
  | .message (.closeDocument other) _ => other = uri
  | _ => false

namespace Server

/-- Whether an event brings settings that call for a search, while the module root that they name is
    no directory.  The search fails, and nothing is published. -/
def misses (server : Server) (step : Step) : Bool :=
  match step.event with
  | .message (.configure json) _ =>
    (Settings.ofJson? json).any fun settings =>
      server.workspace.settings.needsScan settings && server.workspace.index.isReady
        && !{ server with workspace := { server.workspace with settings } }.findsModules step.disk
  | _ => false

/-- Whether the findings in all open documents are published with an event. -/
def renews (server : Server) (step : Step) : Bool :=
  match step.event with
  | .message .ready _ => server.findsModules step.disk
  | .message (.configure _) _ => !server.misses step
  | .directories _ => true
  | _ => false

/-- What an event does to findings, and to what they follow from. -/
inductive Effect (server : Server) (step : Step) : Prop where
  /-- Nothing. -/
  | quiet (hmisses : server.misses step = false) (hrenews : server.renews step = false)
      (hconcerns : ∀ uri, step.concerns uri = false)
      (hdocuments : (server.step step).1.documents = server.documents)
      (hkeeps : server.workspace.KeepsModules (server.step step).1.workspace)
      (hshown : ∀ uri, shown uri (server.step step).2 = none)
  /-- The findings in all documents are published. -/
  | renewed (hmisses : server.misses step = false) (hrenews : server.renews step = true)
      (hconcerns : ∀ uri, step.concerns uri = false)
      (hdocuments : (server.step step).1.documents = server.documents)
      (hshown : ∀ uri, shown uri (server.step step).2
        = ((server.step step).1.documents.get? uri).map (server.step step).1.workspace.diagnostics)
  /-- One document has a new text, or none any more, and its findings are published. -/
  | document (uri : Uri) (text : Option String) (hmisses : server.misses step = false)
      (hrenews : server.renews step = false)
      (hconcerns : ∀ other, step.concerns other = decide (uri = other))
      (hdocuments : ∀ other, (server.step step).1.documents.get? other
        = if other = uri then text else server.documents.get? other)
      (hkeeps : server.workspace.KeepsModules (server.step step).1.workspace)
      (hshown : ∀ other, shown other (server.step step).2
        = if other = uri then some ((text.map server.workspace.diagnostics).getD []) else none)
  /-- Settings change, but nothing is published. -/
  | missed (hmisses : server.misses step = true) (hconcerns : ∀ uri, step.concerns uri = false)
      (hdocuments : (server.step step).1.documents = server.documents)
      (hshown : ∀ uri, shown uri (server.step step).2 = none)

/-! ### Searches and settings -/

/-- A search that succeeds publishes the findings in all documents. -/
theorem shown_indexModules {server : Server} {disk : Disk} (h : server.findsModules disk = true)
    (uri : Uri) :
    shown uri (server.indexModules disk).2
      = ((server.indexModules disk).1.documents.get? uri).map
          (server.indexModules disk).1.workspace.diagnostics := by
  obtain ⟨path, place, hroot, hplace⟩ := exists_of_findsModules h
  obtain ⟨workspace, text, heq, -, -⟩ := indexModules_of_finds hroot hplace
  rw [heq, shown, shown_publishAll]
  exact Option.or_none

/-- A search that fails publishes nothing. -/
theorem shown_indexModules_of_not_finds {server : Server} {disk : Disk}
    (h : server.findsModules disk = false) (uri : Uri) :
    (server.indexModules disk).1 = server ∧ shown uri (server.indexModules disk).2 = none := by
  rcases indexModules_of_not_finds h with heq | ⟨text, heq⟩ <;> rw [heq] <;> exact ⟨rfl, rfl⟩

/-- The module root that settings name, before and after they are taken over. -/
theorem findsModules_adoptSettings (server : Server) (settings : Settings) (disk : Disk) :
    (server.adoptSettings settings).findsModules disk
      = { server with workspace := { server.workspace with settings } }.findsModules disk := by
  obtain ⟨hroot, -, hsettings, -⟩ := server.adoptSettings_frame settings
  have hsame : (server.adoptSettings settings).moduleRoot?
      = { server with workspace := { server.workspace with settings } }.moduleRoot? :=
    moduleRoot?_congr hroot hsettings
  rw [findsModules, hsame]
  rfl

theorem effect_configure (server : Server) (disk : Disk) (connection : Connection) (json : Json)
    (hongoing : (Message.configure json).isOngoing) :
    Effect server ⟨disk, connection, .message (.configure json) hongoing⟩ := by
  generalize hstep : (⟨disk, connection, .message (.configure json) hongoing⟩ : Step) = step
  have hafter : server.step step = server.configure disk json := by
    rw [← hstep]
    rfl
  have hconcerns : ∀ uri, step.concerns uri = false := by
    rw [← hstep]
    exact fun _ => rfl
  have hrenews : server.renews step = !server.misses step := by
    rw [← hstep]
    rfl
  have hmisses : server.misses step = (Settings.ofJson? json).any fun settings =>
      server.workspace.settings.needsScan settings && server.workspace.index.isReady
        && !(server.adoptSettings settings).findsModules disk := by
    simp only [findsModules_adoptSettings]
    rw [← hstep]
    rfl
  cases hsettings : Settings.ofJson? json with
  | none =>
    rw [hsettings, Option.any_none] at hmisses
    rw [hmisses] at hrenews
    rw [configure_refused disk hsettings] at hafter
    refine .renewed hmisses hrenews hconcerns (by rw [hafter]) fun uri => ?_
    rw [hafter]
    exact server.shown_publishAll uri
  | some settings =>
    obtain ⟨-, hdocuments, -, -⟩ := server.adoptSettings_frame settings
    rw [hsettings, Option.any_some] at hmisses
    rw [configure_accepted disk hsettings] at hafter
    by_cases hscans : (server.workspace.settings.needsScan settings
        && server.workspace.index.isReady) = true
    · rw [hscans, Bool.true_and] at hmisses
      rw [if_pos hscans] at hafter
      have hsame := ((server.adoptSettings settings).indexModules_frame disk).2.1.trans hdocuments
      cases hfinds : (server.adoptSettings settings).findsModules disk with
      | false =>
        rw [hfinds, Bool.not_false] at hmisses
        refine .missed hmisses hconcerns (by rw [hafter, hsame]) fun uri => ?_
        rw [hafter]
        exact (shown_indexModules_of_not_finds hfinds uri).2
      | true =>
        rw [hfinds, Bool.not_true] at hmisses
        rw [hmisses] at hrenews
        refine .renewed hmisses hrenews hconcerns (by rw [hafter, hsame]) fun uri => ?_
        rw [hafter]
        exact shown_indexModules hfinds uri
    · rw [Bool.eq_false_iff.mpr hscans, Bool.false_and] at hmisses
      rw [hmisses] at hrenews
      rw [if_neg hscans] at hafter
      refine .renewed hmisses hrenews hconcerns (by rw [hafter, hdocuments]) fun uri => ?_
      rw [hafter]
      exact (server.adoptSettings settings).shown_publishAll uri

theorem effect_ready (server : Server) (disk : Disk) (connection : Connection)
    (hongoing : Message.ready.isOngoing) :
    Effect server ⟨disk, connection, .message .ready hongoing⟩ := by
  have hshown : ∀ uri, shown uri (server.step ⟨disk, connection, .message .ready hongoing⟩).2
      = shown uri (server.indexModules disk).2 := by
    intro uri
    show shown uri (_ :: (server.indexModules disk).2 ++ List.map Notice.ask _) = _
    rw [shown_append, shown_map_ask, Option.none_or, shown]
    exact Option.or_none
  cases hfinds : server.findsModules disk with
  | false =>
    have hsame := fun uri => shown_indexModules_of_not_finds hfinds uri
    refine .quiet rfl hfinds (fun _ => rfl) ?_ ?_ fun uri => ?_
    · exact (server.indexModules_frame disk).2.1
    · show server.workspace.KeepsModules
        { (server.indexModules disk).1.workspace with metadata := _ }
      rw [(hsame ⟨""⟩).1]
      exact ⟨rfl, rfl⟩
    · rw [hshown]
      exact (hsame uri).2
  | true =>
    refine .renewed rfl hfinds (fun _ => rfl) (server.indexModules_frame disk).2.1 fun uri => ?_
    rw [hshown, shown_indexModules hfinds]
    have hkeeps : (server.indexModules disk).1.workspace.KeepsModules
        (server.step ⟨disk, connection, .message .ready hongoing⟩).1.workspace := ⟨rfl, rfl⟩
    rw [hkeeps.diagnostics_eq]
    rfl

/-! ### Documents -/

theorem shown_singleton_publish (uri other : Uri) (found : List Diagnostic) :
    shown other [.publish uri found] = if other = uri then some found else none := by
  rw [shown, shown, Option.none_or, Notice.shows]
  exact if_congr eq_comm rfl rfl

/-- An event that drops a document. -/
theorem effect_forgetDocument {server : Server} {step : Step} {uri : Uri} (disk : Disk)
    (hafter : (server.step step).1 = (server.forgetDocument disk uri).1)
    (hnotices : ∀ other, shown other (server.step step).2
      = shown other (server.forgetDocument disk uri).2)
    (hmisses : server.misses step = false) (hrenews : server.renews step = false)
    (hconcerns : ∀ other, step.concerns other = decide (uri = other)) : Effect server step := by
  refine .document uri none hmisses hrenews hconcerns (fun other => ?_) ?_ fun other => ?_
  · rw [hafter]
    exact Store.get?_erase ..
  · rw [hafter]
    exact server.workspace.keepsModules_closeDocument disk uri
  · rw [hnotices]
    exact shown_singleton_publish uri other []

/-- An event that brings the text of a document. -/
theorem effect_storeDocument {server : Server} {step : Step} {uri : Uri} {text : String}
    (hstep : server.step step = server.storeDocument step.disk uri text)
    (hmisses : server.misses step = false) (hrenews : server.renews step = false)
    (hconcerns : ∀ other, step.concerns other = decide (uri = other)) : Effect server step := by
  unfold storeDocument at hstep
  dsimp only at hstep
  split at hstep
  · -- too large
    refine effect_forgetDocument step.disk ?_ ?_ hmisses hrenews hconcerns
    · rw [hstep]
    · intro other
      rw [hstep, shown]
      exact Option.or_none
  · have hkeeps : server.workspace.KeepsModules (server.workspace.openDocument uri text) :=
      ⟨rfl, rfl⟩
    refine .document uri (some text) hmisses hrenews hconcerns (fun other => ?_) ?_ fun other => ?_
    · rw [hstep]
      exact Store.get?_insert ..
    · rw [hstep]
      exact hkeeps
    · rw [hstep, publish, shown_singleton_publish, hkeeps.diagnostics_eq]
      rfl

/-- Candidates are no concern of findings, even when the database is asked for them. -/
theorem effect_complete (server : Server) (disk : Disk) (connection : Connection) (uri : Uri)
    (point : Position) (hongoing : (Message.complete uri point).isOngoing) :
    Effect server ⟨disk, connection, .message (.complete uri point) hongoing⟩ := by
  generalize hafter :
    server.step ⟨disk, connection, .message (.complete uri point) hongoing⟩ = after
  have hquiet : after.1.documents = server.documents
      ∧ server.workspace.KeepsModules after.1.workspace ∧ ∀ other, shown other after.2 = none := by
    rw [← hafter]
    simp only [Server.step, handle]
    split
    · exact ⟨rfl, .refl _, fun _ => rfl⟩
    · exact ⟨rfl, Workspace.keepsModules_complete .., fun other => shown_map_ask other _⟩
  rw [← hafter] at hquiet
  exact .quiet rfl rfl (fun _ => rfl) hquiet.1 hquiet.2.1 hquiet.2.2

/-- **An event does one of four things to findings.** -/
theorem effect_step (server : Server) (step : Step) : Effect server step := by
  obtain ⟨disk, connection, event⟩ := step
  cases event with
  | directories changed =>
    refine .renewed rfl rfl (fun _ => rfl) rfl fun uri => ?_
    exact shown_publishAll _ uri
  | time millis => exact .quiet rfl rfl (fun _ => rfl) rfl ⟨rfl, rfl⟩ fun _ => rfl
  | message message hongoing =>
    cases message with
    | introduce root options => cases hongoing
    | ready => exact effect_ready server disk connection hongoing
    | openDocument uri text => exact effect_storeDocument rfl rfl rfl fun _ => rfl
    | changeDocument uri text =>
      cases text with
      | none => exact .quiet rfl rfl (fun _ => rfl) rfl (.refl _) fun _ => rfl
      | some text => exact effect_storeDocument rfl rfl rfl fun _ => rfl
    | closeDocument uri =>
      exact effect_forgetDocument disk rfl (fun _ => rfl) rfl rfl fun _ => rfl
    | configure json => exact effect_configure server disk connection json hongoing
    | complete uri point =>
      exact effect_complete server disk connection uri point hongoing
    | hover uri point => exact .quiet rfl rfl (fun _ => rfl) rfl (.refl _) fun _ => rfl
    | definition uri point => exact .quiet rfl rfl (fun _ => rfl) rfl (.refl _) fun _ => rfl
    | shutdown => cases hongoing

/-! ### Runs -/

/-- Whether findings may be out of date after some events: a search has failed after new settings,
    and since then the findings in all documents have not been published.  `before` says whether
    they may be so before the events. -/
def outdated : Server → Bool → List Step → Bool
  | _, before, [] => before
  | server, before, step :: rest =>
    outdated (server.step step).1 (server.misses step || before && !server.renews step) rest

/-- What an editor shows follows from the state of the server.  `board` is what it shows, `known`
    says which documents it has ever sent, `outdated` whether findings may be out of date. -/
structure UpToDate (server : Server) (known : Uri → Bool)
    (board : Uri → Option (List Diagnostic)) (outdated : Bool) : Prop where
  opened : outdated = false → ∀ uri text, server.documents.get? uri = some text →
    board uri = some (server.workspace.diagnostics text)
  closed : ∀ uri, server.documents.get? uri = none →
    board uri = if known uri then some [] else none

variable {server : Server} {known : Uri → Bool} {board : Uri → Option (List Diagnostic)}
  {before : Bool}

/-- **Every event keeps what is shown up to date**, as far as it is not missed. -/
theorem UpToDate.step (h : server.UpToDate known board before) (step : Step) :
    (server.step step).1.UpToDate (fun uri => known uri || step.concerns uri)
      (fun uri => (shown uri (server.step step).2).or (board uri))
      (server.misses step || before && !server.renews step) := by
  cases server.effect_step step with
  | quiet hmisses hrenews hconcerns hdocuments hkeeps hshown =>
    constructor
    · intro houtdated uri text htext
      have hbefore : before = false := by simpa [hmisses, hrenews] using houtdated
      rw [hdocuments] at htext
      rw [hshown, Option.none_or, hkeeps.diagnostics_eq]
      exact h.opened hbefore uri text htext
    · intro uri hnone
      rw [hdocuments] at hnone
      rw [hshown, Option.none_or, hconcerns, Bool.or_false]
      exact h.closed uri hnone
  | renewed hmisses hrenews hconcerns hdocuments hshown =>
    constructor
    · intro _ uri text htext
      rw [hshown, htext]
      rfl
    · intro uri hnone
      rw [hshown, hnone, Option.map_none, Option.none_or, hconcerns, Bool.or_false]
      rw [hdocuments] at hnone
      exact h.closed uri hnone
  | document uri text hmisses hrenews hconcerns hdocuments hkeeps hshown =>
    constructor
    · intro houtdated other content hcontent
      have hbefore : before = false := by simpa [hmisses, hrenews] using houtdated
      rw [hdocuments] at hcontent
      rw [hshown, hkeeps.diagnostics_eq]
      by_cases hsame : other = uri
      · rw [if_pos hsame] at hcontent ⊢
        rw [hcontent]
        rfl
      · rw [if_neg hsame] at hcontent ⊢
        rw [Option.none_or]
        exact h.opened hbefore other content hcontent
    · intro other hnone
      rw [hdocuments] at hnone
      rw [hshown, hconcerns]
      by_cases hsame : other = uri
      · rw [if_pos hsame] at hnone ⊢
        rw [hnone, hsame]
        simp
      · rw [if_neg hsame] at hnone ⊢
        rw [Option.none_or, decide_eq_false (Ne.symm hsame), Bool.or_false]
        exact h.closed other hnone
  | missed hmisses hconcerns hdocuments hshown =>
    constructor
    · intro houtdated
      rw [hmisses, Bool.true_or] at houtdated
      cases houtdated
    · intro uri hnone
      rw [hdocuments] at hnone
      rw [hshown, Option.none_or, hconcerns, Bool.or_false]
      exact h.closed uri hnone

theorem UpToDate.run (h : server.UpToDate known board before) (steps : List Step) :
    (server.run steps).1.UpToDate (fun uri => known uri || steps.any (·.concerns uri))
      (fun uri => (shown uri (server.run steps).2).or (board uri))
      (server.outdated before steps) := by
  induction steps generalizing server known board before with
  | nil => simpa [Server.run, shown, outdated] using h
  | cons step rest ih =>
    have hrest := ih (h.step step)
    simp only [← Option.or_assoc, ← shown_append, Bool.or_assoc] at hrest
    exact hrest

/-- **Findings are up to date.**  However a run goes on after the editor has introduced itself, and
    whatever happens on disk in the meantime: a document that was closed or dropped is shown without
    findings; and an open document is shown the findings that its text has under the modules, the
    separator and the severity in force, unless a search has failed after new settings and all
    findings have not been published since. -/
theorem findings_up_to_date (root : Option Path) (options : Option Json) (steps : List Step) :
    (∀ uri, ((fresh.introduce root options).run steps).1.documents.get? uri = none →
        shown uri ((fresh.introduce root options).run steps).2
          = if steps.any (·.concerns uri) then some [] else none)
      ∧ ((fresh.introduce root options).outdated false steps = false →
        ∀ uri text, ((fresh.introduce root options).run steps).1.documents.get? uri = some text →
          shown uri ((fresh.introduce root options).run steps).2
            = some (((fresh.introduce root options).run steps).1.workspace.diagnostics text)) := by
  have hstart : (fresh.introduce root options).UpToDate (fun _ => false) (fun _ => none) false := by
    have hempty : (fresh.introduce root options).documents = .empty := by
      cases options with
      | none => rfl
      | some options => exact (applySettings_frame { fresh with root } options).1
    constructor
    · intro _ uri text htext
      rw [hempty] at htext
      cases htext
    · exact fun _ _ => rfl
  obtain ⟨hopened, hclosed⟩ := hstart.run steps
  simp only [Option.or_none, Bool.false_or] at hopened hclosed
  exact ⟨hclosed, hopened⟩

/-- A document is opened, then settings name a missing module root and another severity. -/
def failedSearch : List Step :=
  [.ready scriptDisk .silent,
    ⟨scriptDisk, .silent, .message (.openDocument ⟨"file:///ws/a.dos"⟩ "use x") rfl⟩,
    ⟨scriptDisk, .silent, .message (.configure (.object
      [("moduleRoot", .string "missing"), ("unknownModuleSeverity", .string "error")])) rfl⟩]

/-- The next settings that name a directory bring the findings up to date again. -/
theorem findings_up_to_date_after_recovery :
    (fresh.introduce (some ⟨"/ws"⟩) none).outdated false
        (failedSearch ++ [⟨scriptDisk, .silent, .message (.configure (rootSettings "lib")) rfl⟩])
        = false
      ∧ shown ⟨"file:///ws/a.dos"⟩ ((fresh.introduce (some ⟨"/ws"⟩) none).run
          (failedSearch
            ++ [⟨scriptDisk, .silent, .message (.configure (rootSettings "lib")) rfl⟩])).2
        = some [⟨⟨⟨0, 0⟩, ⟨0, 5⟩⟩, .warning, "Module 'x' not found"⟩] := by
  have hcurrent : (fresh.introduce (some ⟨"/ws"⟩) none).outdated false
      (failedSearch ++ [⟨scriptDisk, .silent, .message (.configure (rootSettings "lib")) rfl⟩])
      = false := by decide +kernel
  refine ⟨hcurrent, ?_⟩
  rw [(findings_up_to_date (some ⟨"/ws"⟩) none _).2 hcurrent ⟨"file:///ws/a.dos"⟩ "use x"
    (by decide +kernel)]
  decide +kernel

/-- **Findings are out of date after a failed search.**  The settings ask for errors, but the editor
    still shows a warning. -/
theorem findings_outdated_after_failed_search :
    ¬ ∀ root options steps uri text,
      ((fresh.introduce root options).run steps).1.documents.get? uri = some text →
      shown uri ((fresh.introduce root options).run steps).2
        = some (((fresh.introduce root options).run steps).1.workspace.diagnostics text) := by
  intro hclaim
  have hsame := hclaim (some ⟨"/ws"⟩) none failedSearch ⟨"file:///ws/a.dos"⟩ "use x"
    (by decide +kernel)
  have hshown : shown ⟨"file:///ws/a.dos"⟩
      ((fresh.introduce (some ⟨"/ws"⟩) none).run failedSearch).2
      = some [⟨⟨⟨0, 0⟩, ⟨0, 5⟩⟩, .warning, "Module 'x' not found"⟩] := by decide +kernel
  have hfindings : ((fresh.introduce (some ⟨"/ws"⟩) none).run failedSearch).1.workspace.diagnostics
      "use x" = [⟨⟨⟨0, 0⟩, ⟨0, 5⟩⟩, .error, "Module 'x' not found"⟩] := by decide +kernel
  rw [hshown, hfindings] at hsame
  exact absurd hsame (by decide)

end Server

end ScriptServer

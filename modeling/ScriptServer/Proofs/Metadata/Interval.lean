import Mathlib.Data.List.Induction
import ScriptServer.Proofs.Metadata.LeadingEdge
import ScriptServer.Workspace.Basic

namespace ScriptServer

/-!
# The interval that is configured

Settings give the interval between refreshes in seconds.  The caches keep it in milliseconds, in 64
bits, and what does not fit is cut off.

* `Settings.metadataRefreshSecs_lt` — all settings that can be read have a number of seconds in 64
  bits, and there are settings for each.
* `Metadata.Paced` — refreshes keep an interval.
* `Metadata.starts` — when the server starts refreshes, while callers ask and time passes.
* `Metadata.paced_starts` — it keeps the interval in force.
* `Metadata.RefreshSystem.pairwise_refreshes` — so it does when callers take their steps in any
  order.
* `Metadata.throttle_as_configured_iff` — the interval in force is the configured one exactly when
  its milliseconds fit in 64 bits.
-/

namespace Settings

theorem lt_of_countOfJson? {value : Json} {count : Nat} (h : countOfJson? value = some count) :
    count < Word.limit64 := by
  unfold countOfJson? Json.asNatBelow? at h
  split at h
  · split at h
    next hlt =>
      cases h
      exact hlt
    next => cases h
  · cases h

/-- The seconds of settings fit in 64 bits. -/
theorem metadataRefreshSecs_lt {value : Json} {settings : Settings}
    (h : ofJson? value = some settings) : settings.metadataRefreshSecs < Word.limit64 := by
  unfold ofJson? at h
  dsimp only at h
  split at h
  · cases h
    decide
  · simp only [ofRecord?, Option.bind_eq_bind, Option.bind_eq_some_iff, Option.pure_def,
      Option.some.injEq] at h
    obtain ⟨field, -, moduleRoot, -, extension, -, separator, -, secs, hsecs, size, -, severity, -,
      rfl⟩ := h
    cases hfield : field "metadataRefreshSecs" with
    | none =>
      rw [hfield] at hsecs
      obtain rfl : 30 = secs := Option.some.inj hsecs
      exact (by decide : 30 < Word.limit64)
    | some value =>
      rw [hfield] at hsecs
      exact lt_of_countOfJson? hsecs

/-- Any number of seconds in 64 bits can be configured. -/
theorem ofJson?_metadataRefreshSecs {secs : Nat} (h : secs < Word.limit64) :
    ofJson? (.object [("metadataRefreshSecs", .ofNat secs)])
      = some { metadataRefreshSecs := secs } := by
  have hcount : countOfJson? (.ofNat secs) = some secs := if_pos h
  have hthis : Json.lastField? "metadataRefreshSecs" [("metadataRefreshSecs", .ofNat secs)]
      = some (.ofNat secs) := by
    rw [Json.lastField?, Json.lastField?]
    exact if_pos rfl
  have hother : ∀ name, "metadataRefreshSecs" ≠ name →
      Json.lastField? name [("metadataRefreshSecs", .ofNat secs)] = none :=
    fun _ hname => if_neg hname
  have hrecord : ofRecord? (.object [("metadataRefreshSecs", .ofNat secs)])
      = some { metadataRefreshSecs := secs } := by
    simp only [ofRecord?, Json.partialRecord?, Option.bind_eq_bind, Option.bind_some, Json.optional,
      hthis, hcount, hother "moduleRoot" (by decide), hother "extension" (by decide),
      hother "moduleSeparator" (by decide), hother "maxDocumentSize" (by decide),
      hother "unknownModuleSeverity" (by decide)]
    rfl
  rw [ofJson?, Json.get?, hother "dos" (by decide)]
  exact hrecord

end Settings

namespace Metadata

/-! ### Moments that keep an interval -/

/-- Refreshes start at these moments, from now on: each of them an interval after the last one
    before, and they are an interval apart. -/
structure Paced (interval : Nat) (last : Option Nat) (now : Nat) (starts : List Nat) : Prop where
  later : ∀ start ∈ starts, now ≤ start
  since : ∀ moment, last = some moment → moment ≤ now → ∀ start ∈ starts, moment + interval ≤ start
  apart : starts.Pairwise fun earlier later => earlier + interval ≤ later

theorem paced_nil (interval : Nat) (last : Option Nat) (now : Nat) : Paced interval last now [] :=
  ⟨nofun, nofun, .nil⟩

section Paced

variable {interval now now' : Nat} {last : Option Nat} {starts : List Nat}

/-- Time passes. -/
theorem Paced.wait (h : Paced interval last now' starts) (hle : now ≤ now') :
    Paced interval last now starts where
  later := fun start hstart => Nat.le_trans hle (h.later start hstart)
  since := fun moment hlast hmoment => h.since moment hlast (Nat.le_trans hmoment hle)
  apart := h.apart

/-- A refresh starts that is due. -/
theorem Paced.start (h : Paced interval (some now) now' starts) (hle : now ≤ now')
    (hdue : isDue last now interval = true) : Paced interval last now (now :: starts) where
  later := List.forall_mem_cons.mpr ⟨Nat.le_refl _, (h.wait hle).later⟩
  since := by
    rintro moment rfl hmoment
    have hpassed : interval ≤ now - moment := of_decide_eq_true hdue
    refine List.forall_mem_cons.mpr ⟨by omega, fun start hstart => ?_⟩
    have hlater := h.later start hstart
    omega
  apart := List.pairwise_cons.mpr ⟨h.since now rfl hle, h.apart⟩

end Paced

/-! ### Callers that ask together -/

namespace Round

/-- What a caller does to the refreshes: nothing, or it starts one that is due.  The moment tells
    which. -/
inductive Does (connection : Connection) (round after : Round) : Option Nat → Prop where
  | nothing (hinterval : after.metadata.interval = round.metadata.interval)
      (hstarted : after.metadata.overview.started = round.metadata.overview.started)
      (hfree : after.free = round.free) : Does connection round after none
  | starts (hinterval : after.metadata.interval = round.metadata.interval)
      (hdue : isDue round.metadata.overview.started round.free round.metadata.interval = true)
      (hstarted : after.metadata.overview.started = some round.free)
      (hfree : after.free = round.free + connection.latency) :
      Does connection round after (some round.free)

/-- What a caller gets does not matter. -/
theorem Does.conclude {connection : Connection} {round after : Round} {moment : Option Nat}
    (h : Does connection round after moment) (outcome : Outcome) :
    Does connection round (after.conclude outcome) moment := by
  cases h with
  | nothing hinterval hstarted hfree => exact .nothing hinterval hstarted hfree
  | starts hinterval hdue hstarted hfree => exact .starts hinterval hdue hstarted hfree

theorem Does.interval_eq {connection : Connection} {round after : Round} {moment : Option Nat}
    (h : Does connection round after moment) :
    after.metadata.interval = round.metadata.interval := by
  cases h with
  | nothing hinterval => exact hinterval
  | starts hinterval => exact hinterval

/-- Nothing changes, or the gate is free and a refresh is due. -/
theorem askRefresh_cases (round : Round) (connection : Connection) :
    round.askRefresh connection = (round, false)
      ∨ (round.metadata.overview.busy = false
        ∧ isDue round.metadata.overview.started round.free round.metadata.interval = true) := by
  cases hbusy : round.metadata.overview.busy with
  | true => exact .inl (by simp [askRefresh, Overview.ask, Overview.enter?, hbusy])
  | false =>
    cases hdue : isDue round.metadata.overview.started round.free round.metadata.interval with
    | false => exact .inl (askRefresh_of_fresh hbusy hdue connection)
    | true => exact .inr ⟨rfl, rfl⟩

theorem does_askRefresh (round : Round) (connection : Connection) :
    Does connection round (round.askRefresh connection).1
      (if (round.askRefresh connection).2 then some round.free else none) := by
  rcases round.askRefresh_cases connection with hnone | ⟨hbusy, hdue⟩
  · rw [hnone]
    exact .nothing rfl rfl rfl
  · obtain ⟨htells, hoverview, hinterval, hfree, -, -⟩ := askRefresh_of_due hbusy hdue connection
    rw [htells]
    refine .starts hinterval hdue ?_ hfree
    rw [hoverview, Overview.ask_of_due hbusy hdue]
    rfl

/-- A refresh asks for the catalogs once. -/
theorem count_askRefresh (round : Round) (connection : Connection) :
    (round.askRefresh connection).1.questions.count .catalogs
      = round.questions.count .catalogs
        + (if (round.askRefresh connection).2 then some round.free else none).toList.length := by
  rcases round.askRefresh_cases connection with hnone | ⟨hbusy, hdue⟩
  · rw [hnone]
    rfl
  · obtain ⟨htells, -, -, -, -, hquestions⟩ := askRefresh_of_due hbusy hdue connection
    rw [hquestions, htells]
    rfl

/-- When a caller starts a refresh, if it does. -/
def startOf? (round : Round) (connection : Connection) (call : Call) : Option Nat :=
  if (wishOf? call).isSome && (round.askRefresh connection).2 then some round.free else none

/-- **What a caller can do** to the refreshes. -/
theorem does_ask (round : Round) (connection : Connection) (call : Call) :
    Does connection round (round.ask connection call) (round.startOf? connection call) := by
  cases call with
  | refresh => exact (round.does_askRefresh connection).conclude _
  | catalogs => exact (round.does_askRefresh connection).conclude _
  | databases => exact (round.does_askRefresh connection).conclude _
  | listing query =>
    obtain ⟨hoverview, hinterval, hfree, -, -⟩ := round.askListing_frame connection query
    exact .nothing hinterval (by rw [ask, hoverview]) hfree
  | cached query => exact .nothing rfl rfl rfl

/-- When callers that ask one after the other start refreshes. -/
def starts (connection : Connection) : Round → List Call → List Nat
  | _, [] => []
  | round, call :: calls =>
    (round.startOf? connection call).toList ++ starts connection (round.ask connection call) calls

/-- Refreshes are what callers ask for the catalogs for, as long as none asks for the listing. -/
theorem count_starts (connection : Connection) {calls : List Call}
    (h : .listing .catalogs ∉ calls) (round : Round) :
    (calls.foldl (ask connection) round).questions.count .catalogs
      = round.questions.count .catalogs + (starts connection round calls).length := by
  induction calls generalizing round with
  | nil => rfl
  | cons call calls ih =>
    rw [List.mem_cons, not_or] at h
    have hcall : (round.ask connection call).questions.count .catalogs
        = round.questions.count .catalogs + (round.startOf? connection call).toList.length := by
      cases call with
      | refresh => exact round.count_askRefresh connection
      | catalogs => exact round.count_askRefresh connection
      | databases => exact round.count_askRefresh connection
      | listing query =>
        obtain ⟨-, -, -, -, hquestions⟩ := round.askListing_frame connection query
        exact hquestions .catalogs fun heq => h.1 (congrArg Call.listing heq)
      | cached query => rfl
    rw [List.foldl_cons, ih h.2, hcall, starts, List.length_append, Nat.add_assoc]

/-- Callers keep the interval, if refreshes after them do. -/
theorem paced_starts (connection : Connection) (calls : List Call) (round : Round)
    {later : List Nat}
    (h : Paced round.metadata.interval
      (calls.foldl (ask connection) round).metadata.overview.started
      (calls.foldl (ask connection) round).free later) :
    Paced round.metadata.interval round.metadata.overview.started round.free
      (starts connection round calls ++ later) := by
  induction calls generalizing round with
  | nil => exact h
  | cons call calls ih =>
    have hdoes := round.does_ask connection call
    rw [List.foldl_cons] at h
    rw [starts, List.append_assoc]
    generalize round.ask connection call = after at h hdoes ⊢
    generalize round.startOf? connection call = moment at hdoes ⊢
    cases hdoes with
    | nothing hinterval hstarted hfree =>
      rw [← hinterval] at h
      have hrest := ih after h
      rwa [hinterval, hstarted, hfree] at hrest
    | starts hinterval hdue hstarted hfree =>
      rw [← hinterval] at h
      have hrest := ih after h
      rw [hinterval, hstarted, hfree] at hrest
      exact hrest.start (Nat.le_add_right _ _) hdue

end Round

/-! ### The server -/

/-- What happens while settings stay as they are: callers ask at the same moment, or time passes. -/
inductive ServerAction where
  | calls (connection : Connection) (calls : List Call)
  | time (connection : Connection) (millis : Nat)

/-- What this leads to. -/
def proceed (metadata : Metadata) : ServerAction → Metadata
  | .calls connection calls => (metadata.perform connection calls).1
  | .time connection millis => metadata.advance connection millis

/-- When refreshes start while this happens. -/
def startsIn (metadata : Metadata) : ServerAction → List Nat
  | .calls connection calls => Round.starts connection { metadata, free := metadata.now } calls
  | .time _ _ => []

/-- When refreshes start while one thing happens after the other. -/
def starts : Metadata → List ServerAction → List Nat
  | _, [] => []
  | metadata, action :: actions =>
    metadata.startsIn action ++ (metadata.proceed action).starts actions

/-- What callers that ask together leave. -/
theorem perform_frame (metadata : Metadata) (connection : Connection) (calls : List Call)
    {round : Round}
    (hround : calls.foldl (Round.ask connection) { metadata, free := metadata.now } = round) :
    (metadata.perform connection calls).1.overview = round.metadata.overview
      ∧ (metadata.perform connection calls).1.interval = round.metadata.interval
      ∧ (metadata.perform connection calls).1.now = round.ends connection := by
  unfold perform
  rw [hround]
  dsimp only
  obtain ⟨hoverview, hinterval, -⟩ :=
    foldl_finish_overview connection (fun query => query) round.fetching round.metadata
  rw [(settle_overview _ connection).1, (settle_overview _ connection).2.1,
    (settle_overview _ connection).2.2]
  exact ⟨hoverview, hinterval, rfl⟩

theorem foldl_ask_interval (connection : Connection) (calls : List Call) (round : Round) :
    (calls.foldl (Round.ask connection) round).metadata.interval = round.metadata.interval := by
  induction calls generalizing round with
  | nil => rfl
  | cons call calls ih =>
    rw [List.foldl_cons, ih, (round.does_ask connection call).interval_eq]

/-- **The server keeps the interval in force.** -/
theorem paced_starts (actions : List ServerAction) (metadata : Metadata) :
    Paced metadata.interval metadata.overview.started metadata.now (metadata.starts actions) := by
  induction actions generalizing metadata with
  | nil => exact paced_nil _ _ _
  | cons action actions ih =>
    have hrest := ih (metadata.proceed action)
    rw [starts]
    generalize (metadata.proceed action).starts actions = later at hrest ⊢
    cases action with
    | calls connection calls =>
      obtain ⟨hoverview, hinterval, hnow⟩ := metadata.perform_frame connection calls rfl
      have hkept := foldl_ask_interval connection calls { metadata, free := metadata.now }
      rw [proceed, hoverview, hinterval, hkept, hnow] at hrest
      exact Round.paced_starts connection calls { metadata, free := metadata.now }
        (hrest.wait (Round.free_le_ends _ connection))
    | time connection millis =>
      obtain ⟨hoverview, hinterval, hnow⟩ :=
        settle_overview { metadata with now := metadata.now + millis } connection
      rw [proceed, advance, hoverview, hinterval, hnow] at hrest
      exact hrest.wait (Nat.le_add_right _ _)

theorem Round.fetching_askRefresh (round : Round) (connection : Connection) :
    (round.askRefresh connection).1.fetching = round.fetching := by
  unfold askRefresh
  dsimp only
  split
  · split <;> rfl
  · rfl

/-- A caller for a refresh that is due gets it at once from a connection without delay. -/
theorem proceed_refresh {metadata : Metadata} (hbusy : metadata.overview.busy = false)
    (hdue : isDue metadata.overview.started metadata.now metadata.interval = true) :
    metadata.startsIn (.calls .silent [.refresh]) = [metadata.now]
      ∧ (metadata.proceed (.calls .silent [.refresh])).overview.busy = false
      ∧ (metadata.proceed (.calls .silent [.refresh])).overview.started = some metadata.now
      ∧ (metadata.proceed (.calls .silent [.refresh])).now = metadata.now
      ∧ (metadata.proceed (.calls .silent [.refresh])).interval = metadata.interval := by
  have hround : ({ metadata, free := metadata.now } : Round).metadata.overview.busy = false := hbusy
  obtain ⟨htells, hoverview, hkept, hfree, -, -⟩ := Round.askRefresh_of_due hround hdue .silent
  rw [Overview.ask_of_due hbusy hdue] at hoverview
  obtain ⟨hleft, hinterval, hnow⟩ := metadata.perform_frame .silent [.refresh] rfl
  have hends : (metadata.perform .silent [.refresh]).1.now = metadata.now := by
    rw [hnow, Round.ends, if_pos (by rw [List.isEmpty_iff]; exact Round.fetching_askRefresh _ _)]
    exact hfree
  refine ⟨?_, ?_, ?_, hends, hinterval.trans hkept⟩
  · simp [startsIn, Round.starts, Round.startOf?, wishOf?, htells]
  · rw [proceed, hleft]
    exact congrArg Overview.busy hoverview
  · rw [proceed, hleft]
    exact congrArg Overview.started hoverview

/-- Time passes until a refresh is due, and then a caller gets it. -/
theorem exists_starts_cons {metadata : Metadata} (hbusy : metadata.overview.busy = false)
    {millis : Nat}
    (hdue : isDue metadata.overview.started (metadata.now + millis) metadata.interval = true) :
    ∃ next : Metadata, next.overview.busy = false
      ∧ next.overview.started = some (metadata.now + millis) ∧ next.now = metadata.now + millis
      ∧ next.interval = metadata.interval
      ∧ ∀ actions, metadata.starts (.time .silent millis :: .calls .silent [.refresh] :: actions)
        = (metadata.now + millis) :: next.starts actions := by
  obtain ⟨hoverview, hinterval, hnow⟩ :=
    settle_overview { metadata with now := metadata.now + millis } .silent
  have hstarts : ∀ actions, metadata.starts (.time .silent millis :: actions)
      = (metadata.advance .silent millis).starts actions := fun _ => rfl
  rw [← advance] at hoverview hinterval hnow
  generalize metadata.advance .silent millis = later at hoverview hinterval hnow hstarts
  dsimp only at hoverview hinterval hnow
  rw [← hoverview, ← hnow, ← hinterval] at hdue
  rw [← hoverview] at hbusy
  obtain ⟨hstart, hfree, hstarted, hmoment, hkept⟩ := proceed_refresh hbusy hdue
  refine ⟨_, hfree, hstarted.trans (congrArg some hnow), hmoment.trans hnow,
    hkept.trans hinterval, fun actions => ?_⟩
  rw [hstarts, starts, hstart, hnow]
  rfl

/-- **The interval in force is used up to its last millisecond**: after some time a refresh starts,
    and the next one starts as soon as the interval has passed. -/
theorem exists_starts_eq {metadata : Metadata} (hbusy : metadata.overview.busy = false) :
    ∃ actions start, metadata.starts actions = [start, start + metadata.interval] := by
  -- long enough after the last refresh, whenever it was
  have hdue : isDue metadata.overview.started
      (metadata.now + (metadata.overview.started.getD 0 + metadata.interval))
      metadata.interval = true := by
    cases metadata.overview.started with
    | none => rfl
    | some moment =>
      refine decide_eq_true ?_
      dsimp only [Option.getD_some]
      omega
  obtain ⟨first, hfree, hstarted, hnow, hinterval, hfirst⟩ := exists_starts_cons hbusy hdue
  have hdue' : isDue first.overview.started (first.now + metadata.interval) first.interval
      = true := by
    rw [hstarted, hinterval, hnow]
    refine decide_eq_true ?_
    omega
  obtain ⟨second, -, -, -, -, hsecond⟩ := exists_starts_cons hfree hdue'
  refine ⟨_, _, (hfirst _).trans (congrArg _ ((hsecond []).trans ?_))⟩
  rw [hnow]
  rfl

/-! ### Callers in any order -/

theorem Moves.length_refreshes_le {wish : Wish} {now interval : Nat} {history : OverviewHistory}
    {progress : Progress} {move : Move} (h : Moves wish now interval history progress move) :
    history.refreshes.length ≤ move.history.refreshes.length := by
  cases h <;> simp [OverviewHistory.start, OverviewHistory.alter, OverviewHistory.complete]

/-- What holds of each item and all items before it holds of any two, from some item on. -/
theorem pairwise_drop {α : Type} {related : α → α → Prop} {items : List α} {count : Nat}
    (h : ∀ done item, done ++ [item] <+: items → count < done.length →
      ∀ earlier ∈ done, related earlier item) : (items.drop count).Pairwise related := by
  induction items using List.reverseRecOn with
  | nil => simp
  | append_singleton items item ih =>
    have hitems := ih fun done item hinit => h done item (hinit.trans (List.prefix_append _ _))
    by_cases hcount : count < items.length
    · rw [List.drop_append_of_le_length (Nat.le_of_lt hcount), List.pairwise_append]
      refine ⟨hitems, List.pairwise_singleton _ _, fun earlier hearlier later hlater => ?_⟩
      rw [List.mem_singleton.mp hlater]
      exact h items item List.prefix_rfl hcount earlier (List.mem_of_mem_drop hearlier)
    · rw [List.drop_append, List.drop_eq_nil_of_le (Nat.le_of_not_lt hcount), List.nil_append]
      exact (List.pairwise_singleton _ item).sublist (List.drop_sublist _ _)

namespace RefreshSystem

/-- Whether an event leaves the interval as it is. -/
def Event.keepsInterval : Event → Bool
  | .setInterval _ => false
  | _ => true

theorem interval_next (system : RefreshSystem) {event : Event} (h : event.keepsInterval = true) :
    (system.next event).interval = system.interval := by
  cases event with
  | call wish => rfl
  | step index =>
    show (system.step index).interval = system.interval
    rcases system.step_cases index with heq | ⟨before, caller, after, move, -, -, heq⟩ <;> rw [heq]
  | land index query answer =>
    show (system.land index query answer).interval = system.interval
    rcases system.land_cases index query answer with heq | ⟨caller, -, number, -, heq⟩ <;> rw [heq]
  | setInterval millis => cases h
  | tick millis => rfl

theorem interval_run (system : RefreshSystem) {events : List Event}
    (h : ∀ event ∈ events, event.keepsInterval = true) :
    (system.run events).interval = system.interval := by
  induction events generalizing system with
  | nil => rfl
  | cons event events ih =>
    obtain ⟨hevent, hevents⟩ := List.forall_mem_cons.mp h
    exact (ih (system.next event) hevents).trans (system.interval_next hevent)

/-- The record of refreshes never gets shorter. -/
theorem length_refreshes_le_next (system : RefreshSystem) (event : Event) :
    system.history.refreshes.length ≤ (system.next event).history.refreshes.length := by
  cases event with
  | step index =>
    show system.history.refreshes.length ≤ (system.step index).history.refreshes.length
    rcases system.step_cases index with heq | ⟨before, caller, after, move, -, hmoves, heq⟩
    · exact Nat.le_of_eq (by rw [heq])
    · rw [heq]
      exact hmoves.length_refreshes_le
  | land index query answer =>
    show system.history.refreshes.length ≤ (system.land index query answer).history.refreshes.length
    rcases system.land_cases index query answer with heq | ⟨caller, -, number, -, heq⟩
    · exact Nat.le_of_eq (by rw [heq])
    · simp [heq, OverviewHistory.alter]
  | _ => exact Nat.le_refl _

theorem length_refreshes_le_run (system : RefreshSystem) (events : List Event) :
    system.history.refreshes.length ≤ (system.run events).history.refreshes.length := by
  induction events generalizing system with
  | nil => exact Nat.le_refl _
  | cons event events ih =>
    exact Nat.le_trans (system.length_refreshes_le_next event) (ih (system.next event))

/-- **While an interval is in force, refreshes keep it**, in whatever order callers take
    their steps. -/
theorem pairwise_refreshes (millis : Nat) (events : List Event) {during : List Event}
    (h : ∀ event ∈ during, event.keepsInterval = true) :
    (((after millis events).run during).history.refreshes.drop
        (after millis events).history.refreshes.length).Pairwise
      fun earlier later => earlier.start + (after millis events).interval ≤ later.start := by
  have hsound := sound_after millis (events ++ during)
  rw [after_append] at hsound
  refine pairwise_drop fun done refresh hinit hcount earlier hearlier => ?_
  obtain ⟨⟨_, ⟨past, hpast, rfl⟩, hdone, -, hsame, -⟩, hpassed, hle⟩ :=
    (hsound.history.justified done refresh hinit).checked
  -- the refresh was found due at a moment behind an earlier one, so the interval was in force
  have hinterval : (after millis past).interval = (after millis events).interval := by
    rcases List.prefix_or_prefix_of_prefix hpast (List.prefix_append events during) with
      ⟨more, rfl⟩ | ⟨more, rfl⟩
    · have hlength := length_refreshes_le_run (after millis past) more
      rw [← after_append, hdone] at hlength
      omega
    · rw [after_append]
      have hmore := List.prefix_append_right_inj events |>.mp hpast
      exact interval_run _ fun event hevent => h event (hmore.subset hevent)
  have hspace := hpassed earlier hearlier
  rw [← hsame, hinterval] at hspace
  exact Nat.le_trans hspace hle

end RefreshSystem

/-! ### Settings in force -/

/-- The caches of a server that has just taken settings over, at its start or while it runs. -/
inductive Configured (settings : Settings) : Metadata → Prop where
  | start : Configured settings (Workspace.ofSettings settings).metadata
  | change (workspace : Workspace) (h : Reached workspace.metadata) :
      Configured settings (workspace.configure settings).1.metadata

section Configured

variable {settings : Settings} {metadata : Metadata}

theorem Configured.interval_eq (h : Configured settings metadata) :
    metadata.interval = Word.low64 (settings.metadataRefreshSecs * 1000) := by
  cases h with
  | start => rfl
  | change workspace => rfl

/-- No refresh is under way while settings are taken over. -/
theorem Configured.free (h : Configured settings metadata) : metadata.overview.busy = false := by
  cases h with
  | start => rfl
  | change workspace hreached =>
    obtain ⟨millis, events, hrest⟩ := exists_atRest hreached
    exact hrest.free

end Configured

theorem low64_lt (n : Nat) : Word.low64 n < Word.limit64 := Nat.mod_lt n (by decide)

theorem low64_eq_self_iff {n : Nat} : Word.low64 n = n ↔ n < Word.limit64 := by
  refine ⟨fun h => ?_, Nat.mod_eq_of_lt⟩
  rw [← h]
  exact low64_lt n

/-- **The throttle is as configured exactly when its milliseconds fit in 64 bits.**  The numbers of
    seconds that can be configured are those in 64 bits.  From the moment on at which settings are
    taken over, the interval is what is left of their milliseconds in 64 bits; it is the configured
    one, and no two refreshes of the server start less than the configured time apart, exactly when
    the milliseconds fit in 64 bits.  In whatever order callers take their steps, refreshes are at
    least the interval apart; and each refresh asks for the catalogs once. -/
theorem throttle_as_configured_iff (secs : Nat) :
    (secs < Word.limit64 ↔ ∃ value settings, Settings.ofJson? value = some settings
      ∧ settings.metadataRefreshSecs = secs)
    ∧ (∀ settings : Settings, settings.metadataRefreshSecs = secs →
      (∀ metadata, Configured settings metadata →
        metadata.interval = Word.low64 (secs * 1000)
        ∧ (metadata.interval = secs * 1000 ↔ secs * 1000 < Word.limit64)
        ∧ ((∀ actions, (metadata.starts actions).Pairwise fun earlier later =>
            earlier + secs * 1000 ≤ later)
          ↔ secs * 1000 < Word.limit64))
      ∧ ∀ system during, (system = RefreshSystem.after settings.refreshMillis []
          ∨ ∃ millis events,
            system = RefreshSystem.after millis (events ++ [.setInterval settings.refreshMillis])) →
        (∀ event ∈ during, event.keepsInterval = true) →
          ((system.run during).history.refreshes.drop system.history.refreshes.length).Pairwise
            fun earlier later => earlier.start + Word.low64 (secs * 1000) ≤ later.start)
    ∧ ∀ (metadata : Metadata) connection calls, .listing .catalogs ∉ calls →
      (metadata.perform connection calls).2.2.count .catalogs
        = (metadata.startsIn (.calls connection calls)).length := by
  refine ⟨⟨fun hsecs => ⟨_, _, Settings.ofJson?_metadataRefreshSecs hsecs, rfl⟩, ?_⟩, ?_, ?_⟩
  · rintro ⟨value, settings, hsettings, rfl⟩
    exact Settings.metadataRefreshSecs_lt hsettings
  · rintro settings rfl
    constructor
    · intro metadata hmetadata
      have hinterval := hmetadata.interval_eq
      refine ⟨hinterval, by rw [hinterval, low64_eq_self_iff], fun hapart => ?_,
        fun hfits actions => ?_⟩
      · -- two refreshes that are no further apart than the interval in force
        obtain ⟨actions, start, hstarts⟩ := exists_starts_eq hmetadata.free
        have hpair := hapart actions
        rw [hstarts, hinterval] at hpair
        have hle := List.rel_of_pairwise_cons hpair (List.mem_singleton_self _)
        have hlt := low64_lt (settings.metadataRefreshSecs * 1000)
        omega
      · have hpaced := (paced_starts actions metadata).apart
        rwa [hinterval, low64_eq_self_iff.mpr hfits] at hpaced
    · rintro system during (rfl | ⟨millis, events, rfl⟩) hkeeps
      · exact RefreshSystem.pairwise_refreshes settings.refreshMillis [] hkeeps
      · have hpair := RefreshSystem.pairwise_refreshes millis
          (events ++ [.setInterval settings.refreshMillis]) hkeeps
        rwa [RefreshSystem.after_append] at hpair ⊢
  · intro metadata connection calls hnot
    have hcount := Round.count_starts connection hnot { metadata, free := metadata.now }
    rw [show ({ metadata, free := metadata.now } : Round).questions.count .catalogs = 0 from rfl,
      Nat.zero_add] at hcount
    exact hcount

/-- With a number of seconds whose milliseconds need one more bit, refreshes start after less than
    half a second. -/
theorem interval_cut_off :
    Settings.ofJson? (.object [("metadataRefreshSecs", .ofNat 18446744073709552)])
      = some { metadataRefreshSecs := 18446744073709552 }
    ∧ (Workspace.ofSettings { metadataRefreshSecs := 18446744073709552 }).metadata.interval = 384
    ∧ (Workspace.ofSettings { metadataRefreshSecs := 18446744073709552 }).metadata.starts
        [.calls .silent [.refresh], .time .silent 384, .calls .silent [.refresh]] = [0, 384] := by
  exact ⟨Settings.ofJson?_metadataRefreshSecs (by decide), by decide, by decide⟩

end Metadata

end ScriptServer

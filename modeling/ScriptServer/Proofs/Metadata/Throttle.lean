import ScriptServer.Proofs.Metadata.Refresh

namespace ScriptServer.Metadata

/-!
# One refresh at a time

Whatever callers do and in which order, refreshes come one after the other and not too often, and
the two lists never come from different ones while none is under way.

* `Checked`, `Justified` — why a refresh may start: its caller has found that the interval in force
  has passed.
* `OverviewHistory.Sound`, `RefreshCaller.Fits`, `RefreshSystem.Sound` — what holds at every moment;
  of the gate it is what `Guarded` says.
* `RefreshSystem.Sound.move` — every step of a caller keeps it.
* `RefreshSystem.sound_after` — all this holds after any events.

What holds at a moment may depend on what was the case earlier: the interval may have changed
between the moment at which a caller looks at it and the start of its refresh.  Hence all of the
above is about a set `seen` of earlier moments.
-/

/-- A caller has found, not after a moment, that a refresh is due after these.  No further one had
    started then, and the interval in force had passed since the start of each of them. -/
structure Checked (seen : RefreshSystem → Prop) (done : List Refresh) (check : Check)
    (moment : Nat) : Prop where
  found : ∃ past, seen past ∧ past.history.refreshes = done ∧ past.now = check.moment
    ∧ past.interval = check.interval ∧ ∃ caller ∈ past.callers, caller.progress = .opening check
  passed : ∀ earlier ∈ done, earlier.start + check.interval ≤ check.moment
  le : check.moment ≤ moment

/-- A refresh has started after these, as its caller has found it due. -/
structure Justified (seen : RefreshSystem → Prop) (done : List Refresh) (refresh : Refresh) :
    Prop where
  checked : Checked seen done refresh.check refresh.start
  begun : ∃ past, seen past ∧ past.history.refreshes.length = done.length + 1
    ∧ past.now = refresh.start ∧ past.interval = refresh.interval

/-- What holds of a history at every moment. -/
structure OverviewHistory.Sound (history : OverviewHistory) (seen : RefreshSystem → Prop)
    (now : Nat) : Prop where
  started : history.overview.started = history.refreshes.getLast?.map (·.start)
  past : ∀ refresh ∈ history.refreshes, refresh.start ≤ now
  justified : ∀ done refresh, done ++ [refresh] <+: history.refreshes → Justified seen done refresh
  /-- Only the last refresh may be under way. -/
  settled : ∀ refresh ∈ history.refreshes.dropLast, refresh.ended = true
  cached : ∀ refresh, history.refreshes.getLast? = some refresh → refresh.ended = true →
    refresh.catalogs.names? = some history.overview.catalogs
      ∧ refresh.databases.names? = some history.overview.databases

@[simp] theorem DatabaseRequest.isAsked_unasked : DatabaseRequest.unasked.isAsked = false := rfl

@[simp] theorem DatabaseRequest.isAsked_asked : DatabaseRequest.asked.isAsked = true := rfl

theorem DatabaseRequest.isAsked_eq_false_iff {request : DatabaseRequest} :
    request.isAsked = false ↔ request = .unasked := by
  cases request <;> simp [DatabaseRequest.isAsked]

/-- What a refresh has sent to the database. -/
def Refresh.asked (refresh : Refresh) : List Query :=
  (if refresh.catalogs.isAsked then [.catalogs] else [])
    ++ if refresh.databases.isAsked then [.databases] else []

/-- The refresh with a number is the last one and is under way, and its caller has sent these
    requests. -/
structure OverviewHistory.Underway (history : OverviewHistory) (number : Nat)
    (requests : List Query) (refresh : Refresh) : Prop where
  last : ∃ done, history.refreshes = done ++ [refresh] ∧ done.length = number
  ended : refresh.ended = false
  order : refresh.catalogs.isAsked = false → refresh.databases.isAsked = false
  requests : requests = refresh.asked

/-- The requests of a caller that has started a refresh, or has not. -/
def requestsOf (started : Bool) : List Query := if started then [.catalogs, .databases] else []

/-- What a caller can rely on when it has come this far. -/
def RefreshCaller.Fits (caller : RefreshCaller) (seen : RefreshSystem → Prop) (now : Nat)
    (history : OverviewHistory) : Prop :=
  match caller.progress with
  | .waiting | .admitted => caller.requests = []
  | .measured elapsed =>
    caller.requests = [] ∧ ∀ refresh ∈ history.refreshes, refresh.start + elapsed ≤ now
  | .opening check => caller.requests = [] ∧ Checked seen history.refreshes check now
  | .fetching number => ∃ refresh, history.Underway number caller.requests refresh
  | .storing number catalogs databases =>
    ∃ refresh, history.Underway number caller.requests refresh
      ∧ refresh.catalogs.names? = some catalogs ∧ refresh.databases.names? = some databases
  | .halfway number databases =>
    ∃ refresh, history.Underway number caller.requests refresh
      ∧ refresh.catalogs.names? = some history.overview.catalogs
      ∧ refresh.databases.names? = some databases
  | .leaving started | .left started => caller.requests = requestsOf started
  | .returned started reply =>
    caller.requests = requestsOf started ∧ (caller.wish = .refresh → reply = .refreshed started)

/-- What a caller has to do with the gate depends on how far it has come. -/
def RefreshCaller.roles : Roles RefreshCaller where
  holds caller := caller.progress.holds
  inFlight caller := caller.progress.inFlight
  holds_of_inFlight {caller} h := by
    obtain ⟨wish, progress, requests⟩ := caller
    cases progress <;> simp_all [Progress.inFlight, Progress.holds]

/-- All refreshes have ended. -/
def OverviewHistory.Settled (history : OverviewHistory) : Prop :=
  ∀ refresh ∈ history.refreshes, refresh.ended = true

/-- What holds at every moment. -/
structure RefreshSystem.Sound (system : RefreshSystem) (seen : RefreshSystem → Prop) : Prop where
  history : system.history.Sound seen system.now
  /-- A refresh under way belongs to the caller that holds the gate. -/
  gate : Guarded RefreshCaller.roles system.callers system.history.overview.busy
    system.history.Settled
  fits : ∀ caller ∈ system.callers, caller.Fits seen system.now system.history
  /-- Each refresh has been started by a caller of its own. -/
  counted : system.callers.countP (·.progress.hasStarted) = system.history.refreshes.length

/-! ### Time passes -/

theorem RefreshCaller.Fits.later {caller : RefreshCaller} {seen : RefreshSystem → Prop}
    {now now' : Nat} {history : OverviewHistory} (h : caller.Fits seen now history)
    (hle : now ≤ now') : caller.Fits seen now' history := by
  obtain ⟨wish, progress, requests⟩ := caller
  cases progress with
  | measured elapsed => exact ⟨h.1, fun refresh hmem => Nat.le_trans (h.2 refresh hmem) hle⟩
  | opening check => exact ⟨h.1, { h.2 with le := Nat.le_trans h.2.le hle }⟩
  | _ => exact h

/-- The same at another moment, with another interval. -/
def RefreshSystem.meanwhile (system : RefreshSystem) (now interval : Nat) : RefreshSystem :=
  { system with now, interval }

theorem RefreshSystem.Sound.meanwhile {system : RefreshSystem} {seen : RefreshSystem → Prop}
    (h : system.Sound seen) {now : Nat} (hle : system.now ≤ now) (interval : Nat) :
    (system.meanwhile now interval).Sound seen where
  history :=
    { h.history with past := fun refresh hmem => Nat.le_trans (h.history.past refresh hmem) hle }
  gate := h.gate
  fits := fun caller hcaller => (h.fits caller hcaller).later hle
  counted := h.counted

/-! ### The holder of the gate -/

/-- A caller without the gate relies on nothing that changes. -/
theorem RefreshCaller.Fits.of_not_holds {caller : RefreshCaller} {seen : RefreshSystem → Prop}
    {now : Nat} {history history' : OverviewHistory} (h : caller.Fits seen now history)
    (hholds : caller.progress.holds = false) : caller.Fits seen now history' := by
  obtain ⟨wish, progress, requests⟩ := caller
  cases progress with
  | waiting => exact h
  | left started => exact h
  | returned started reply => exact h
  | _ => cases hholds

namespace RefreshSystem.Sound

variable {system : RefreshSystem} {seen : RefreshSystem → Prop} {before after : List RefreshCaller}
  {caller : RefreshCaller}

theorem guarded (h : system.Sound seen) (hcallers : system.callers = before ++ caller :: after) :
    Guarded RefreshCaller.roles (before ++ caller :: after) system.history.overview.busy
      system.history.Settled := by
  rw [← hcallers]
  exact h.gate

/-- A caller comes further.  Nobody else relies on the history, or it stays as it is; the gate
    changes hands accordingly; and a refresh that its caller leaves has ended. -/
theorem replace (h : system.Sound seen) (hcallers : system.callers = before ++ caller :: after)
    {history : OverviewHistory} {caller' : RefreshCaller} (hhistory : history.Sound seen system.now)
    (hfits : caller'.Fits seen system.now history)
    (hothers : history = system.history ∨ ∀ other ∈ before ++ after, other.progress.holds = false)
    (hgate : (if caller.progress.holds then 1 else 0) + (if history.overview.busy then 1 else 0)
      = [caller'].countP RefreshCaller.roles.holds
        + (if system.history.overview.busy then 1 else 0))
    (hlanded : caller'.progress.inFlight = true
      ∨ (caller.progress.inFlight = false ∧ history.refreshes = system.history.refreshes)
      ∨ history.Settled)
    (hcounted : (if caller.progress.hasStarted then 1 else 0) + history.refreshes.length
      = (if caller'.progress.hasStarted then 1 else 0) + system.history.refreshes.length) :
    RefreshSystem.Sound { system with history, callers := before ++ caller' :: after } seen where
  history := hhistory
  gate := by
    rw [← List.append_nil (before ++ caller' :: after)]
    refine (h.guarded hcallers).replace caller' [] hgate fun hnone => ?_
    have hcaller' : caller'.progress.inFlight = false := hnone caller' List.mem_cons_self
    rcases hlanded with hflight | ⟨hflight, hrefreshes⟩ | hsettled
    · rw [hflight] at hcaller'
      cases hcaller'
    · refine .inr ⟨hflight, fun hsettled => ?_⟩
      rwa [OverviewHistory.Settled, hrefreshes]
    · exact .inl hsettled
  fits := by
    intro other hother
    have hcases : other = caller' ∨ other ∈ before ++ after := by
      simp only [List.mem_append, List.mem_cons] at hother ⊢
      tauto
    rcases hcases with rfl | hin
    · exact hfits
    · have hfits' : other.Fits seen system.now system.history := by
        refine h.fits other ?_
        rw [hcallers]
        simp only [List.mem_append, List.mem_cons] at hin ⊢
        tauto
      rcases hothers with rfl | hnone
      · exact hfits'
      · exact hfits'.of_not_holds (hnone other hin)
  counted := by
    have hcount := h.counted
    rw [hcallers, List.countP_append, List.countP_cons] at hcount
    rw [List.countP_append, List.countP_cons]
    show _ = history.refreshes.length
    omega

end RefreshSystem.Sound

/-! ### Refreshes start, go on and end -/

/-- A refresh is what has become of another, which has started in the same way. -/
structure Refresh.Follows (refresh other : Refresh) : Prop where
  start : refresh.start = other.start
  interval : refresh.interval = other.interval
  check : refresh.check = other.check

theorem Justified.follow {seen : RefreshSystem → Prop} {done : List Refresh}
    {refresh other : Refresh} (h : Justified seen done other) (hfollows : refresh.Follows other) :
    Justified seen done refresh where
  checked := by
    rw [hfollows.check, hfollows.start]
    exact h.checked
  begun := by
    rw [hfollows.start, hfollows.interval]
    exact h.begun

namespace OverviewHistory.Sound

variable {history : OverviewHistory} {seen : RefreshSystem → Prop} {now : Nat}

/-- What has passed since the last refresh has passed since all of them. -/
theorem passed (h : history.Sound seen now) {moment : Nat}
    (hstarted : history.overview.started = some moment) :
    ∀ refresh ∈ history.refreshes, refresh.start + (now - moment) ≤ now := by
  intro refresh hmem
  obtain ⟨done, last, hrefreshes⟩ := (List.eq_nil_or_concat history.refreshes).resolve_left
    (List.ne_nil_of_mem hmem)
  rw [List.concat_eq_append] at hrefreshes
  have hchecked := (h.justified done last ⟨[], by rw [List.append_nil, hrefreshes]⟩).checked
  have hlast := h.past last (by rw [hrefreshes]; exact List.mem_concat_self)
  have hmoment : last.start = moment := by
    have hstarted' := h.started
    rw [hrefreshes, List.getLast?_concat, hstarted] at hstarted'
    exact (Option.some.inj hstarted').symm
  rw [hrefreshes, List.mem_append, List.mem_singleton] at hmem
  rcases hmem with hin | rfl
  · have hearlier := hchecked.passed refresh hin
    have hle := hchecked.le
    omega
  · omega

/-- A refresh may start when all others have ended and there is reason for it. -/
theorem start (h : history.Sound seen now) {interval : Nat} {check : Check}
    (hlanded : history.Settled)
    (hjustified : Justified seen history.refreshes { start := now, interval, check }) :
    (history.start now interval check).Sound seen now where
  started := by simp [OverviewHistory.start, Overview.start]
  past := by
    intro refresh hmem
    rw [OverviewHistory.start, List.mem_append, List.mem_singleton] at hmem
    rcases hmem with hin | rfl
    · exact h.past refresh hin
    · exact Nat.le_refl now
  justified := by
    intro done refresh hinit
    rcases List.prefix_concat_iff.mp hinit with heq | hinit
    · obtain ⟨rfl, hlast⟩ := List.append_inj' heq rfl
      obtain rfl := List.singleton_inj.mp hlast
      exact hjustified
    · exact h.justified done refresh hinit
  settled := by
    intro refresh hmem
    rw [OverviewHistory.start, List.dropLast_concat] at hmem
    exact hlanded refresh hmem
  cached := by
    intro refresh hlast hended
    rw [OverviewHistory.start, List.getLast?_concat, Option.some.injEq] at hlast
    subst hlast
    cases hended

/-- The last refresh changes, but not what is known of its start. -/
theorem change (h : history.Sound seen now) {done : List Refresh} {refresh : Refresh}
    (hrefreshes : history.refreshes = done ++ [refresh]) (overview : Overview) (refresh' : Refresh)
    (hstarted : overview.started = history.overview.started) (hstart : refresh'.Follows refresh)
    (hcached : refresh'.ended = true → refresh'.catalogs.names? = some overview.catalogs
      ∧ refresh'.databases.names? = some overview.databases) :
    OverviewHistory.Sound ⟨overview, done ++ [refresh']⟩ seen now where
  started := by
    have hstarted' := h.started
    rw [hrefreshes, List.getLast?_concat] at hstarted'
    rw [List.getLast?_concat, Option.map_some, hstart.start]
    exact hstarted.trans hstarted'
  past := by
    intro other hmem
    rw [List.mem_append, List.mem_singleton] at hmem
    rcases hmem with hin | rfl
    · exact h.past other (by rw [hrefreshes]; exact List.mem_append_left _ hin)
    · rw [hstart.start]
      exact h.past refresh (by rw [hrefreshes]; exact List.mem_concat_self)
  justified := by
    have hjustified := h.justified
    rw [hrefreshes] at hjustified
    intro done' other hinit
    rcases List.prefix_concat_iff.mp hinit with heq | hinit
    · obtain ⟨rfl, hlast⟩ := List.append_inj' heq rfl
      obtain rfl := List.singleton_inj.mp hlast
      exact (hjustified _ refresh (List.prefix_refl _)).follow hstart
    · exact hjustified done' other (hinit.trans (List.prefix_append _ _))
  settled := by
    intro other hmem
    rw [List.dropLast_concat] at hmem
    exact h.settled other (by rw [hrefreshes, List.dropLast_concat]; exact hmem)
  cached := by
    intro other hlast hended
    rw [List.getLast?_concat, Option.some.injEq] at hlast
    subst hlast
    exact hcached hended

/-- Only the last refresh may be under way. -/
theorem countP_not_ended (h : history.Sound seen now) :
    history.refreshes.countP (fun refresh => !refresh.ended) ≤ 1 :=
  countP_le_one_of_dropLast fun refresh hmem => by rw [h.settled refresh hmem, Bool.not_true]

end OverviewHistory.Sound

namespace OverviewHistory.Underway

variable {history : OverviewHistory} {number : Nat} {requests : List Query} {refresh : Refresh}

/-- It is the refresh with its number. -/
theorem get (h : history.Underway number requests refresh) {other : Refresh}
    (hget : history.refreshes[number]? = some other) : other = refresh := by
  obtain ⟨done, hrefreshes, rfl⟩ := h.last
  rw [hrefreshes, List.getElem?_concat_length] at hget
  exact (Option.some.inj hget).symm

/-- Both requests have been sent when both lists are there. -/
theorem requests_eq (h : history.Underway number requests refresh)
    {catalogs databases : List String} (hcatalogs : refresh.catalogs.names? = some catalogs)
    (hdatabases : refresh.databases.names? = some databases) :
    requests = requestsOf true := by
  have hasked : ∀ {request : DatabaseRequest} {names : List String}, request.names? = some names →
      request.isAsked = true := by
    intro request names hnames
    cases request with
    | answered answer => rfl
    | _ => cases hnames
  rw [h.requests, Refresh.asked, hasked hcatalogs, hasked hdatabases]
  rfl

/-- Something happens to it: the caller sends a request, or an answer comes in. -/
theorem alter (h : history.Underway number requests refresh) {seen : RefreshSystem → Prop}
    {now : Nat} (hhistory : history.Sound seen now) (change : Refresh → Refresh)
    (sends : List Query) (hstart : (change refresh).Follows refresh)
    (hended : (change refresh).ended = false)
    (horder : (change refresh).catalogs.isAsked = false →
      (change refresh).databases.isAsked = false)
    (hasked : refresh.asked ++ sends = (change refresh).asked) :
    (history.alter number change).Sound seen now
      ∧ (history.alter number change).Underway number (requests ++ sends) (change refresh) := by
  obtain ⟨done, hrefreshes, rfl⟩ := h.last
  have halter : history.alter done.length change
      = ⟨history.overview, done ++ [change refresh]⟩ := by
    rw [OverviewHistory.alter, hrefreshes, modify_last]
  rw [halter]
  refine ⟨hhistory.change hrefreshes history.overview _ rfl hstart fun hended' => ?_,
    ⟨done, rfl, rfl⟩, hended, horder, ?_⟩
  · rw [hended] at hended'
    cases hended'
  · rw [h.requests, hasked]

/-- While it is under way, the lists may change. -/
theorem stores (h : history.Underway number requests refresh) {seen : RefreshSystem → Prop}
    {now : Nat} (hhistory : history.Sound seen now) (overview : Overview)
    (hstarted : overview.started = history.overview.started) :
    OverviewHistory.Sound { history with overview } seen now := by
  obtain ⟨done, hrefreshes, -⟩ := h.last
  have hchange := hhistory.change hrefreshes overview refresh hstarted ⟨rfl, rfl, rfl⟩
    fun hended => by
      rw [h.ended] at hended
      cases hended
  rwa [← hrefreshes] at hchange

/-- It ends when the databases are stored after the catalogs. -/
theorem complete (h : history.Underway number requests refresh) {seen : RefreshSystem → Prop}
    {now : Nat} (hhistory : history.Sound seen now) {databases : List String}
    (hcatalogs : refresh.catalogs.names? = some history.overview.catalogs)
    (hdatabases : refresh.databases.names? = some databases) :
    (history.complete number databases).Sound seen now
      ∧ (history.complete number databases).Settled := by
  obtain ⟨done, hrefreshes, rfl⟩ := h.last
  have hcomplete : history.complete done.length databases
      = ⟨history.overview.storeDatabases databases, done ++ [{ refresh with ended := true }]⟩ := by
    rw [OverviewHistory.complete, hrefreshes, modify_last]
  rw [hcomplete]
  refine ⟨hhistory.change hrefreshes (history.overview.storeDatabases databases)
    { refresh with ended := true } rfl ⟨rfl, rfl, rfl⟩ fun _ => ⟨hcatalogs, hdatabases⟩,
    fun other hmem => ?_⟩
  rw [List.mem_append, List.mem_singleton] at hmem
  rcases hmem with hin | rfl
  · exact hhistory.settled other (by rw [hrefreshes, List.dropLast_concat]; exact hin)
  · rfl

end OverviewHistory.Underway

/-- Of a refresh that an answer comes to, only the answer changes. -/
theorem Refresh.receive_frame (refresh : Refresh) (query : Query)
    (answer : Option (List String)) :
    (refresh.receive query answer).Follows refresh
      ∧ (refresh.receive query answer).ended = refresh.ended
      ∧ (refresh.receive query answer).catalogs.isAsked = refresh.catalogs.isAsked
      ∧ (refresh.receive query answer).databases.isAsked = refresh.databases.isAsked := by
  have hasked : ∀ request : DatabaseRequest,
      (request.receive answer).isAsked = request.isAsked := by
    intro request
    cases request <;> rfl
  cases query with
  | catalogs => exact ⟨⟨rfl, rfl, rfl⟩, rfl, hasked _, rfl⟩
  | databases => exact ⟨⟨rfl, rfl, rfl⟩, rfl, rfl, hasked _⟩
  | _ => exact ⟨⟨rfl, rfl, rfl⟩, rfl, rfl, rfl⟩

/-- A request that has been sent can be answered. -/
theorem Refresh.exists_receive_ne {refresh : Refresh}
    (h : refresh.catalogs = .asked ∨ refresh.databases = .asked) :
    ∃ query, ∀ answer, refresh.receive query answer ≠ refresh := by
  obtain ⟨start, interval, check, catalogs, databases, ended⟩ := refresh
  rcases h with hcatalogs | hdatabases
  · obtain rfl : catalogs = .asked := hcatalogs
    exact ⟨.catalogs, fun answer => by simp [Refresh.receive, DatabaseRequest.receive]⟩
  · obtain rfl : databases = .asked := hdatabases
    exact ⟨.databases, fun answer => by simp [Refresh.receive, DatabaseRequest.receive]⟩

/-! ### Every event -/

namespace RefreshSystem.Sound

variable {system : RefreshSystem} {seen : RefreshSystem → Prop} {before after : List RefreshCaller}
  {caller : RefreshCaller}

/-- **Every step of a caller keeps what holds at every moment.** -/
theorem move (h : system.Sound seen) (hcallers : system.callers = before ++ caller :: after)
    {move : Move}
    (hmoves : Moves caller.wish system.now system.interval system.history caller.progress move)
    {system' : RefreshSystem} (hsystem : system' = { system with
      history := move.history
      callers := before ++ ⟨caller.wish, move.progress, caller.requests ++ move.sends⟩ :: after })
    (hseen : seen system') : system'.Sound seen := by
  have hfits : caller.Fits seen system.now system.history :=
    h.fits caller (by rw [hcallers]; exact List.mem_append_right _ List.mem_cons_self)
  obtain ⟨wish, progress, requests⟩ := caller
  cases hmoves with
  | enters hfree =>
    rw [hsystem, List.append_nil]
    have hgate := h.guarded hcallers
    rw [hfree] at hgate
    refine h.replace hcallers { h.history with } hfits (.inr fun other hother => ?_)
      (by simp [RefreshCaller.roles, Progress.holds, hfree]) (.inr (.inl ⟨rfl, rfl⟩)) rfl
    refine hgate.nobody other ?_
    simp only [List.mem_append, List.mem_cons] at hother ⊢
    tauto
  | opens hstarted =>
    -- nothing has started, so there is nothing to wait for
    have hnil : system.history.refreshes = [] := by
      have hnone := h.history.started
      rw [hstarted] at hnone
      simpa using hnone.symm
    have hchecked : Checked seen system.history.refreshes ⟨system.now, system.interval⟩
        system.now := by
      refine ⟨⟨system', hseen, ?_⟩, ?_, Nat.le_refl _⟩
      · rw [hsystem]
        exact ⟨rfl, rfl, rfl, _, List.mem_append_right _ List.mem_cons_self, rfl⟩
      · rw [hnil]
        exact fun earlier hmem => absurd hmem List.not_mem_nil
    rw [hsystem, List.append_nil]
    exact h.replace hcallers h.history ⟨hfits, hchecked⟩ (.inl rfl) rfl
      (.inr (.inl ⟨rfl, rfl⟩)) rfl
  | measures hstarted =>
    rw [hsystem, List.append_nil]
    exact h.replace hcallers h.history ⟨hfits, h.history.passed hstarted⟩ (.inl rfl) rfl
      (.inr (.inl ⟨rfl, rfl⟩)) rfl
  | keeps _ =>
    rw [hsystem, List.append_nil]
    exact h.replace hcallers h.history hfits.1 (.inl rfl) rfl (.inr (.inl ⟨rfl, rfl⟩)) rfl
  | renews hle =>
    -- this is the moment at which the caller has seen the interval
    have hchecked : Checked seen system.history.refreshes ⟨system.now, system.interval⟩
        system.now := by
      refine ⟨⟨system', hseen, ?_⟩, fun earlier hmem => ?_, Nat.le_refl _⟩
      · rw [hsystem]
        exact ⟨rfl, rfl, rfl, _, List.mem_append_right _ List.mem_cons_self, rfl⟩
      · have hpassed := hfits.2 earlier hmem
        dsimp only
        omega
    rw [hsystem, List.append_nil]
    exact h.replace hcallers h.history ⟨hfits.1, hchecked⟩ (.inl rfl) rfl
      (.inr (.inl ⟨rfl, rfl⟩)) rfl
  | @starts check =>
    have hjustified : Justified seen system.history.refreshes
        { start := system.now, interval := system.interval, check } := by
      refine ⟨hfits.2, system', hseen, ?_⟩
      rw [hsystem]
      exact ⟨by simp [OverviewHistory.start], rfl, rfl⟩
    have hhistory := h.history.start ((h.guarded hcallers).settled_of_holds rfl rfl) hjustified
    rw [hsystem, List.append_nil]
    refine h.replace hcallers hhistory ⟨_, ⟨_, rfl, rfl⟩, rfl, fun _ => rfl, hfits.1⟩
      (.inr ((h.guarded hcallers).alone rfl).2) rfl (.inl rfl) ?_
    simp [Progress.hasStarted, OverviewHistory.start, Nat.add_comm]
  | asksCatalogs hget hunasked =>
    obtain ⟨refresh, hunderway⟩ := hfits
    obtain rfl := hunderway.get hget
    have hdatabases := hunderway.order (by rw [hunasked]; rfl)
    obtain ⟨hhistory, hunderway'⟩ := hunderway.alter h.history
      (fun refresh => { refresh with catalogs := .asked }) [.catalogs] ⟨rfl, rfl, rfl⟩
      hunderway.ended
      (fun hnone => Bool.noConfusion hnone)
      (by simp [Refresh.asked, hunasked, hdatabases])
    rw [hsystem]
    exact h.replace hcallers hhistory ⟨_, hunderway'⟩ (.inr ((h.guarded hcallers).alone rfl).2) rfl
      (.inl rfl) (by rw [OverviewHistory.alter, List.length_modify])
  | @asksDatabases _ _ hget hcatalogs hunasked =>
    obtain ⟨refresh, hunderway⟩ := hfits
    obtain rfl := hunderway.get hget
    obtain ⟨hhistory, hunderway'⟩ := hunderway.alter h.history
      (fun refresh => { refresh with databases := .asked }) [.databases] ⟨rfl, rfl, rfl⟩
      hunderway.ended
      (fun hnone => absurd (DatabaseRequest.isAsked_eq_false_iff.mp hnone) hcatalogs)
      (by simp [Refresh.asked, hunasked])
    rw [hsystem]
    exact h.replace hcallers hhistory ⟨_, hunderway'⟩ (.inr ((h.guarded hcallers).alone rfl).2) rfl
      (.inl rfl) (by rw [OverviewHistory.alter, List.length_modify])
  | gathers hget hcatalogs hdatabases =>
    obtain ⟨refresh, hunderway⟩ := hfits
    obtain rfl := hunderway.get hget
    rw [hsystem, List.append_nil]
    exact h.replace hcallers h.history ⟨_, hunderway, hcatalogs, hdatabases⟩ (.inl rfl) rfl
      (.inl rfl) rfl
  | storesCatalogs =>
    obtain ⟨refresh, hunderway, hcatalogs, hdatabases⟩ := hfits
    rw [hsystem, List.append_nil]
    refine h.replace hcallers (hunderway.stores h.history _ rfl)
      ⟨refresh, { hunderway with }, hcatalogs, hdatabases⟩
      (.inr ((h.guarded hcallers).alone rfl).2) rfl (.inl rfl) rfl
  | storesDatabases =>
    obtain ⟨refresh, hunderway, hcatalogs, hdatabases⟩ := hfits
    obtain ⟨hhistory, hended⟩ := hunderway.complete h.history hcatalogs hdatabases
    rw [hsystem, List.append_nil]
    exact h.replace hcallers hhistory (hunderway.requests_eq hcatalogs hdatabases)
      (.inr ((h.guarded hcallers).alone rfl).2) rfl (.inr (.inr hended))
      (by rw [OverviewHistory.complete, List.length_modify]; rfl)
  | leaves =>
    rw [hsystem, List.append_nil]
    refine h.replace hcallers { h.history with } hfits (.inr ((h.guarded hcallers).alone rfl).2) ?_
      (.inr (.inl ⟨rfl, rfl⟩)) rfl
    simp [RefreshCaller.roles, Progress.holds, Overview.leave,
      ((h.guarded hcallers).alone rfl).1]
  | reads =>
    rw [hsystem, List.append_nil]
    refine h.replace hcallers h.history ⟨hfits, fun hwish => ?_⟩ (.inl rfl) rfl
      (.inr (.inl ⟨rfl, rfl⟩)) rfl
    obtain rfl : wish = .refresh := hwish
    rfl

/-- An answer may come in at any time. -/
theorem land (h : system.Sound seen) (index : Nat) (query : Query) (answer : Option (List String)) :
    (system.land index query answer).Sound seen := by
  rcases system.land_cases index query answer with heq | ⟨caller, hcaller, number, hprogress, heq⟩
  · rwa [heq]
  · obtain ⟨before, after, hcallers⟩ := List.append_of_mem hcaller
    have hfits := h.fits caller hcaller
    rw [RefreshCaller.Fits, hprogress] at hfits
    obtain ⟨refresh, hunderway⟩ := hfits
    obtain ⟨hstart, hended, hcatalogs, hdatabases⟩ := refresh.receive_frame query answer
    obtain ⟨hhistory, hunderway'⟩ := hunderway.alter h.history (·.receive query answer) [] hstart
      (hended.trans hunderway.ended) (by rw [hcatalogs, hdatabases]; exact hunderway.order)
      (by rw [List.append_nil, Refresh.asked, Refresh.asked, hcatalogs, hdatabases])
    have hholds : caller.progress.holds = true := by rw [hprogress]; rfl
    have hfits' : caller.Fits seen system.now
        (system.history.alter number (·.receive query answer)) := by
      rw [RefreshCaller.Fits, hprogress]
      rw [List.append_nil] at hunderway'
      exact ⟨_, hunderway'⟩
    have hreplace := h.replace hcallers hhistory hfits'
      (.inr ((h.guarded hcallers).alone hholds).2) (by rw [List.countP_singleton]; rfl)
      (.inl (by rw [hprogress]; rfl)) (by rw [OverviewHistory.alter, List.length_modify])
    rw [← hcallers] at hreplace
    rwa [heq]

/-- Somebody may call at any time. -/
theorem call (h : system.Sound seen) (wish : Wish) :
    RefreshSystem.Sound { system with callers := system.callers ++ [{ wish }] } seen where
  history := h.history
  gate := h.gate.add rfl
  fits := by
    intro caller hcaller
    rw [List.mem_append, List.mem_singleton] at hcaller
    rcases hcaller with hin | rfl
    · exact h.fits caller hin
    · exact rfl
  counted := by
    rw [List.countP_append, h.counted]
    rfl

/-- **Every event keeps what holds at every moment.** -/
theorem next (h : system.Sound seen) (event : Event) (hseen : seen (system.next event)) :
    (system.next event).Sound seen := by
  cases event with
  | call wish => exact h.call wish
  | step index =>
    rcases system.step_cases index with heq | ⟨before, caller, after, move, hcallers, hmoves, heq⟩
    · show (system.step index).Sound seen
      rwa [heq]
    · exact h.move hcallers hmoves heq hseen
  | land index query answer => exact h.land index query answer
  | setInterval millis => exact h.meanwhile (Nat.le_refl _) _
  | tick millis => exact h.meanwhile (Nat.le_add_right _ _) _

end RefreshSystem.Sound

namespace RefreshSystem

theorem sound_run {system : RefreshSystem} {seen : RefreshSystem → Prop} (h : system.Sound seen)
    {events : List Event} (hseen : ∀ past, past <+: events → seen (system.run past)) :
    (system.run events).Sound seen := by
  induction events generalizing system with
  | nil => exact h
  | cons event events ih =>
    have hnext : seen (system.next event) :=
      hseen [event] (List.cons_prefix_cons.mpr ⟨rfl, List.nil_prefix⟩)
    exact ih (h.next event hnext) fun past hinit =>
      hseen (event :: past) (List.cons_prefix_cons.mpr ⟨rfl, hinit⟩)

theorem sound_empty (interval : Nat) (seen : RefreshSystem → Prop) :
    RefreshSystem.Sound { interval } seen where
  history :=
    { started := rfl
      past := fun _ h => nomatch h
      justified := fun done refresh hinit => by simp at hinit
      settled := fun _ h => nomatch h
      cached := fun _ h => nomatch h }
  gate := ⟨rfl, fun _ _ h => nomatch h⟩
  fits := fun _ h => nomatch h
  counted := rfl

/-- **What holds after any events from the beginning.** -/
theorem sound_after (millis : Nat) (events : List Event) :
    (after millis events).Sound fun system =>
      ∃ past, past <+: events ∧ after millis past = system :=
  sound_run (sound_empty _ _) fun past hinit => ⟨past, hinit, rfl⟩

end RefreshSystem

/-! ### What goes to the database and what comes of it -/

theorem DatabaseRequest.answered_of_names? {request : DatabaseRequest} {names : List String}
    (h : request.names? = some names) :
    ∃ answer, request = .answered answer ∧ names = answer.getD [] := by
  cases request with
  | answered answer => exact ⟨answer, rfl, (Option.some.inj h).symm⟩
  | _ => cases h

/-- A caller sends each of the two requests once at most, first the one for the catalogs. -/
theorem RefreshCaller.Fits.requests_init {caller : RefreshCaller} {seen : RefreshSystem → Prop}
    {now : Nat} {history : OverviewHistory} (h : caller.Fits seen now history) :
    caller.requests <+: [.catalogs, .databases] := by
  have hunderway : ∀ {number : Nat} {refresh : Refresh},
      history.Underway number caller.requests refresh →
        caller.requests <+: [.catalogs, .databases] := by
    intro number refresh hunderway
    rw [hunderway.requests, Refresh.asked]
    cases hcatalogs : refresh.catalogs.isAsked with
    | false => simp [hunderway.order hcatalogs]
    | true => cases hdatabases : refresh.databases.isAsked <;> simp
  have hwhole : ∀ {started : Bool}, caller.requests = requestsOf started →
      caller.requests <+: [.catalogs, .databases] := by
    intro started hrequests
    rw [hrequests]
    cases started <;> simp [requestsOf]
  have hnone : caller.requests = [] → caller.requests <+: [.catalogs, .databases] := by
    intro hrequests
    rw [hrequests]
    exact List.nil_prefix
  unfold RefreshCaller.Fits at h
  split at h
  · exact hnone h
  · exact hnone h
  · exact hnone h.1
  · exact hnone h.1
  · exact hunderway h.choose_spec
  · exact hunderway h.choose_spec.1
  · exact hunderway h.choose_spec.1
  · exact hwhole h
  · exact hwhole h
  · exact hwhole h.1

/-- While no refresh is under way, both lists are what the last one has brought. -/
theorem RefreshSystem.Sound.answers {system : RefreshSystem} {seen : RefreshSystem → Prop}
    (h : system.Sound seen) (hnone : ∀ caller ∈ system.callers, caller.progress.inFlight = false)
    {last : Refresh} (hlast : system.history.refreshes.getLast? = some last) :
    ∃ catalogs databases, last.catalogs = .answered catalogs ∧ last.databases = .answered databases
      ∧ system.history.overview.catalogs = catalogs.getD []
      ∧ system.history.overview.databases = databases.getD [] := by
  have hended := h.gate.landed hnone last (List.mem_of_getLast? hlast)
  obtain ⟨hcatalogs, hdatabases⟩ := h.history.cached last hlast hended
  obtain ⟨catalogs, hcatalogs, hnames⟩ := DatabaseRequest.answered_of_names? hcatalogs
  obtain ⟨databases, hdatabases, hnames'⟩ := DatabaseRequest.answered_of_names? hdatabases
  exact ⟨catalogs, databases, hcatalogs, hdatabases, hnames, hnames'⟩

/-- A caller that has come to its end has sent both requests or none, as its reply says. -/
theorem RefreshSystem.Sound.replied {system : RefreshSystem} {seen : RefreshSystem → Prop}
    (h : system.Sound seen) {caller : RefreshCaller} (hcaller : caller ∈ system.callers)
    {started : Bool} {reply : Reply} (hprogress : caller.progress = .returned started reply) :
    (started = true ↔ caller.requests = [.catalogs, .databases])
      ∧ (started = false ↔ caller.requests = [])
      ∧ (caller.wish = .refresh → reply = .refreshed started) := by
  have hfits := h.fits caller hcaller
  rw [RefreshCaller.Fits, hprogress] at hfits
  obtain ⟨hrequests, hreply⟩ := hfits
  refine ⟨?_, ?_, hreply⟩
  · rw [hrequests]
    cases started <;> simp [requestsOf]
  · rw [hrequests]
    cases started <;> simp [requestsOf]

end ScriptServer.Metadata

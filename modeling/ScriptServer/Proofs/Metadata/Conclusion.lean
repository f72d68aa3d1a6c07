import ScriptServer.Proofs.Metadata.Throttle

namespace ScriptServer.Metadata

/-!
# Every caller gets a reply

Somebody who calls for a refresh may have to wait for another one, but never for ever.

* `RefreshSystem.work` — how much there is still to do; each step and each answer makes it less.
* `RefreshSystem.Concludes` — wherever steps and answers lead, callers come to their end.
* `RefreshSystem.Sound.can_move` — as long as there is something to do, it can be done.
* `RefreshSystem.Sound.concludes` — all callers come to their end.
-/

/-- An upper bound for the steps that a caller still takes, besides those for its requests. -/
def Progress.work : Progress → Nat
  | .returned _ _ => 0
  | .left _ => 1
  | .leaving _ => 2
  | .halfway _ _ => 3
  | .storing _ _ _ => 4
  | .fetching _ => 5
  | .opening _ => 10
  | .measured _ => 11
  | .admitted => 12
  | .waiting => 13

/-- What there is still to do for a request: it is sent, and the answer comes in. -/
def DatabaseRequest.work : DatabaseRequest → Nat
  | .unasked => 2
  | .asked => 1
  | .answered _ => 0

/-- The same for both requests of a refresh. -/
def Refresh.work (refresh : Refresh) : Nat := refresh.catalogs.work + refresh.databases.work

/-- Nothing changes if the item stays as it is. -/
theorem modify_eq_self {α : Type} {items : List α} {index : Nat} {change : α → α}
    (h : ∀ item, items[index]? = some item → change item = item) :
    items.modify index change = items := by
  refine List.ext_getElem? fun other => ?_
  rw [List.getElem?_modify]
  cases hget : items[other]? with
  | none => rfl
  | some item =>
    by_cases heq : index = other
    · subst heq
      simp [h item hget]
    · simp [heq]

/-- An answer that comes to a request brings the end nearer. -/
theorem Refresh.work_receive (refresh : Refresh) (query : Query) (answer : Option (List String)) :
    refresh.receive query answer = refresh
      ∨ (refresh.receive query answer).work < refresh.work := by
  obtain ⟨start, interval, check, catalogs, databases, ended⟩ := refresh
  cases query with
  | catalogs =>
    cases catalogs <;>
      simp [Refresh.receive, DatabaseRequest.receive, Refresh.work, DatabaseRequest.work]
  | databases =>
    cases databases <;>
      simp [Refresh.receive, DatabaseRequest.receive, Refresh.work, DatabaseRequest.work]
  | _ => exact .inl rfl

namespace RefreshSystem

/-- An upper bound for the steps that callers still take and the answers that still come in. -/
def work (system : RefreshSystem) : Nat :=
  (system.callers.map (·.progress.work)).sum + (system.history.refreshes.map Refresh.work).sum

/-- A step brings the end nearer. -/
theorem work_moves {system : RefreshSystem} {before after : List RefreshCaller}
    {caller : RefreshCaller} (hcallers : system.callers = before ++ caller :: after) {move : Move}
    (h : Moves caller.wish system.now system.interval system.history caller.progress move) :
    work { system with
      history := move.history
      callers := before
        ++ ⟨caller.wish, move.progress, caller.requests ++ move.sends⟩ :: after }
      < system.work := by
  have hless : move.progress.work + (move.history.refreshes.map Refresh.work).sum
      < caller.progress.work + (system.history.refreshes.map Refresh.work).sum := by
    obtain ⟨wish, progress, requests⟩ := caller
    cases h with
    | starts =>
      simp only [Progress.work, OverviewHistory.start, List.map_append, List.map_cons, List.map_nil,
        List.sum_append_nat, List.sum_cons, List.sum_nil, Refresh.work, DatabaseRequest.work]
      omega
    | @asksCatalogs number refresh hget hunasked =>
      have hsum := sum_map_modify Refresh.work hget
        fun refresh => { refresh with catalogs := .asked }
      simp only [Refresh.work, hunasked, DatabaseRequest.work] at hsum
      simp only [OverviewHistory.alter]
      omega
    | @asksDatabases number refresh hget _ hunasked =>
      have hsum := sum_map_modify Refresh.work hget
        fun refresh => { refresh with databases := .asked }
      simp only [Refresh.work, hunasked, DatabaseRequest.work] at hsum
      simp only [OverviewHistory.alter]
      omega
    | @storesDatabases number databases =>
      -- what a refresh has asked for does not depend on whether it has ended
      have hsum : ((system.history.complete number databases).refreshes.map Refresh.work).sum
          = (system.history.refreshes.map Refresh.work).sum := by
        cases hget : system.history.refreshes[number]? with
        | none =>
          rw [OverviewHistory.complete, List.modify_eq_self (List.getElem?_eq_none_iff.mp hget)]
        | some refresh =>
          exact Nat.add_right_cancel (sum_map_modify Refresh.work hget
            fun refresh => { refresh with ended := true })
      simp only [hsum, Progress.work]
      omega
    | _ => simp [Progress.work]
  simp only [work, hcallers, List.map_append, List.map_cons, List.sum_append_nat, List.sum_cons]
  omega

theorem work_step {system : RefreshSystem} {index : Nat} (h : system.step index ≠ system) :
    (system.step index).work < system.work := by
  rcases system.step_cases index with heq | ⟨before, caller, after, move, hcallers, hmoves, heq⟩
  · exact absurd heq h
  · rw [heq]
    exact work_moves hcallers hmoves

/-- An answer to a request that waits for one brings the end nearer. -/
theorem work_alter {system : RefreshSystem} {number : Nat} {refresh : Refresh}
    (hget : system.history.refreshes[number]? = some refresh) {query : Query}
    {answer : Option (List String)} (hne : refresh.receive query answer ≠ refresh) :
    work { system with history := system.history.alter number (·.receive query answer) }
      < system.work := by
  have hless := (refresh.work_receive query answer).resolve_left hne
  have hsum := sum_map_modify Refresh.work hget (·.receive query answer)
  simp only [work, OverviewHistory.alter]
  omega

theorem work_land {system : RefreshSystem} {index : Nat} {query : Query}
    {answer : Option (List String)} (h : system.land index query answer ≠ system) :
    (system.land index query answer).work < system.work := by
  rcases system.land_cases index query answer with heq | ⟨caller, -, number, -, heq⟩
  · exact absurd heq h
  · rw [heq] at h ⊢
    by_cases hsame : ∀ refresh, system.history.refreshes[number]? = some refresh →
        refresh.receive query answer = refresh
    · exact absurd (by rw [OverviewHistory.alter, modify_eq_self hsame]) h
    · obtain ⟨refresh, hget, hne⟩ : ∃ refresh, system.history.refreshes[number]? = some refresh
          ∧ refresh.receive query answer ≠ refresh := by simpa using hsame
      exact work_alter hget hne

/-- An answer to a request that waits for one changes the system. -/
theorem land_ne {system : RefreshSystem} {before after : List RefreshCaller}
    {caller : RefreshCaller} {number : Nat} (hcallers : system.callers = before ++ caller :: after)
    (hprogress : caller.progress = .fetching number) {refresh : Refresh}
    (hget : system.history.refreshes[number]? = some refresh) {query : Query}
    {answer : Option (List String)} (hne : refresh.receive query answer ≠ refresh) :
    system.land before.length query answer ≠ system := by
  have hland : system.land before.length query answer
      = { system with history := system.history.alter number (·.receive query answer) } := by
    obtain ⟨wish, progress, requests⟩ := caller
    obtain rfl : progress = .fetching number := hprogress
    simp [land, hcallers]
  have hless := work_alter hget hne
  rw [← hland] at hless
  exact fun heq => Nat.ne_of_lt hless (congrArg work heq)

/-- What can happen to callers.  While time passes, there may be a new interval. -/
def dynamics : Dynamics RefreshSystem where
  Later here later := ∃ moment interval, here.now ≤ moment ∧ later = here.meanwhile moment interval
  Steps here next := ∃ index, here.step index ≠ here ∧ next = here.step index
  Lands here next :=
    ∃ index query answer, here.land index query answer ≠ here ∧ next = here.land index query answer
  Awaits here := ∃ index query, ∀ answer, here.land index query answer ≠ here
  Ended here := ∀ caller ∈ here.callers, caller.progress.isReturned = true

/-- From a moment on, callers come to their end. -/
def Concludes (system : RefreshSystem) : Prop := dynamics.Concludes system

/-- A caller that has sent a request waits for the answer to it. -/
theorem Sound.awaits {system : RefreshSystem} {seen : RefreshSystem → Prop} (h : system.Sound seen)
    {before after : List RefreshCaller} {caller : RefreshCaller}
    (hcallers : system.callers = before ++ caller :: after) {number : Nat}
    (hprogress : caller.progress = .fetching number)
    (hasked : ∀ refresh, system.history.refreshes[number]? = some refresh →
      refresh.catalogs = .asked ∨ refresh.databases = .asked) : dynamics.Awaits system := by
  have hfits := h.fits caller (by rw [hcallers]; exact List.mem_append_right _ List.mem_cons_self)
  rw [RefreshCaller.Fits, hprogress] at hfits
  obtain ⟨refresh, hunderway⟩ := hfits
  obtain ⟨done, hrefreshes, rfl⟩ := hunderway.last
  have hget : system.history.refreshes[done.length]? = some refresh := by
    rw [hrefreshes, List.getElem?_concat_length]
  obtain ⟨query, hne⟩ := Refresh.exists_receive_ne (hasked refresh hget)
  exact ⟨before.length, query, fun answer => land_ne hcallers hprogress hget (hne answer)⟩

/-- As long as a caller has not come to its end, one of the callers can take a step or waits for an
    answer. -/
theorem Sound.can_move {system : RefreshSystem} {seen : RefreshSystem → Prop}
    (h : system.Sound seen) {caller : RefreshCaller} (hcaller : caller ∈ system.callers)
    (hopen : ¬ caller.progress.isReturned = true) :
    (∃ next, dynamics.Steps system next) ∨ dynamics.Awaits system := by
  refine h.gate.moves_of_open (fun caller => caller.progress.isReturned = true)
    (fun caller hcaller => ?_) ?_ hcaller hopen
  · obtain ⟨before, after, hcallers⟩ := List.append_of_mem hcaller
    cases hact : caller.act system.now system.interval system.history with
    | some move =>
      have hless := work_moves hcallers (RefreshCaller.moves_of_act hact)
      rw [← step_eq hcallers hact] at hless
      exact .inl (.inl ⟨_, before.length, fun heq => Nat.ne_of_lt hless (congrArg work heq), rfl⟩)
    | none =>
      rcases RefreshCaller.act_eq_none hact with
        ⟨hprogress, hbusy⟩ | ⟨number, hprogress, hasked⟩ | hreturned
      · exact .inr (.inl ⟨by simp [RefreshCaller.roles, hprogress, Progress.holds], hbusy⟩)
      · exact .inl (.inr (h.awaits hcallers hprogress hasked))
      · exact .inr (.inr hreturned)
  · rintro ⟨wish, progress, requests⟩ hreturned
    cases progress with
    | returned started reply => rfl
    | _ => cases hreturned

/-- **All callers come to their end.** -/
theorem Sound.concludes {system : RefreshSystem} (h : system.Sound fun _ => True) :
    system.Concludes := by
  refine dynamics.concludes (fun here => here.Sound fun _ => True) work ?_ ?_ ?_ h
  · rintro here _ hsound ⟨moment, interval, hle, rfl⟩
    exact ⟨hsound.meanwhile hle interval, rfl⟩
  · rintro here _ hsound (⟨index, hne, rfl⟩ | ⟨index, query, answer, hne, rfl⟩)
    · exact ⟨hsound.next (.step index) trivial, work_step hne⟩
    · exact ⟨hsound.land index query answer, work_land hne⟩
  · rintro here _ hsound hopen ⟨moment, interval, hle, rfl⟩
    obtain ⟨caller, hcaller, hopen⟩ :
        ∃ caller ∈ here.callers, ¬ caller.progress.isReturned = true := by
      simpa [dynamics] using hopen
    exact (hsound.meanwhile hle interval).can_move hcaller hopen

theorem concludes_after (millis : Nat) (events : List Event) : (after millis events).Concludes :=
  Sound.concludes (sound_run (sound_empty _ _) fun _ _ => trivial)

end RefreshSystem

end ScriptServer.Metadata

import ScriptServer.Proofs.Metadata.Gate
import ScriptServer.Proofs.Metadata.KeyState

namespace ScriptServer.Metadata

/-!
# One fetch at a time

Whatever callers do and in which order, the fetches of a key come one after the other and not too
often, and no value is made up or lost.

* `SlotHistory.Sound`, `Task.Fits`, `KeyState.Sound` — what holds of a key at every moment; of the
  gate it is what `Guarded` says.
* `KeyState.Sound.act` — every step of a task keeps it.
* `KeyState.Sound.concludes` — every call comes to its end.
* `System.sound_after` — all this holds after any events.
-/

variable {α : Type}

/-- What holds of a history at every moment. -/
structure SlotHistory.Sound (history : SlotHistory α) (now : Nat) : Prop where
  started : history.slot.started = history.fetches.getLast?.map (·.start)
  past : ∀ fetch ∈ history.fetches, fetch.start ≤ now
  throttled : history.fetches.Pairwise fun earlier later =>
    earlier.start + later.interval ≤ later.start
  value : history.slot.value = history.results.getLast?
  onlyFirst : ∀ fetch ∈ history.fetches.tail, fetch.first = false
  /-- Only the last fetch may be under way. -/
  settled : ∀ fetch ∈ history.fetches.dropLast, fetch.result.isSome = true

/-- What a task can rely on at its stage. -/
def Task.Fits (task : Task α) (now : Nat) (history : SlotHistory α) : Prop :=
  match task.stage with
  | .asked | .waiting | .admitted => True
  | .offered value | .probing value | .leaving value | .returned value => value ∈ history.results
  | .renewing value =>
    value ∈ history.results ∧ ∀ fetch ∈ history.fetches, fetch.start + task.interval ≤ now
  | .opening => history.fetches = []
  | .fetching number | .storing number _ =>
    ∃ done fetch, history.fetches = done ++ [fetch] ∧ done.length = number ∧ fetch.result = none

/-- What a task has to do with the gate depends on its stage. -/
def Task.roles : Roles (Task α) where
  holds task := task.stage.holds
  inFlight task := task.stage.inFlight
  holds_of_inFlight {task} h := by
    obtain ⟨interval, stage⟩ := task
    cases stage <;> simp_all [Stage.inFlight, Stage.holds]

/-- All fetches have brought a value. -/
def SlotHistory.Settled (history : SlotHistory α) : Prop :=
  ∀ fetch ∈ history.fetches, fetch.result.isSome = true

/-- What holds of a key at every moment. -/
structure KeyState.Sound (state : KeyState α) (now : Nat) : Prop where
  history : state.history.Sound now
  /-- A fetch under way belongs to the task that holds the gate. -/
  gate : Guarded Task.roles state.tasks state.history.slot.busy state.history.Settled
  fits : ∀ task ∈ state.tasks, task.Fits now state.history

/-! ### Time passes -/

theorem Task.Fits.later {task : Task α} {now now' : Nat} {history : SlotHistory α}
    (h : task.Fits now history) (hle : now ≤ now') : task.Fits now' history := by
  obtain ⟨interval, stage⟩ := task
  cases stage with
  | renewing value => exact ⟨h.1, fun fetch hfetch => Nat.le_trans (h.2 fetch hfetch) hle⟩
  | _ => exact h

theorem KeyState.Sound.later {state : KeyState α} {now now' : Nat} (h : state.Sound now)
    (hle : now ≤ now') : state.Sound now' where
  history :=
    { h.history with past := fun fetch hfetch => Nat.le_trans (h.history.past fetch hfetch) hle }
  gate := h.gate
  fits := fun task htask => (h.fits task htask).later hle

/-! ### The holder of the gate -/

/-- A task without the gate relies on values only, which stay. -/
theorem Task.Fits.of_not_holds {task : Task α} {now now' : Nat} {history history' : SlotHistory α}
    (h : task.Fits now history) (hholds : task.stage.holds = false)
    (hresults : ∀ value ∈ history.results, value ∈ history'.results) : task.Fits now' history' := by
  obtain ⟨interval, stage⟩ := task
  cases stage with
  | asked => trivial
  | waiting => trivial
  | offered value => exact hresults value h
  | returned value => exact hresults value h
  | _ => cases hholds

namespace KeyState.Sound

variable {state : KeyState α} {now : Nat} {before after : List (Task α)} {task : Task α}

theorem guarded (h : state.Sound now) (htasks : state.tasks = before ++ task :: after) :
    Guarded Task.roles (before ++ task :: after) state.history.slot.busy state.history.Settled := by
  rw [← htasks]
  exact h.gate

/-- A task goes on, and others may begin with it.  The others can rely on the same as before, and
    the gate changes hands accordingly. -/
theorem replace (h : state.Sound now) (htasks : state.tasks = before ++ task :: after)
    {history : SlotHistory α} {stage : Stage α} {begins : List (Task α)}
    (hhistory : history.Sound now)
    (hfits : ∀ other ∈ ⟨task.interval, stage⟩ :: begins, Task.Fits other now history)
    (hothers : ∀ other ∈ before ++ after, other.Fits now state.history → other.Fits now history)
    (hgate : (if task.stage.holds then 1 else 0) + (if history.slot.busy then 1 else 0)
      = (⟨task.interval, stage⟩ :: begins).countP Task.roles.holds
        + (if state.history.slot.busy then 1 else 0))
    (hlanded : (∀ other ∈ ⟨task.interval, stage⟩ :: begins, other.stage.inFlight = false) →
      history.Settled ∨ task.stage.inFlight = false ∧ (state.history.Settled → history.Settled)) :
    KeyState.Sound ⟨history, before ++ ⟨task.interval, stage⟩ :: after ++ begins⟩ now where
  history := hhistory
  gate := (h.guarded htasks).replace _ _ hgate hlanded
  fits := by
    intro other hother
    have hcases : other ∈ before ++ after ∨ other ∈ ⟨task.interval, stage⟩ :: begins := by
      simp only [List.mem_append, List.mem_cons] at hother ⊢
      tauto
    rcases hcases with hin | hin
    · refine hothers other hin (h.fits other ?_)
      rw [htasks]
      simp only [List.mem_append, List.mem_cons] at hin ⊢
      tauto
    · exact hfits other hin

/-- A step that leaves the fetches alone: the task goes on to another stage. -/
theorem advance (h : state.Sound now) (htasks : state.tasks = before ++ task :: after)
    {slot : Slot α} {stage : Stage α} (hvalue : slot.value = state.history.slot.value)
    (hstarted : slot.started = state.history.slot.started)
    (hfits : Task.Fits ⟨task.interval, stage⟩ now state.history)
    (hflight : task.stage.inFlight = true → stage.inFlight = true)
    (hgate : (if task.stage.holds then 1 else 0) + (if slot.busy then 1 else 0)
      = [⟨task.interval, stage⟩].countP Task.roles.holds
        + (if state.history.slot.busy then 1 else 0)) :
    KeyState.Sound
      ⟨{ state.history with slot }, before ++ ⟨task.interval, stage⟩ :: after ++ []⟩ now := by
  have hhistory : SlotHistory.Sound { state.history with slot } now :=
    { h.history with
      started := hstarted.trans h.history.started
      value := hvalue.trans h.history.value }
  refine h.replace htasks hhistory (List.forall_mem_singleton.mpr hfits) (fun _ _ => id) hgate ?_
  intro hnone
  refine .inr ⟨Bool.eq_false_iff.mpr fun hbefore => ?_, id⟩
  have hafter := hnone _ List.mem_cons_self
  rw [hflight hbefore] at hafter
  cases hafter

/-- A step of the holder of the gate that changes the fetches.  Nobody else relies on anything but
    the values, and one task holds the gate afterwards. -/
theorem handOver (h : state.Sound now) (htasks : state.tasks = before ++ task :: after)
    (hholds : task.stage.holds = true) {history : SlotHistory α} {stage : Stage α}
    {begins : List (Task α)} (hhistory : history.Sound now)
    (hbusy : history.slot.busy = state.history.slot.busy)
    (hresults : ∀ value ∈ state.history.results, value ∈ history.results)
    (hone : (⟨task.interval, stage⟩ :: begins).countP Task.roles.holds = 1)
    (hfits : ∀ other ∈ ⟨task.interval, stage⟩ :: begins, Task.Fits other now history)
    (hlanded : (∀ other ∈ ⟨task.interval, stage⟩ :: begins, other.stage.inFlight = false) →
      history.Settled) :
    KeyState.Sound ⟨history, before ++ ⟨task.interval, stage⟩ :: after ++ begins⟩ now := by
  obtain ⟨-, hothers⟩ := (h.guarded htasks).alone hholds
  refine h.replace htasks hhistory hfits
    (fun other hother hfit => hfit.of_not_holds (hothers other hother) hresults) ?_
    (fun hnone => .inl (hlanded hnone))
  rw [hholds, hone, hbusy, if_pos rfl]

end KeyState.Sound

/-! ### Fetches start and end -/

namespace SlotHistory.Sound

variable {history : SlotHistory α} {now : Nat}

/-- When all fetches have ended, there is a value or there was no fetch. -/
theorem value_isSome (h : history.Sound now)
    (hlanded : history.Settled) (hne : history.fetches ≠ []) :
    history.slot.value.isSome = true := by
  obtain ⟨fetch, rest, hcons⟩ := List.exists_cons_of_ne_nil hne
  obtain ⟨value, hvalue⟩ :=
    Option.isSome_iff_exists.mp (hlanded fetch (by rw [hcons]; exact List.mem_cons_self))
  have hmem : value ∈ history.results :=
    List.mem_filterMap.mpr ⟨fetch, by rw [hcons]; exact List.mem_cons_self, hvalue⟩
  rw [h.value]
  exact List.getLast?_isSome.mpr (List.ne_nil_of_mem hmem)

/-- What is due since the last fetch is due since all of them. -/
theorem due (h : history.Sound now) {interval : Nat}
    (hdue : isDue history.slot.started now interval = true) :
    ∀ fetch ∈ history.fetches, fetch.start + interval ≤ now := by
  intro fetch hfetch
  obtain ⟨done, last, hfetches⟩ := (List.eq_nil_or_concat history.fetches).resolve_left
    (List.ne_nil_of_mem hfetch)
  rw [List.concat_eq_append] at hfetches
  have hpast := h.past last (by rw [hfetches]; exact List.mem_concat_self)
  rw [h.started, hfetches, List.getLast?_concat] at hdue
  have hinterval : interval ≤ now - last.start := by simpa [isDue] using hdue
  have hthrottled := h.throttled
  rw [hfetches, List.pairwise_append] at hthrottled
  rw [hfetches, List.mem_append, List.mem_singleton] at hfetch
  rcases hfetch with hin | rfl
  · have hle := hthrottled.2.2 fetch hin last (List.mem_singleton.mpr rfl)
    omega
  · omega

@[simp] theorem results_start (history : SlotHistory α) (now interval : Nat) :
    (history.start now interval).results = history.results := by
  simp [SlotHistory.start, SlotHistory.results]

/-- A fetch may start when all others have ended and the interval has passed. -/
theorem start (h : history.Sound now) (interval : Nat)
    (hlanded : history.Settled)
    (hdue : ∀ fetch ∈ history.fetches, fetch.start + interval ≤ now) :
    (history.start now interval).Sound now where
  started := by simp [SlotHistory.start, Slot.start]
  past := by
    intro fetch hfetch
    rw [SlotHistory.start, List.mem_append, List.mem_singleton] at hfetch
    rcases hfetch with hin | rfl
    · exact h.past fetch hin
    · exact Nat.le_refl now
  throttled := by
    rw [SlotHistory.start, List.pairwise_append]
    refine ⟨h.throttled, List.pairwise_singleton _ _, ?_⟩
    intro fetch hfetch other hother
    obtain rfl := List.mem_singleton.mp hother
    exact hdue fetch hfetch
  value := by
    show history.slot.value = (List.filterMap _ (history.fetches ++ [_])).getLast?
    rw [List.filterMap_append, h.value]
    simp [SlotHistory.results]
  onlyFirst := by
    intro fetch hfetch
    cases hfetches : history.fetches with
    | nil =>
      rw [SlotHistory.start, hfetches] at hfetch
      cases hfetch
    | cons head rest =>
      rw [SlotHistory.start, hfetches, List.cons_append, List.tail_cons, List.mem_append,
        List.mem_singleton] at hfetch
      rcases hfetch with hin | rfl
      · exact h.onlyFirst fetch (by rw [hfetches]; exact hin)
      · have hsome := h.value_isSome hlanded (by rw [hfetches]; exact List.cons_ne_nil _ _)
        simpa [Option.isNone_iff_eq_none, Option.isSome_iff_ne_none] using hsome
  settled := by
    intro fetch hfetch
    rw [SlotHistory.start, List.dropLast_concat] at hfetch
    exact hlanded fetch hfetch

/-- The fetches after the last one has ended. -/
theorem fetches_complete {done : List (Fetch α)} {fetch : Fetch α}
    (hfetches : history.fetches = done ++ [fetch]) (value : α) :
    (history.complete done.length value).fetches
      = done ++ [{ fetch with result := some value }] := by
  rw [SlotHistory.complete, hfetches, modify_last]

/-- The last fetch may end. -/
theorem complete (h : history.Sound now) {done : List (Fetch α)} {fetch : Fetch α}
    (hfetches : history.fetches = done ++ [fetch]) (hresult : fetch.result = none) (value : α) :
    (history.complete done.length value).Sound now
      ∧ (history.complete done.length value).results = history.results ++ [value] := by
  have hcomplete := fetches_complete hfetches value
  have hresults : (history.complete done.length value).results = history.results ++ [value] := by
    simp [SlotHistory.results, hcomplete, hfetches, hresult]
  refine ⟨?_, hresults⟩
  -- of the fetch that ends only the result changes
  refine
    { started := ?_
      past := ?_
      throttled := ?_
      value := ?_
      onlyFirst := ?_
      settled := ?_ }
  · have hstarted := h.started
    rw [hfetches, List.getLast?_concat] at hstarted
    rw [hcomplete, List.getLast?_concat]
    exact hstarted
  · intro other hother
    rw [hcomplete, List.mem_append, List.mem_singleton] at hother
    rcases hother with hin | rfl
    · exact h.past other (by rw [hfetches]; exact List.mem_append_left _ hin)
    · exact h.past fetch (by rw [hfetches]; exact List.mem_concat_self)
  · have hthrottled := h.throttled
    rw [hfetches, List.pairwise_append] at hthrottled
    rw [hcomplete, List.pairwise_append]
    refine ⟨hthrottled.1, List.pairwise_singleton _ _, fun earlier hearlier later hlater => ?_⟩
    obtain rfl := List.mem_singleton.mp hlater
    exact hthrottled.2.2 earlier hearlier fetch (List.mem_singleton.mpr rfl)
  · rw [hresults, List.getLast?_concat]
    rfl
  · intro other hother
    have honly := h.onlyFirst
    rw [hfetches] at honly
    rw [hcomplete] at hother
    cases done with
    | nil => cases hother
    | cons head done =>
      rw [List.cons_append, List.tail_cons, List.mem_append, List.mem_singleton] at hother
      rcases hother with hin | rfl
      · exact honly other (List.mem_append_left _ hin)
      · exact honly fetch List.mem_concat_self
  · intro other hother
    rw [hcomplete, List.dropLast_concat] at hother
    exact h.settled other (by rw [hfetches, List.dropLast_concat]; exact hother)

end SlotHistory.Sound

/-! ### At most one -/

/-- Only the last fetch may be under way. -/
theorem SlotHistory.Sound.countP_isNone {history : SlotHistory α} {now : Nat}
    (h : history.Sound now) : history.fetches.countP (·.result.isNone) ≤ 1 :=
  countP_le_one_of_dropLast fun fetch hfetch => by
    rw [Option.isNone_eq_false_iff]
    exact h.settled fetch hfetch

/-- Only the first fetch has started without a value. -/
theorem SlotHistory.Sound.countP_first {history : SlotHistory α} {now : Nat}
    (h : history.Sound now) : history.fetches.countP (·.first) ≤ 1 := by
  cases hfetches : history.fetches with
  | nil => exact Nat.zero_le 1
  | cons fetch rest =>
    have hfirst := h.onlyFirst
    rw [hfetches, List.tail_cons] at hfirst
    have hzero : rest.countP (·.first) = 0 :=
      List.countP_eq_zero.mpr fun other hother => by simp [hfirst other hother]
    rw [List.countP_cons, hzero, Nat.zero_add]
    split
    · exact Nat.le_refl 1
    · exact Nat.zero_le 1

/-! ### Every step -/

namespace KeyState.Sound

variable {state : KeyState α} {now : Nat} {before after : List (Task α)} {task : Task α}

/-- A call may begin at any time. -/
theorem call (h : state.Sound now) (interval : Nat) : (state.call interval).Sound now where
  history := h.history
  gate := h.gate.add rfl
  fits := by
    intro task htask
    rw [KeyState.call, List.mem_append, List.mem_singleton] at htask
    rcases htask with hin | rfl
    · exact h.fits task hin
    · trivial

/-- A value of the slot has been brought by a fetch. -/
theorem mem_results (h : state.Sound now) {value : α}
    (hvalue : state.history.slot.value = some value) : value ∈ state.history.results := by
  rw [h.history.value] at hvalue
  exact List.mem_of_getLast? hvalue

/-- **Every step of a task keeps what holds of its key.** -/
theorem act (h : state.Sound now) (htasks : state.tasks = before ++ task :: after) {act : Act α}
    (hacts : Acts now task.interval state.history task.stage act) :
    KeyState.Sound
      ⟨act.history, before ++ ⟨task.interval, act.stage⟩ :: after ++ act.begins⟩ now := by
  have hfits : task.Fits now state.history :=
    h.fits task (by rw [htasks]; exact List.mem_append_right _ List.mem_cons_self)
  obtain ⟨interval, stage⟩ := task
  cases hacts with
  | sees hvalue =>
    exact h.advance htasks rfl rfl (h.mem_results hvalue) id rfl
  | misses _ =>
    exact h.advance htasks rfl rfl trivial id rfl
  | probes hfree =>
    exact h.advance htasks rfl rfl hfits id (by simp [Task.roles, Stage.holds, hfree])
  | takes _ =>
    exact h.advance htasks rfl rfl hfits id rfl
  | renews hdue =>
    exact h.advance htasks rfl rfl ⟨hfits, h.history.due hdue⟩ id rfl
  | keeps _ =>
    exact h.advance htasks rfl rfl hfits id rfl
  | @spawns value =>
    have hlanded := (h.guarded htasks).settled_of_holds rfl rfl
    refine h.handOver htasks rfl (h.history.start interval hlanded hfits.2) rfl ?_ rfl ?_ ?_
    · intro other hother
      rwa [SlotHistory.Sound.results_start]
    · intro other hother
      rw [List.mem_cons, List.mem_singleton] at hother
      rcases hother with rfl | rfl
      · show value ∈ (state.history.start now interval).results
        rw [SlotHistory.Sound.results_start]
        exact hfits.1
      · exact ⟨state.history.fetches, _, rfl, rfl, rfl⟩
    · intro hnone
      cases hnone ⟨interval, .fetching _⟩ (List.mem_cons_of_mem _ List.mem_cons_self)
  | enters hfree =>
    exact h.advance htasks rfl rfl trivial id (by simp [Task.roles, Stage.holds, hfree])
  | finds hvalue =>
    exact h.advance htasks rfl rfl (h.mem_results hvalue) id rfl
  | opens hvalue =>
    -- a fetch would have left a value
    have hempty : state.history.fetches = [] := by
      cases hfetches : state.history.fetches with
      | nil => rfl
      | cons fetch rest =>
        have hsome := h.history.value_isSome ((h.guarded htasks).settled_of_holds rfl rfl)
          (by rw [hfetches]; exact List.cons_ne_nil _ _)
        rw [hvalue] at hsome
        cases hsome
    exact h.advance htasks rfl rfl hempty id rfl
  | starts =>
    have hempty : state.history.fetches = [] := hfits
    have hlanded := (h.guarded htasks).settled_of_holds rfl rfl
    have hhistory := h.history.start interval hlanded (by simp [hempty])
    refine h.handOver htasks rfl hhistory rfl ?_ rfl ?_ ?_
    · intro other hother
      rwa [SlotHistory.Sound.results_start]
    · intro other hother
      obtain rfl := List.mem_singleton.mp hother
      exact ⟨state.history.fetches, _, rfl, rfl, rfl⟩
    · intro hnone
      cases hnone _ List.mem_cons_self
  | @stores number value =>
    obtain ⟨done, fetch, hfetches, rfl, hresult⟩ := hfits
    obtain ⟨hhistory, hresults⟩ := h.history.complete hfetches hresult value
    refine h.handOver htasks rfl hhistory rfl ?_ rfl ?_ ?_
    · intro other hother
      rw [hresults]
      exact List.mem_append_left _ hother
    · intro other hother
      obtain rfl := List.mem_singleton.mp hother
      show value ∈ (state.history.complete done.length value).results
      rw [hresults]
      exact List.mem_concat_self
    · -- all fetches before the last one have ended, and so has the last one now
      intro _ other hother
      rw [SlotHistory.Sound.fetches_complete hfetches, List.mem_append,
        List.mem_singleton] at hother
      rcases hother with hin | rfl
      · exact h.history.settled other (by rw [hfetches, List.dropLast_concat]; exact hin)
      · rfl
  | leaves =>
    refine h.advance htasks rfl rfl hfits id ?_
    simp [Task.roles, Stage.holds, Slot.leave, ((h.guarded htasks).alone rfl).1]

theorem step (h : state.Sound now) (index : Nat) : (state.step now index).Sound now := by
  rcases state.step_cases now index with heq | ⟨before, task, after, act, htasks, hacts, heq⟩
  · rwa [heq]
  · rw [heq]
    exact h.act htasks hacts

theorem land (h : state.Sound now) (index : Nat) (value : α) :
    (state.land index value).Sound now := by
  rcases state.land_cases index value with heq | ⟨before, interval, number, after, htasks, heq⟩
  · rwa [heq]
  · rw [heq]
    have hfits : Task.Fits ⟨interval, .fetching number⟩ now state.history :=
      h.fits _ (by rw [htasks]; exact List.mem_append_right _ List.mem_cons_self)
    rw [← List.append_nil (before ++ _ :: after)]
    exact h.advance htasks rfl rfl hfits (fun _ => rfl) rfl

end KeyState.Sound

theorem KeyState.sound_empty (now : Nat) : KeyState.Sound ({} : KeyState α) now where
  history :=
    { started := rfl
      past := fun _ h => nomatch h
      throttled := .nil
      value := rfl
      onlyFirst := fun _ h => nomatch h
      settled := fun _ h => nomatch h }
  gate := ⟨rfl, fun _ _ h => nomatch h⟩
  fits := fun _ h => nomatch h

/-! ### Values stay -/

namespace KeyState

/-- A slot that has a value keeps having one. -/
theorem isSome_step (state : KeyState α) (now index : Nat)
    (h : state.history.slot.value.isSome = true) :
    (state.step now index).history.slot.value.isSome = true := by
  rcases state.step_cases now index with heq | ⟨before, task, after, act, -, hacts, heq⟩
  · rwa [heq]
  · rw [heq]
    obtain ⟨interval, stage⟩ := task
    cases hacts with
    | stores => rfl
    | _ => exact h

theorem isSome_land (state : KeyState α) (index : Nat) (value : α)
    (h : state.history.slot.value.isSome = true) :
    (state.land index value).history.slot.value.isSome = true := by
  rcases state.land_cases index value with heq | ⟨before, interval, number, after, -, heq⟩
  · rwa [heq]
  · rw [heq]
    exact h

end KeyState

/-! ### Every call comes to its end -/

/-- An upper bound for the steps that a task at this stage still takes. -/
def Stage.work : Stage α → Nat
  | .returned _ => 0
  | .leaving _ => 1
  | .storing _ _ => 2
  | .fetching _ => 3
  | .opening => 4
  | .admitted => 5
  | .waiting => 6
  | .renewing _ => 4
  | .probing _ => 5
  | .offered _ => 6
  | .asked => 7

namespace KeyState

/-- An upper bound for the steps that the tasks of a key still take. -/
def work (state : KeyState α) : Nat := (state.tasks.map (·.stage.work)).sum

/-- A step brings the end nearer, tasks that begin with it counted in. -/
theorem work_acts {state : KeyState α} {now : Nat} {before after : List (Task α)} {task : Task α}
    (htasks : state.tasks = before ++ task :: after) {act : Act α}
    (h : Acts now task.interval state.history task.stage act) :
    work ⟨act.history, before ++ ⟨task.interval, act.stage⟩ :: after ++ act.begins⟩
      < state.work := by
  have hless : act.stage.work + (act.begins.map (·.stage.work)).sum < task.stage.work := by
    obtain ⟨interval, stage⟩ := task
    cases h <;> simp [Stage.work]
  simp only [work, htasks, List.map_append, List.map_cons, List.sum_append_nat, List.sum_cons]
  omega

theorem work_step {state : KeyState α} {now index : Nat} (h : state.step now index ≠ state) :
    (state.step now index).work < state.work := by
  rcases state.step_cases now index with heq | ⟨before, task, after, act, htasks, hacts, heq⟩
  · exact absurd heq h
  · rw [heq]
    exact work_acts htasks hacts

theorem work_land {state : KeyState α} {index : Nat} {value : α}
    (h : state.land index value ≠ state) : (state.land index value).work < state.work := by
  rcases state.land_cases index value with heq | ⟨before, interval, number, after, htasks, heq⟩
  · exact absurd heq h
  · rw [heq]
    simp [work, htasks, Stage.work]

/-- What can happen to the tasks of a key at a moment. -/
def dynamics : Dynamics (Nat × KeyState α) where
  Later here later := ∃ moment, here.1 ≤ moment ∧ later = (moment, here.2)
  Steps here next :=
    ∃ index, here.2.step here.1 index ≠ here.2 ∧ next = (here.1, here.2.step here.1 index)
  Lands here next :=
    ∃ index value, here.2.land index value ≠ here.2 ∧ next = (here.1, here.2.land index value)
  Awaits here := ∃ task ∈ here.2.tasks, ∃ number, task.stage = .fetching number
  Ended here := ∀ task ∈ here.2.tasks, ∃ value, task.stage = .returned value

/-- From a moment on, the tasks of a key come to their end. -/
def Concludes (now : Nat) (state : KeyState α) : Prop := dynamics.Concludes (now, state)

/-- As long as a task has not come to its end, one of the tasks can take a step or waits for its
    fetch. -/
theorem Sound.can_move {state : KeyState α} {now : Nat} (h : state.Sound now) {task : Task α}
    (htask : task ∈ state.tasks) (hopen : ¬ ∃ value, task.stage = .returned value) :
    (∃ next, dynamics.Steps (now, state) next) ∨ dynamics.Awaits (now, state) := by
  refine h.gate.moves_of_open (fun task => ∃ value, task.stage = .returned value)
    (fun task htask => ?_) ?_ htask hopen
  · obtain ⟨before, after, htasks⟩ := List.append_of_mem htask
    cases hact : task.act now state.history with
    | some act =>
      have hless := work_acts htasks (Task.acts_of_act hact)
      rw [← step_eq htasks hact] at hless
      exact .inl (.inl ⟨_, before.length, fun heq => Nat.ne_of_lt hless (congrArg work heq), rfl⟩)
    | none =>
      rcases Task.act_eq_none hact with ⟨hstage, hbusy⟩ | ⟨number, hstage⟩ | hreturned
      · exact .inr (.inl ⟨by simp [Task.roles, hstage, Stage.holds], hbusy⟩)
      · exact .inl (.inr ⟨task, htask, number, hstage⟩)
      · exact .inr (.inr hreturned)
  · rintro task ⟨value, hstage⟩
    simp [Task.roles, hstage, Stage.holds]

/-- **All tasks come to their end.** -/
theorem Sound.concludes {state : KeyState α} {now : Nat} (h : state.Sound now) :
    state.Concludes now := by
  refine dynamics.concludes (fun here => here.2.Sound here.1) (fun here => here.2.work) ?_ ?_ ?_ h
  · rintro ⟨now, state⟩ _ hsound ⟨moment, hle, rfl⟩
    exact ⟨hsound.later hle, rfl⟩
  · rintro ⟨now, state⟩ _ hsound (⟨index, hne, rfl⟩ | ⟨index, value, hne, rfl⟩)
    · exact ⟨hsound.step index, work_step hne⟩
    · exact ⟨hsound.land index value, work_land hne⟩
  · rintro ⟨now, state⟩ _ hsound hopen ⟨moment, hle, rfl⟩
    obtain ⟨task, htask, hopen⟩ :
        ∃ task ∈ state.tasks, ¬ ∃ value, task.stage = .returned value := by
      simpa [dynamics] using hopen
    exact (hsound.later hle).can_move htask hopen

end KeyState

/-! ### All keys -/

namespace System

variable {κ : Type} [DecidableEq κ]

/-- What holds of every key holds after any event. -/
theorem sound_next {system : System κ α} (h : ∀ key, (system.states key).Sound system.now)
    (event : Event κ α) :
    ∀ key, ((system.next event).states key).Sound (system.next event).now := by
  intro key
  obtain ⟨hle, heq | ⟨interval, heq⟩ | ⟨index, heq⟩ | ⟨index, value, heq⟩⟩ :=
    system.next_cases event key
  · rw [heq]
    exact (h key).later hle
  · rw [heq]
    exact ((h key).call interval).later hle
  · rw [heq]
    exact ((h key).step index).later hle
  · rw [heq]
    exact ((h key).land index value).later hle

/-- **What holds of every key at every moment.** -/
theorem sound_run {system : System κ α} (h : ∀ key, (system.states key).Sound system.now)
    (events : List (Event κ α)) :
    ∀ key, ((system.run events).states key).Sound (system.run events).now := by
  induction events generalizing system with
  | nil => exact h
  | cons event events ih => exact ih (sound_next h event)

/-- A value that is there stays, or gives way to another. -/
theorem isSome_run {system : System κ α} {key : κ}
    (h : (system.states key).history.slot.value.isSome = true) (events : List (Event κ α)) :
    ((system.run events).states key).history.slot.value.isSome = true := by
  induction events generalizing system with
  | nil => exact h
  | cons event events ih =>
    refine ih ?_
    obtain ⟨-, heq | ⟨interval, heq⟩ | ⟨index, heq⟩ | ⟨index, value, heq⟩⟩ :=
      system.next_cases event key
    · rwa [heq]
    · rw [heq]
      exact h
    · rw [heq]
      exact KeyState.isSome_step _ _ index h
    · rw [heq]
      exact KeyState.isSome_land _ index value h

/-- What holds of a key after any events from the beginning. -/
theorem sound_after (events : List (Event κ α)) (key : κ) :
    ((after events).states key).Sound (after events).now :=
  sound_run (fun _ => KeyState.sound_empty 0) events key

end System

end ScriptServer.Metadata

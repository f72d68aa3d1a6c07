import Mathlib.Algebra.GroupWithZero.Nat
import Mathlib.Tactic.Tauto

namespace ScriptServer.Metadata

/-!
# Tasks that share a gate

The slot of a key and the lists of catalogs and databases are guarded in the same way: whoever holds
the gate may send something to the database, a record tells what has been sent so far, and the
others wait or go on without.

* `Roles`, `Guarded` — which task holds the gate, and what is the case while none is at work.
* `Guarded.alone`, `Guarded.replace` — the gate has one holder, and changes hands.
* `Guarded.moves_of_open` — whoever waits for the gate waits for a task that can go on.
* `modify_last`, `countP_le_one_of_dropLast` — a record of which only the last entry may change.
* `Dynamics`, `Dynamics.Concludes`, `Dynamics.concludes` — tasks come to their end if each step
  leaves less to do.
-/

/-! ### The holder of the gate -/

/-- What a task may have to do with a gate. -/
structure Roles (τ : Type) where
  holds : τ → Bool
  /-- Whether something that the task has sent to the database is under way. -/
  inFlight : τ → Bool
  holds_of_inFlight : ∀ {task : τ}, inFlight task = true → holds task = true

/-- The gate is held by one task if it is busy, by none otherwise.  While no task has anything under
    way, all is settled. -/
structure Guarded {τ : Type} (roles : Roles τ) (tasks : List τ) (busy : Bool) (settled : Prop) :
    Prop where
  count : tasks.countP roles.holds = if busy then 1 else 0
  landed : (∀ task ∈ tasks, roles.inFlight task = false) → settled

namespace Guarded

variable {τ : Type} {roles : Roles τ} {tasks before after : List τ} {task : τ} {busy : Bool}
  {settled : Prop}

/-- The gate has one holder. -/
theorem alone (h : Guarded roles (before ++ task :: after) busy settled)
    (hholds : roles.holds task = true) :
    busy = true ∧ ∀ other ∈ before ++ after, roles.holds other = false := by
  have hcount := h.count
  rw [List.countP_append, List.countP_cons, if_pos hholds] at hcount
  cases busy with
  | false =>
    simp only [Bool.false_eq_true, if_false] at hcount
    omega
  | true =>
    have hnone : (before ++ after).countP roles.holds = 0 := by
      rw [List.countP_append]
      simp only [if_true] at hcount
      omega
    refine ⟨rfl, fun other hother => ?_⟩
    simpa using List.countP_eq_zero.mp hnone other hother

/-- Nobody holds a gate that is free. -/
theorem nobody (h : Guarded roles tasks false settled) :
    ∀ task ∈ tasks, roles.holds task = false := by
  intro task htask
  simpa using List.countP_eq_zero.mp h.count task htask

/-- While the gate is held by a task that has nothing under way, all is settled. -/
theorem settled_of_holds (h : Guarded roles (before ++ task :: after) busy settled)
    (hholds : roles.holds task = true) (hflight : roles.inFlight task = false) : settled := by
  obtain ⟨-, hothers⟩ := h.alone hholds
  refine h.landed fun other hother => ?_
  have hcases : other = task ∨ other ∈ before ++ after := by
    simp only [List.mem_append, List.mem_cons] at hother ⊢
    tauto
  rcases hcases with rfl | hin
  · exact hflight
  · refine Bool.eq_false_iff.mpr fun hflight' => ?_
    have hholds' := roles.holds_of_inFlight hflight'
    rw [hothers other hin] at hholds'
    cases hholds'

/-- At most one task has something under way. -/
theorem countP_inFlight (h : Guarded roles tasks busy settled) :
    tasks.countP roles.inFlight ≤ 1 := by
  have hle : tasks.countP roles.inFlight ≤ tasks.countP roles.holds :=
    List.countP_mono_left fun task _ hflight => roles.holds_of_inFlight hflight
  have hcount := h.count
  split at hcount <;> omega

/-- A task begins that does not hold the gate. -/
theorem add (h : Guarded roles tasks busy settled) (hholds : roles.holds task = false) :
    Guarded roles (tasks ++ [task]) busy settled where
  count := by
    rw [List.countP_append, h.count, List.countP_singleton, hholds]
    rfl
  landed := fun hnone => h.landed fun task htask => hnone task (List.mem_append_left _ htask)

/-- A task goes on, and others may begin with it.  The gate changes hands accordingly; and if
    nothing of theirs is under way, all is settled, or the task had nothing under way before and all
    is settled if it was. -/
theorem replace (h : Guarded roles (before ++ task :: after) busy settled) (next : τ)
    (begins : List τ) {busy' : Bool} {settled' : Prop}
    (hgate : (if roles.holds task then 1 else 0) + (if busy' then 1 else 0)
      = (next :: begins).countP roles.holds + (if busy then 1 else 0))
    (hlanded : (∀ other ∈ next :: begins, roles.inFlight other = false) →
      settled' ∨ roles.inFlight task = false ∧ (settled → settled')) :
    Guarded roles (before ++ next :: after ++ begins) busy' settled' where
  count := by
    have hcount := h.count
    simp only [List.countP_append, List.countP_cons] at hcount hgate ⊢
    omega
  landed := by
    intro hnone
    have hnext : ∀ other ∈ next :: begins, roles.inFlight other = false := by
      intro other hother
      refine hnone other ?_
      simp only [List.mem_append, List.mem_cons] at hother ⊢
      tauto
    rcases hlanded hnext with hsettled | ⟨hflight, hsettled⟩
    · exact hsettled
    · refine hsettled (h.landed fun other hother => ?_)
      have hcases : other = task ∨ other ∈ before ++ next :: after ++ begins := by
        simp only [List.mem_append, List.mem_cons] at hother ⊢
        tauto
      rcases hcases with rfl | hin
      · exact hflight
      · exact hnone other hin

/-- **Nobody waits for ever on another.**  Let every task make something happen, unless it is at its
    end or waits for the gate.  Then something happens as long as one of them is not at its end: if
    it waits for the gate, the holder does not. -/
theorem moves_of_open (h : Guarded roles tasks busy settled) (ended : τ → Prop) {moves : Prop}
    (hcases : ∀ task ∈ tasks, moves ∨ (roles.holds task = false ∧ busy = true) ∨ ended task)
    (hended : ∀ task, ended task → roles.holds task = false) (htask : task ∈ tasks)
    (hopen : ¬ ended task) : moves := by
  rcases hcases task htask with hmoves | ⟨-, hbusy⟩ | hend
  · exact hmoves
  · have hcount := h.count
    rw [if_pos hbusy] at hcount
    obtain ⟨holder, hmem, hholds⟩ := List.countP_pos_iff.mp (by rw [hcount]; exact Nat.one_pos)
    rcases hcases holder hmem with hmoves | ⟨hfree, -⟩ | hend
    · exact hmoves
    · rw [hholds] at hfree
      cases hfree
    · rw [hended holder hend] at hholds
      cases hholds
  · exact absurd hend hopen

end Guarded

/-! ### The record -/

section Record

variable {α : Type}

@[simp] theorem modify_last (done : List α) (last : α) (change : α → α) :
    (done ++ [last]).modify done.length change = done ++ [change last] := by
  rw [List.modify_eq_take_cons_drop (by simp)]
  simp

/-- Where only the last one may be open, at most one is. -/
theorem countP_le_one_of_dropLast {isOpen : α → Bool} {items : List α}
    (h : ∀ item ∈ items.dropLast, isOpen item = false) : items.countP isOpen ≤ 1 := by
  rcases List.eq_nil_or_concat items with rfl | ⟨done, last, rfl⟩
  · exact Nat.zero_le 1
  · rw [List.concat_eq_append] at h ⊢
    rw [List.dropLast_concat] at h
    have hzero : done.countP isOpen = 0 :=
      List.countP_eq_zero.mpr fun item hitem => by simp [h item hitem]
    rw [List.countP_append, hzero, Nat.zero_add]
    exact List.countP_le_length

/-- What a change of one item does to a sum over all of them. -/
theorem sum_map_modify (amount : α → Nat) {items : List α} {index : Nat} {item : α}
    (hget : items[index]? = some item) (change : α → α) :
    ((items.modify index change).map amount).sum + amount item
      = (items.map amount).sum + amount (change item) := by
  obtain ⟨hlt, rfl⟩ := List.getElem?_eq_some_iff.mp hget
  obtain ⟨before, item, after, rfl, rfl, hmodify⟩ := List.exists_of_modify change hlt
  rw [hmodify, List.getElem_append_right (Nat.le_refl _)]
  simp only [Nat.sub_self, List.getElem_cons_zero, List.map_append, List.map_cons,
    List.sum_append_nat, List.sum_cons]
  omega

end Record

/-! ### Every task comes to its end -/

/-- What can happen to tasks. -/
structure Dynamics (σ : Type) where
  /-- Time passes, and nothing happens to the tasks. -/
  Later : σ → σ → Prop
  /-- A task takes a step. -/
  Steps : σ → σ → Prop
  /-- An answer comes to a task. -/
  Lands : σ → σ → Prop
  /-- A task waits for an answer. -/
  Awaits : σ → Prop
  /-- All tasks have come to their end. -/
  Ended : σ → Prop

namespace Dynamics

variable {σ : Type}

/-- From a moment on, tasks come to their end: unless all have, one of them can take a step or waits
    for an answer, and wherever a step or an answer leads, tasks come to their end.  In the meantime
    time may pass. -/
inductive Concludes (dynamics : Dynamics σ) : σ → Prop where
  | ended {state : σ} (h : dynamics.Ended state) : Concludes dynamics state
  | moves {state : σ}
      (hmove : ∀ later, dynamics.Later state later →
        (∃ next, dynamics.Steps later next) ∨ dynamics.Awaits later)
      (hnext : ∀ later next, dynamics.Later state later →
        dynamics.Steps later next ∨ dynamics.Lands later next → Concludes dynamics next) :
      Concludes dynamics state

/-- **Tasks come to their end** if each step and each answer leaves less to do and, as long as there
    is something to do, one of them can take a step or waits for an answer. -/
theorem concludes (dynamics : Dynamics σ) (sound : σ → Prop) (work : σ → Nat)
    (hlater : ∀ state later, sound state → dynamics.Later state later →
      sound later ∧ work later = work state)
    (hnext : ∀ state next, sound state → dynamics.Steps state next ∨ dynamics.Lands state next →
      sound next ∧ work next < work state)
    (hmove : ∀ state later, sound state → ¬ dynamics.Ended state → dynamics.Later state later →
      (∃ next, dynamics.Steps later next) ∨ dynamics.Awaits later)
    {state : σ} (h : sound state) : dynamics.Concludes state := by
  induction hwork : work state using Nat.strongRecOn generalizing state with
  | ind _ ih =>
  subst hwork
  by_cases hended : dynamics.Ended state
  · exact .ended hended
  · refine .moves (fun later hle => hmove state later h hended hle) fun later next hle happens => ?_
    obtain ⟨hsound, hsame⟩ := hlater state later h hle
    obtain ⟨hsound', hless⟩ := hnext later next hsound happens
    exact ih _ (by omega) hsound' rfl

end Dynamics

end ScriptServer.Metadata

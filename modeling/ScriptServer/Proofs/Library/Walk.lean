import Mathlib.Data.List.Induction
import ScriptServer.Library.Walk
import ScriptServer.Proofs.Path

namespace ScriptServer

/-!
# What a walk visits

The rows that listings lead to from the start of a walk are all visited, each once, and breadth
first.  That is shown of the loop itself: one round after the other keeps `Walk.Traced`, and when
nothing waits any more, what was visited is complete.

* `InOrder` — a list holds what has a property, each once and in an order.
* `Disk.Precedes` — the order of directories: by depth, then by their parents, then by name.
* `Library.Walk.finish_induct` — what each round keeps holds when nothing waits any more.
* `Library.Walk.Leads` — the rows that listings lead to.
* `Library.Walk.traced_next` — what was visited so far, and what waits.
* `Library.exists_visited` — a whole walk.
-/

/-- Whether a list holds what has a property, each once and in an order. -/
structure InOrder {α : Type} (lt : α → α → Prop) (p : α → Prop) (list : List α) : Prop where
  pairwise : list.Pairwise lt
  mem_iff : ∀ a, a ∈ list ↔ p a

namespace Disk

/-! ### The order of listings -/

theorem nameLe_trans (a b c : String) (hab : nameLe a b = true) (hbc : nameLe b c = true) :
    nameLe a c = true :=
  decide_eq_true (String.le_trans (of_decide_eq_true hab) (of_decide_eq_true hbc))

theorem nameLe_total (a b : String) : (nameLe a b || nameLe b a) = true := by
  rw [Bool.or_eq_true]
  exact (String.le_total a b).imp decide_eq_true decide_eq_true

theorem nameLe_antisymm {a b : String} (hab : nameLe a b = true) (hba : nameLe b a = true) :
    a = b :=
  String.le_antisymm (of_decide_eq_true hab) (of_decide_eq_true hba)

theorem lt_of_nameLe {a b : String} (h : nameLe a b = true) (hne : a ≠ b) : a < b :=
  String.not_le.mp fun hba => hne (nameLe_antisymm h (decide_eq_true hba))

/-- **Breadth first:** a directory that lies less deep comes before another one.  Of directories at
    one depth those come first whose parents do, and in one directory they go by name. -/
inductive Precedes : List String → List String → Prop where
  | depth {a b : List String} (h : a.length < b.length) : Precedes a b
  | parents {a b : List String} (h : Precedes a b) (hlength : a.length = b.length)
      (x y : String) : Precedes (a ++ [x]) (b ++ [y])
  | names (a : List String) {x y : String} (h : x < y) : Precedes (a ++ [x]) (a ++ [y])

theorem Precedes.length_le {a b : List String} (h : Precedes a b) : a.length ≤ b.length := by
  cases h with
  | depth h => exact Nat.le_of_lt h
  | parents h hlength x y => simp [hlength]
  | names a h => simp

/-- What lies in the earlier one of two directories comes before what lies in the later one. -/
theorem Precedes.concat {a b : List String} (h : Precedes a b) (x y : String) :
    Precedes (a ++ [x]) (b ++ [y]) := by
  rcases Nat.lt_or_eq_of_le h.length_le with hlt | hlength
  · exact .depth (by simpa using hlt)
  · exact .parents h hlength x y

end Disk

namespace Library

/-- The entries for the scripts directly in a directory. -/
def entriesIn (disk : Disk) (layout : Layout) (root directory : Path) (place : Place) :
    List Entry :=
  (Listing.ofDirectory disk layout directory place).entries disk layout.syn root directory

theorem pairwise_directories (disk : Disk) (layout : Layout) (directory : Path) (place : Place) :
    (Listing.ofDirectory disk layout directory place).directories.Pairwise
      fun a b => Disk.nameLe a b = true := by
  unfold Listing.ofDirectory
  split
  · exact (List.pairwise_mergeSort Disk.nameLe_trans Disk.nameLe_total _).filter _
  · exact .nil

namespace Walk

variable {disk : Disk} {layout : Layout} {root start : Path} {place : Place}

/-- **One round after the other:** what each round keeps holds at the end, when nothing waits. -/
theorem finish_induct {motive : Walk → Prop}
    (hround : ∀ {walk later}, motive walk → next? disk layout root start place walk = some later →
      motive later) {walk : Walk} (h : motive walk) :
    motive (finish disk layout root start place walk)
      ∧ (finish disk layout root start place walk).queue = [] := by
  fun_induction finish disk layout root start place walk with
  | case1 walk hnone =>
    refine ⟨h, ?_⟩
    unfold next? at hnone
    split at hnone
    next hqueue => exact hqueue
    next => dsimp only at hnone; split at hnone <;> cases hnone
  | case2 walk later hsome ih => exact ih (hround h hsome)

/-- Whether listings lead from the start to certain rows and to no others.  Different rows have
    different paths. -/
structure Leads (disk : Disk) (layout : Layout) (start : Path) (place : Place)
    (rows : List String → Prop) : Prop where
  here : rows []
  above : ∀ {row name}, rows (row ++ [name]) → rows row
  listed : ∀ {row}, rows row → ∀ name,
    name ∈ (Listing.ofDirectory disk layout (start.descend row) (place ++ row)).directories
      ↔ rows (row ++ [name])
  apart : ∀ {row other}, rows row → rows other →
    (start.descend row).same (start.descend other) = true → row = other

/-- Whether a walk has visited these rows so far.  What lies directly in one of them was visited or
    waits, and what waits lies directly in one of them; all of it is breadth first. -/
structure Traced (disk : Disk) (layout : Layout) (root start : Path) (place : Place)
    (rows : List String → Prop) (walk : Walk) (visited : List (List String)) : Prop where
  paths : walk.visited = visited.map start.descend
  entries : walk.entries = visited.flatMap fun row =>
    entriesIn disk layout root (start.descend row) (place ++ row)
  allowed : ∀ row ∈ visited ++ walk.queue, rows row
  here : [] ∈ visited ++ walk.queue
  closed : ∀ row ∈ visited, ∀ name, rows (row ++ [name]) → row ++ [name] ∈ visited ++ walk.queue
  around : ∀ row name, row ++ [name] ∈ walk.queue → row ∈ visited
  ordered : (visited ++ walk.queue).Pairwise fun a b => a = b ∨ Disk.Precedes a b
  nodup : visited.Nodup

variable {rows : List String → Prop} {walk later : Walk} {visited : List (List String)}
  {row : List String} {queue : List (List String)}

/-- A row is skipped that was visited before. -/
theorem Traced.skip (h : Traced disk layout root start place rows walk visited)
    (hqueue : walk.queue = row :: queue) (hold : row ∈ visited) :
    Traced disk layout root start place rows { walk with queue } visited := by
  -- it is still among the visited ones, so nothing is lost
  have hmem : ∀ {other}, other ∈ visited ++ walk.queue → other ∈ visited ++ queue := by
    intro other hother
    rw [hqueue] at hother
    rcases List.mem_append.mp hother with hvisited | hwaits
    · exact List.mem_append_left _ hvisited
    · rcases List.mem_cons.mp hwaits with rfl | hwaits
      · exact List.mem_append_left _ hold
      · exact List.mem_append_right _ hwaits
  have hsub : (visited ++ queue).Sublist (visited ++ walk.queue) := by
    rw [hqueue]
    exact List.Sublist.append_left (List.sublist_cons_self row queue) visited
  exact {
    paths := h.paths
    entries := h.entries
    allowed := fun other hother => h.allowed other (hsub.subset hother)
    here := hmem h.here
    closed := fun other hother name hname => hmem (h.closed other hother name hname)
    around := fun other name hwaits => h.around other name (by
      rw [hqueue]
      exact List.mem_cons_of_mem row hwaits)
    ordered := h.ordered.sublist hsub
    nodup := h.nodup }

/-- What lies in a row that is visited comes behind all that was visited and all that waits. -/
theorem Traced.precedes_concat (h : Traced disk layout root start place rows walk visited)
    (hqueue : walk.queue = row :: queue) (hnew : row ∉ visited) (name : String) :
    ∀ other ∈ visited ++ row :: queue, Disk.Precedes other (row ++ [name]) := by
  have hordered := h.ordered
  rw [hqueue, List.pairwise_append] at hordered
  obtain ⟨-, -, hbefore⟩ := hordered
  have hdeeper : ∀ {other : List String}, other.length ≤ row.length →
      Disk.Precedes other (row ++ [name]) :=
    fun hle => .depth (by rw [List.length_append]; exact Nat.lt_succ_of_le hle)
  intro other hother
  rcases List.mem_append.mp hother with hvisited | hwaits
  · rcases hbefore other hvisited row List.mem_cons_self with rfl | hprecedes
    · exact absurd hvisited hnew
    · exact hdeeper hprecedes.length_le
  · rcases List.mem_cons.mp hwaits with rfl | hwaits
    · exact hdeeper (Nat.le_refl _)
    · -- it lies in a row that was visited earlier, or it is the start
      rcases List.eq_nil_or_concat other with rfl | ⟨above, last, rfl⟩
      · exact hdeeper (Nat.zero_le _)
      · rw [List.concat_eq_append] at hwaits ⊢
        have habove := h.around above last (by rw [hqueue]; exact List.mem_cons_of_mem row hwaits)
        rcases hbefore above habove row List.mem_cons_self with rfl | hprecedes
        · exact absurd habove hnew
        · exact hprecedes.concat last name

/-- A row is visited for the first time. -/
theorem Traced.visit (h : Traced disk layout root start place rows walk visited)
    (hleads : Leads disk layout start place rows) (hqueue : walk.queue = row :: queue)
    (hnew : row ∉ visited) :
    Traced disk layout root start place rows
      { queue := queue ++ (Listing.ofDirectory disk layout (start.descend row)
          (place ++ row)).directories.map fun name => row ++ [name]
        visited := walk.visited ++ [start.descend row]
        entries := walk.entries ++ entriesIn disk layout root (start.descend row) (place ++ row) }
      (visited ++ [row]) := by
  have hrow : rows row := h.allowed row (by simp [hqueue])
  have hlisted := hleads.listed hrow
  have hbehind := h.precedes_concat hqueue hnew
  have hsorted := pairwise_directories disk layout (start.descend row) (place ++ row)
  generalize (Listing.ofDirectory disk layout (start.descend row) (place ++ row)).directories
    = names at hlisted hsorted ⊢
  have hassoc : visited ++ [row] ++ (queue ++ names.map fun name => row ++ [name])
      = (visited ++ walk.queue) ++ names.map fun name => row ++ [name] := by
    simp [hqueue]
  exact {
    paths := by simp [h.paths]
    entries := by simp [h.entries]
    allowed := by
      rw [hassoc]
      intro other hother
      rcases List.mem_append.mp hother with hother | hother
      · exact h.allowed other hother
      · obtain ⟨name, hname, rfl⟩ := List.mem_map.mp hother
        exact (hlisted name).mp hname
    here := by
      rw [hassoc]
      exact List.mem_append_left _ h.here
    closed := by
      rw [hassoc]
      intro other hother name hname
      rcases List.mem_append.mp hother with hother | hother
      · exact List.mem_append_left _ (h.closed other hother name hname)
      · rw [List.mem_singleton.mp hother] at hname ⊢
        exact List.mem_append_right _ (List.mem_map.mpr ⟨name, (hlisted name).mpr hname, rfl⟩)
    around := by
      intro other name hwaits
      rcases List.mem_append.mp hwaits with hwaits | hwaits
      · exact List.mem_append_left _ (h.around other name (by simp [hqueue, hwaits]))
      · obtain ⟨last, -, heq⟩ := List.mem_map.mp hwaits
        rw [(List.append_inj' heq rfl).1]
        exact List.mem_append_right _ (List.mem_singleton_self other)
    ordered := by
      rw [hassoc, List.pairwise_append]
      refine ⟨h.ordered, ?_, ?_⟩
      · refine List.pairwise_map.mpr (hsorted.imp fun {a b} hle => ?_)
        by_cases hab : a = b
        · exact .inl (by rw [hab])
        · exact .inr (.names row (Disk.lt_of_nameLe hle hab))
      · intro other hother last hlast
        obtain ⟨name, -, rfl⟩ := List.mem_map.mp hlast
        rw [hqueue] at hother
        exact .inr (hbehind name other hother)
    nodup := by
      refine List.nodup_append.mpr ⟨h.nodup, List.pairwise_singleton _ row, ?_⟩
      rintro other hother _ hlast rfl
      exact hnew (List.mem_singleton.mp hlast ▸ hother) }

/-- **One round** visits the first row that waits, unless it was visited before. -/
theorem traced_next (hleads : Leads disk layout start place rows)
    (h : ∃ visited, Traced disk layout root start place rows walk visited)
    (hnext : next? disk layout root start place walk = some later) :
    ∃ visited, Traced disk layout root start place rows later visited := by
  obtain ⟨visited, h⟩ := h
  obtain ⟨row, queue, hqueue, hcases⟩ := next?_cases hnext
  have hmember : (start.descend row).memberOf walk.visited = true ↔ row ∈ visited := by
    have hrow : rows row := h.allowed row (by simp [hqueue])
    rw [Path.memberOf_iff, h.paths]
    constructor
    · rintro ⟨path, hpath, hsame⟩
      obtain ⟨other, hother, rfl⟩ := List.mem_map.mp hpath
      have heq := hleads.apart hrow (h.allowed other (List.mem_append_left _ hother)) hsame
      rw [heq]
      exact hother
    · exact fun hold => ⟨_, List.mem_map_of_mem hold, Path.same_iff.mpr rfl⟩
  rcases hcases with ⟨hold, rfl⟩ | ⟨hnew, rfl⟩
  · exact ⟨visited, h.skip hqueue (hmember.mp hold)⟩
  · refine ⟨visited ++ [row], h.visit hleads hqueue fun hold => ?_⟩
    rw [hmember.mpr hold] at hnew
    cases hnew

/-- When nothing waits, all rows were visited. -/
theorem Traced.inOrder (h : Traced disk layout root start place rows walk visited)
    (hleads : Leads disk layout start place rows) (hqueue : walk.queue = []) :
    InOrder Disk.Precedes rows visited := by
  obtain ⟨-, -, hallowed, hhere, hclosed, -, hordered, hnodup⟩ := h
  rw [hqueue, List.append_nil] at hallowed hhere hclosed hordered
  refine ⟨(hordered.and hnodup).imp fun hab => hab.1.resolve_left hab.2, fun row => ?_⟩
  refine ⟨hallowed row, fun hrow => ?_⟩
  induction row using List.reverseRecOn with
  | nil => exact hhere
  | append_singleton row name ih => exact hclosed row (ih (hleads.above hrow)) name hrow

end Walk

variable {disk : Disk} {layout : Layout} {root start : Path} {place : Place}

/-- **A walk visits all rows** that listings lead to, each once and breadth first, and finds the
    entries in them one row after the other. -/
theorem exists_visited (root : Path) {rows : List String → Prop}
    (hleads : Walk.Leads disk layout start place rows) :
    ∃ visited, InOrder Disk.Precedes rows visited
      ∧ (walkFrom disk layout root start place).visited = visited.map start.descend
      ∧ (walkFrom disk layout root start place).entries = visited.flatMap fun row =>
        entriesIn disk layout root (start.descend row) (place ++ row) := by
  have hfirst : Walk.Traced disk layout root start place rows ⟨[[]], [], []⟩ [] := {
    paths := rfl
    entries := rfl
    allowed := fun row hrow => List.mem_singleton.mp hrow ▸ hleads.here
    here := List.mem_singleton_self []
    closed := fun row hrow => absurd hrow List.not_mem_nil
    around := fun row name hrow => absurd (List.mem_singleton.mp hrow) (by simp)
    ordered := List.pairwise_singleton _ _
    nodup := .nil }
  obtain ⟨⟨visited, htraced⟩, hqueue⟩ := Walk.finish_induct (Walk.traced_next hleads) ⟨[], hfirst⟩
  exact ⟨visited, htraced.inOrder hleads hqueue, htraced.paths, htraced.entries⟩

/-- Whatever is on disk, what a walk finds is in a directory at or below its start. -/
theorem exists_of_mem_walkFrom {entry : Entry}
    (h : entry ∈ (walkFrom disk layout root start place).entries) :
    ∃ row, entry ∈ entriesIn disk layout root (start.descend row) (place ++ row) := by
  refine (Walk.finish_induct (motive := fun walk => ∀ entry ∈ walk.entries, ∃ row,
    entry ∈ entriesIn disk layout root (start.descend row) (place ++ row)) ?_ ?_).1 entry h
  · intro walk later hwalk hnext entry hentry
    obtain ⟨row, queue, -, ⟨-, rfl⟩ | ⟨-, rfl⟩⟩ := Walk.next?_cases hnext
    · exact hwalk entry hentry
    · rcases List.mem_append.mp hentry with hentry | hentry
      · exact hwalk entry hentry
      · exact ⟨row, hentry⟩
  · exact fun entry hentry => absurd hentry List.not_mem_nil

end Library

end ScriptServer

import ScriptServer.Library.Entry

namespace ScriptServer.Library

/-!
# Walks through directories

A walk goes from a directory through everything below it, breadth first.  Directories wait in a
queue, each as the row of names that leads to it from the start.  A directory is listed when it is
visited for the first time, and those in it wait behind all others.

* `Listing` — what there is directly in a directory.
* `Walk` — a walk under way: what waits, what was visited, what was found.
* `Walk.next?` — one round of it.
* `Walk.rounds_lt` — every round leaves fewer of them.
* `walkFrom` — a whole walk.
-/

/-- Whether a file with this name is a script. -/
def isScript (layout : Layout) (name : String) : Bool :=
  (splitExtension name.toList).2 == some layout.extension.toList

/-- What there is directly in a directory, by name: the scripts, and the directories that are not
    hidden. -/
structure Listing where
  scripts : List String
  directories : List String

/-- Lists a directory, which lies at a place.  One whose path is too long cannot be listed. -/
def Listing.ofDirectory (disk : Disk) (layout : Layout) (directory : Path) (place : Place) :
    Listing :=
  if Disk.fits directory then
    ⟨(disk.fileNames place).filter (isScript layout),
      (disk.directoryNames place).filter (!Disk.isHidden ·)⟩
  else ⟨[], []⟩

/-- The entries for the scripts in a directory. -/
def Listing.entries (listing : Listing) (disk : Disk) (syn : ModuleSyntax) (root directory : Path) :
    List Entry :=
  listing.scripts.filterMap fun name => Entry.ofFile? disk syn root (directory.child name)

/-- A walk under way. -/
structure Walk where
  /-- The directories that wait, each as the names that lead to it from the start. -/
  queue : List (List String)
  /-- The directories that were visited, one after the other. -/
  visited : List Path
  /-- The modules that were found in them. -/
  entries : List Entry

namespace Walk

section Rounds

variable (disk : Disk) (layout : Layout) (root start : Path) (place : Place)

/-- One round: the first directory that waits is visited, unless it was before.  The start lies at
    the place. -/
def next? (walk : Walk) : Option Walk :=
  match walk.queue with
  | [] => none
  | row :: queue =>
    let directory := start.descend row
    if directory.memberOf walk.visited then some { walk with queue }
    else
      let listing := Listing.ofDirectory disk layout directory (place ++ row)
      some
        { queue := queue ++ listing.directories.map fun name => row ++ [name]
          visited := walk.visited ++ [directory]
          entries := walk.entries ++ listing.entries disk layout.syn root directory }

/-! ### The rounds come to an end -/

/-- Whether a place lies directly in a directory that is still to be visited. -/
def isAhead (visited : List Path) (other : Place) : Bool :=
  (Disk.namesBelow? place other.dropLast).any fun row => !(start.descend row).memberOf visited

/-- How many rounds there are left at most.  Only the visit to the directory around it puts a
    directory into the queue. -/
def rounds (walk : Walk) : Nat :=
  walk.queue.length + disk.directories.countP (isAhead start place walk.visited)

variable {disk layout root start place}

theorem isAhead_of_append {visited more : List Path} {other : Place}
    (h : isAhead start place (visited ++ more) other = true) :
    isAhead start place visited other = true := by
  obtain ⟨row, hrow, hnew⟩ := (Option.any_eq_true ..).mp h
  refine (Option.any_eq_true ..).mpr ⟨row, hrow, ?_⟩
  rw [Path.memberOf, List.any_append, Bool.not_or, Bool.and_eq_true] at hnew
  exact hnew.1

/-- What lies directly in a directory is ahead before the visit, and no longer afterwards. -/
theorem countP_isAhead_add_le (place : Place) {visited : List Path} {row : List String}
    (hnew : (start.descend row).memberOf visited = false) (directories : List Place) :
    directories.countP (isAhead start place (visited ++ [start.descend row]))
        + (directories.filterMap (Disk.nameIn? (place ++ row))).length
      ≤ directories.countP (isAhead start place visited) := by
  induction directories with
  | nil => exact Nat.le_refl 0
  | cons other directories ih =>
    rw [List.countP_cons, List.countP_cons]
    cases hname : Disk.nameIn? (place ++ row) other with
    | none =>
      rw [List.filterMap_cons_none hname]
      by_cases hahead : isAhead start place (visited ++ [start.descend row]) other = true
      · rw [if_pos hahead, if_pos (isAhead_of_append hahead)]
        omega
      · rw [if_neg hahead]
        omega
    | some name =>
      have hrow : Disk.namesBelow? place other.dropLast = some row := by
        rw [Disk.nameIn?_eq_some.mp hname, List.dropLast_concat, Disk.namesBelow?_eq_some]
      have hbefore : isAhead start place visited other = true := by
        rw [isAhead, hrow, Option.any_some, hnew]
        rfl
      have hafter : isAhead start place (visited ++ [start.descend row]) other = false := by
        simp [isAhead, hrow, Path.memberOf, Path.same]
      rw [List.filterMap_cons_some hname, List.length_cons, if_pos hbefore, hafter]
      simp only [Bool.false_eq_true, if_false]
      omega

theorem length_directories_le (disk : Disk) (layout : Layout) (directory : Path) (other : Place) :
    (Listing.ofDirectory disk layout directory other).directories.length
      ≤ (disk.directories.filterMap (Disk.nameIn? other)).length := by
  unfold Listing.ofDirectory
  split
  · refine Nat.le_trans (List.length_filter_le _ _) ?_
    exact Nat.le_of_eq (by rw [Disk.directoryNames, List.length_mergeSort])
  · exact Nat.zero_le _

/-- What one round can do. -/
theorem next?_cases {walk later : Walk}
    (h : next? disk layout root start place walk = some later) :
    ∃ row queue, walk.queue = row :: queue
      ∧ ((start.descend row).memberOf walk.visited = true ∧ later = { walk with queue }
        ∨ (start.descend row).memberOf walk.visited = false
          ∧ later =
            { queue := queue ++ (Listing.ofDirectory disk layout (start.descend row)
                (place ++ row)).directories.map fun name => row ++ [name]
              visited := walk.visited ++ [start.descend row]
              entries := walk.entries ++ (Listing.ofDirectory disk layout (start.descend row)
                (place ++ row)).entries disk layout.syn root (start.descend row) }) := by
  unfold next? at h
  split at h
  next => cases h
  next row queue hqueue =>
    refine ⟨row, queue, hqueue, ?_⟩
    dsimp only at h
    split at h
    next hold => exact .inl ⟨hold, (Option.some.inj h).symm⟩
    next hnew => exact .inr ⟨Bool.not_eq_true _ ▸ hnew, (Option.some.inj h).symm⟩

theorem rounds_lt {walk later : Walk} (h : next? disk layout root start place walk = some later) :
    rounds disk start place later < rounds disk start place walk := by
  obtain ⟨row, queue, hqueue, ⟨-, rfl⟩ | ⟨hnew, rfl⟩⟩ := next?_cases h
  · simp only [rounds, hqueue, List.length_cons]
    omega
  · have hahead := countP_isAhead_add_le place hnew disk.directories
    have hlisted := length_directories_le disk layout (start.descend row) (place ++ row)
    simp only [rounds, hqueue, List.length_append, List.length_map, List.length_cons]
    omega

end Rounds

/-- All rounds that are left. -/
def finish (disk : Disk) (layout : Layout) (root start : Path) (place : Place) (walk : Walk) :
    Walk :=
  match _ : next? disk layout root start place walk with
  | none => walk
  | some later => finish disk layout root start place later
termination_by rounds disk start place walk
decreasing_by exact rounds_lt ‹_›

end Walk

/-- The walk from a directory, which lies at a place. -/
def walkFrom (disk : Disk) (layout : Layout) (root start : Path) (place : Place) : Walk :=
  .finish disk layout root start place ⟨[[]], [], []⟩

end ScriptServer.Library

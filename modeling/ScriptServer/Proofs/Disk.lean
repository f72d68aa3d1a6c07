import Mathlib.Data.List.Induction
import ScriptServer.Disk.Basic
import ScriptServer.Proofs.Path

namespace ScriptServer.Disk

/-!
# Trees of files

* `Disk.IsTree` — everything on a disk lies in a directory, under a name of its own.
* `Disk.Reaches` — the directories that are reached from one without entering a hidden one.
* `Disk.find_descend_iff` — a path below a directory leads to the directory at its names, if it is
  short enough.
* `Disk.read_child_congr` — what a file below a directory is read as depends on its content only.
-/

/-- Whether a text can name something on disk. -/
structure ValidName (name : String) : Prop extends Path.IsName name where
  no_nul : '\x00' ∉ name.toList
  short : name.utf8ByteSize ≤ nameLimit

instance (name : String) : Decidable (ValidName name) :=
  decidable_of_iff
    (Path.IsName name ∧ '\x00' ∉ name.toList ∧ name.utf8ByteSize ≤ nameLimit)
    ⟨fun h => ⟨h.1, h.2.1, h.2.2⟩, fun h => ⟨h.toIsName, h.no_nul, h.short⟩⟩

/-- Whether files and directories form a tree. -/
structure IsTree (disk : Disk) : Prop where
  directory_mem : ∀ place ∈ disk.directories, ∃ above name,
    place = above ++ [name] ∧ ValidName name ∧ disk.isDirectory above = true
  file_mem : ∀ file ∈ disk.files, ∃ above name,
    file.1 = above ++ [name] ∧ ValidName name ∧ disk.isDirectory above = true
      ∧ disk.isDirectory file.1 = false

/-- Whether a place has a name of its own in a directory. -/
def isNamed (disk : Disk) (place : Place) : Bool :=
  place.getLast?.any fun name => decide (ValidName name) && disk.isDirectory place.dropLast

theorem isNamed_iff {disk : Disk} {place : Place} :
    disk.isNamed place = true
      ↔ ∃ above name, place = above ++ [name] ∧ ValidName name ∧ disk.isDirectory above = true := by
  rcases List.eq_nil_or_concat place with rfl | ⟨above, name, rfl⟩
  · simp [isNamed]
  · rw [List.concat_eq_append, isNamed, List.getLast?_concat, List.dropLast_concat, Option.any_some,
      Bool.and_eq_true, decide_eq_true_eq]
    constructor
    · rintro ⟨hvalid, habove⟩
      exact ⟨above, name, rfl, hvalid, habove⟩
    · rintro ⟨other, last, hplace, hvalid, hother⟩
      obtain ⟨rfl, hlast⟩ := List.append_inj' hplace rfl
      rw [List.head_eq_of_cons_eq hlast]
      exact ⟨hvalid, hother⟩

instance (disk : Disk) : Decidable disk.IsTree :=
  decidable_of_iff
    ((∀ place ∈ disk.directories, disk.isNamed place = true)
      ∧ ∀ file ∈ disk.files, disk.isNamed file.1 = true ∧ disk.isDirectory file.1 = false)
    ⟨fun h => ⟨fun place hplace => isNamed_iff.mp (h.1 place hplace), fun file hfile => by
        obtain ⟨above, name, hplace, hvalid, habove⟩ := isNamed_iff.mp (h.2 file hfile).1
        exact ⟨above, name, hplace, hvalid, habove, (h.2 file hfile).2⟩⟩,
      fun h => ⟨fun place hplace => isNamed_iff.mpr (h.directory_mem place hplace),
        fun file hfile => by
          obtain ⟨above, name, hplace, hvalid, habove, hnot⟩ := h.file_mem file hfile
          exact ⟨isNamed_iff.mpr ⟨above, name, hplace, hvalid, habove⟩, hnot⟩⟩⟩

/-- Whether a row of names leads from a directory to another one without entering a hidden one. -/
inductive Reaches (disk : Disk) (start : Place) : List String → Prop where
  | here : Reaches disk start []
  | enter {row : List String} {name : String} (h : Reaches disk start row)
      (hvisible : isHidden name = false)
      (hdirectory : disk.isDirectory (start ++ row ++ [name]) = true) :
      Reaches disk start (row ++ [name])

section Tree

variable {disk : Disk} {place start : Place} {row : List String} {name : String}

theorem isDirectory_iff : disk.isDirectory place = true ↔ place = [] ∨ place ∈ disk.directories := by
  unfold isDirectory
  rw [Bool.or_eq_true, List.isEmpty_iff, List.contains_iff_mem]

theorem isDirectory_concat_iff :
    disk.isDirectory (place ++ [name]) = true ↔ place ++ [name] ∈ disk.directories := by
  rw [isDirectory_iff]
  simp

/-- Everything above a directory is a directory. -/
theorem IsTree.isDirectory_above (h : disk.IsTree) {above : Place}
    (hplace : disk.isDirectory place = true) (habove : above <+: place) :
    disk.isDirectory above = true := by
  induction place using List.reverseRecOn with
  | nil =>
    rw [List.prefix_nil.mp habove]
    rfl
  | append_singleton place name ih =>
    rcases List.prefix_concat_iff.mp habove with rfl | habove
    · exact hplace
    · obtain ⟨directory, last, hlast, -, hdirectory⟩ :=
        h.directory_mem _ (isDirectory_concat_iff.mp hplace)
      obtain ⟨rfl, -⟩ := List.append_inj' hlast rfl
      exact ih hdirectory habove

/-- All names on the way to a directory are valid. -/
theorem IsTree.validName (h : disk.IsTree) (hplace : disk.isDirectory place = true) :
    ∀ name ∈ place, ValidName name := by
  induction place using List.reverseRecOn with
  | nil => exact fun _ hname => absurd hname List.not_mem_nil
  | append_singleton place name ih =>
    obtain ⟨directory, last, hlast, hvalid, hdirectory⟩ :=
      h.directory_mem _ (isDirectory_concat_iff.mp hplace)
    obtain ⟨rfl, hname⟩ := List.append_inj' hlast rfl
    obtain rfl : name = last := List.head_eq_of_cons_eq hname
    intro other hother
    rcases List.mem_append.mp hother with hother | hother
    · exact ih hdirectory other hother
    · rw [List.mem_singleton.mp hother]
      exact hvalid

/-! ### Reaching directories -/

theorem Reaches.isDirectory (hstart : disk.isDirectory start = true) (h : disk.Reaches start row) :
    disk.isDirectory (start ++ row) = true := by
  cases h with
  | here =>
    rw [List.append_nil]
    exact hstart
  | enter h hvisible hdirectory =>
    rw [← List.append_assoc]
    exact hdirectory

theorem Reaches.visible (h : disk.Reaches start row) : ∀ name ∈ row, isHidden name = false := by
  induction h with
  | here => exact fun _ hname => absurd hname List.not_mem_nil
  | enter h hvisible hdirectory ih =>
    intro name hname
    rcases List.mem_append.mp hname with hname | hname
    · exact ih name hname
    · rw [List.mem_singleton.mp hname]
      exact hvisible

/-- In a tree a directory is reached when no name on the way to it is hidden. -/
theorem IsTree.reaches_iff (h : disk.IsTree) (hstart : disk.isDirectory start = true) :
    disk.Reaches start row
      ↔ (∀ name ∈ row, isHidden name = false) ∧ disk.isDirectory (start ++ row) = true := by
  refine ⟨fun hrow => ⟨hrow.visible, hrow.isDirectory hstart⟩, ?_⟩
  rintro ⟨hvisible, hdirectory⟩
  induction row using List.reverseRecOn with
  | nil => exact .here
  | append_singleton row name ih =>
    rw [← List.append_assoc] at hdirectory
    refine .enter (ih ?_ ?_) (hvisible name (by simp)) hdirectory
    · exact fun other hother => hvisible other (by simp [hother])
    · exact h.isDirectory_above hdirectory (List.prefix_append _ _)

theorem IsTree.validName_of_reaches (h : disk.IsTree) (hstart : disk.isDirectory start = true)
    (hrow : disk.Reaches start row) : ∀ name ∈ row, ValidName name :=
  fun name hname =>
    h.validName (hrow.isDirectory hstart) name (List.mem_append_right start hname)

theorem IsTree.reaches_above (h : disk.IsTree) (hstart : disk.isDirectory start = true)
    {above : List String} (hrow : disk.Reaches start row) (habove : above <+: row) :
    disk.Reaches start above := by
  rw [h.reaches_iff hstart] at hrow ⊢
  refine ⟨fun name hname => hrow.1 name (habove.subset hname), ?_⟩
  exact h.isDirectory_above hrow.2 ((List.prefix_append_right_inj start).mpr habove)

theorem mem_directoryNames :
    name ∈ disk.directoryNames place ↔ disk.isDirectory (place ++ [name]) = true := by
  unfold directoryNames
  rw [List.mem_mergeSort, List.mem_filterMap, isDirectory_concat_iff]
  constructor
  · rintro ⟨other, hother, hname⟩
    rw [← nameIn?_eq_some.mp hname]
    exact hother
  · exact fun hmem => ⟨place ++ [name], hmem, nameIn?_eq_some.mpr rfl⟩

theorem mem_fileNames :
    name ∈ disk.fileNames place ↔ ∃ content, disk.contentAt? (place ++ [name]) = some content := by
  unfold fileNames contentAt?
  rw [List.mem_mergeSort, List.mem_filterMap]
  constructor
  · rintro ⟨file, hfile, hname⟩
    have hsome : (disk.files.find? fun file => file.1 = place ++ [name]).isSome = true := by
      rw [List.find?_isSome]
      exact ⟨file, hfile, decide_eq_true (nameIn?_eq_some.mp hname)⟩
    obtain ⟨found, hfound⟩ := Option.isSome_iff_exists.mp hsome
    exact ⟨found.2, by rw [hfound]; rfl⟩
  · rintro ⟨content, hcontent⟩
    obtain ⟨file, hfile, -⟩ := Option.map_eq_some_iff.mp hcontent
    refine ⟨file, List.mem_of_find?_eq_some hfile, nameIn?_eq_some.mpr ?_⟩
    exact of_decide_eq_true (List.find?_some hfile :)

/-- A file lies in a directory, has a valid name and is no directory. -/
theorem IsTree.of_mem_fileNames (h : disk.IsTree) (hname : name ∈ disk.fileNames place) :
    ValidName name ∧ disk.isDirectory (place ++ [name]) = false := by
  unfold fileNames at hname
  rw [List.mem_mergeSort, List.mem_filterMap] at hname
  obtain ⟨file, hfile, hname⟩ := hname
  obtain ⟨above, last, hplace, hvalid, -, hnot⟩ := h.file_mem file hfile
  rw [nameIn?_eq_some.mp hname] at hplace hnot
  obtain ⟨-, hlast⟩ := List.append_inj' hplace rfl
  rw [List.head_eq_of_cons_eq hlast]
  refine ⟨hvalid, ?_⟩
  rw [← List.head_eq_of_cons_eq hlast]
  exact hnot

end Tree

/-! ### Following paths -/

section Find

variable {disk : Disk} {place start : Place} {row : List String} {name : String}

/-- Where a part leads from a place, if it leads to a directory. -/
def partFrom (place : Place) : Part → Place
  | .name text => place ++ [text]
  | .up => place.dropLast
  | .here => place
  | .root => []

theorem follow_eq_directory {found : Found} {part : Part} {target : Place}
    (h : disk.follow found part = .directory target) :
    ∃ place, found = .directory place ∧ target = partFrom place part := by
  cases found with
  | missing reason => cases h
  | file place content => cases h
  | directory place =>
    refine ⟨place, rfl, ?_⟩
    cases part with
    | root => exact (Found.directory.inj h).symm
    | here => exact (Found.directory.inj h).symm
    | up => exact (Found.directory.inj h).symm
    | name text =>
      simp only [follow, lookAt] at h
      split at h
      · cases h
      · split at h
        · exact (Found.directory.inj h).symm
        · split at h <;> cases h

theorem foldl_follow_eq_directory {found : Found} {parts : List Part} {target : Place}
    (h : parts.foldl disk.follow found = .directory target) :
    ∃ place, found = .directory place ∧ target = parts.foldl partFrom place := by
  induction parts generalizing found with
  | nil => exact ⟨target, h, rfl⟩
  | cons part parts ih =>
    obtain ⟨next, hnext, htarget⟩ := ih h
    obtain ⟨place, hfound, rfl⟩ := follow_eq_directory hnext
    exact ⟨place, hfound, htarget⟩

theorem find_eq_directory_iff {path : Path} {target : Place} :
    disk.find path = .directory target
      ↔ '\x00' ∉ path.text.toList ∧ fits path = true ∧ path.isAbsolute = true
        ∧ path.parts.foldl disk.follow (.directory []) = .directory target := by
  unfold find
  by_cases hnul : '\x00' ∈ path.text.toList
  · simp [hnul]
  · by_cases hfits : fits path = true
    · by_cases habsolute : path.isAbsolute = true
      · have hcontains : path.text.toList.contains '\x00' = false := by
          rw [← Bool.not_eq_true, List.contains_iff_mem]
          exact hnul
        rw [hcontains, hfits, habsolute]
        simp only [Bool.false_eq_true, if_false, Bool.not_true, if_true, hnul, not_false_eq_true,
          true_and]
        -- a file is never a directory, whatever slash ends the path
        split
        · rename_i hfold
          rw [hfold]
          split <;> simp
        · rfl
      · simp [hnul, hfits, habsolute]
    · simp [hnul, hfits]

/-- Where a path leads to a directory, all disks have this directory at the same place. -/
theorem place_unique {other : Disk} {path : Path} {target : Place}
    (h : disk.find path = .directory place) (hother : other.find path = .directory target) :
    target = place := by
  obtain ⟨-, -, -, hfold⟩ := find_eq_directory_iff.mp h
  obtain ⟨-, -, -, hfold'⟩ := find_eq_directory_iff.mp hother
  obtain ⟨first, hfirst, rfl⟩ := foldl_follow_eq_directory hfold
  obtain ⟨second, hsecond, rfl⟩ := foldl_follow_eq_directory hfold'
  rw [← Found.directory.inj hfirst, ← Found.directory.inj hsecond]

theorem lookAt_eq_directory_iff {target : Place} :
    disk.lookAt place = .directory target ↔ disk.isDirectory place = true ∧ target = place := by
  unfold lookAt
  by_cases hplace : disk.isDirectory place = true
  · rw [if_pos hplace, Found.directory.injEq]
    exact ⟨fun h => ⟨hplace, h.symm⟩, fun h => h.2.symm⟩
  · rw [if_neg hplace]
    split <;> simp [hplace]

/-- Following parts from a directory leads to directories only. -/
theorem IsTree.isDirectory_of_foldl (h : disk.IsTree) {parts : List Part} {target : Place}
    (hplace : disk.isDirectory place = true)
    (hfold : parts.foldl disk.follow (.directory place) = .directory target) :
    disk.isDirectory target = true := by
  induction parts generalizing place with
  | nil =>
    rw [← Found.directory.inj hfold]
    exact hplace
  | cons part parts ih =>
    rw [List.foldl_cons] at hfold
    obtain ⟨next, hnext, -⟩ := foldl_follow_eq_directory hfold
    rw [hnext] at hfold
    refine ih ?_ hfold
    cases part with
    | root =>
      rw [← Found.directory.inj hnext]
      rfl
    | here =>
      rw [← Found.directory.inj hnext]
      exact hplace
    | up =>
      rw [← Found.directory.inj hnext]
      exact h.isDirectory_above hplace (List.dropLast_prefix _)
    | name text =>
      simp only [follow] at hnext
      split at hnext
      · cases hnext
      · obtain ⟨hdirectory, rfl⟩ := lookAt_eq_directory_iff.mp hnext
        exact hdirectory

theorem IsTree.isDirectory_of_find (h : disk.IsTree) {path : Path}
    (hpath : disk.find path = .directory place) : disk.isDirectory place = true := by
  obtain ⟨-, -, -, hfold⟩ := find_eq_directory_iff.mp hpath
  exact h.isDirectory_of_foldl rfl hfold

theorem IsTree.foldl_names_eq_directory_iff (h : disk.IsTree)
    (hplace : disk.isDirectory place = true) (hrow : ∀ name ∈ row, ValidName name)
    {target : Place} :
    (row.map Part.name).foldl disk.follow (.directory place) = .directory target
      ↔ disk.isDirectory (place ++ row) = true ∧ target = place ++ row := by
  induction row generalizing place with
  | nil =>
    rw [List.append_nil, List.map_nil, List.foldl_nil, Found.directory.injEq]
    exact ⟨fun htarget => ⟨hplace, htarget.symm⟩, fun htarget => htarget.2.symm⟩
  | cons name row ih =>
    have hnames := List.forall_mem_cons.mp hrow
    have hfollow : disk.follow (.directory place) (.name name) = disk.lookAt (place ++ [name]) :=
      if_neg (Nat.not_lt.mpr hnames.1.short)
    rw [List.map_cons, List.foldl_cons, hfollow]
    have happend : place ++ name :: row = place ++ [name] ++ row := by simp
    by_cases hnext : disk.isDirectory (place ++ [name]) = true
    · rw [lookAt_eq_directory_iff.mpr ⟨hnext, rfl⟩, ih hnext hnames.2, happend]
    · -- the way ends here, on both sides
      constructor
      · intro hfold
        obtain ⟨found, hfound, -⟩ := foldl_follow_eq_directory hfold
        exact absurd (lookAt_eq_directory_iff.mp hfound).1 hnext
      · rintro ⟨hdirectory, -⟩
        rw [happend] at hdirectory
        exact absurd (h.isDirectory_above hdirectory (List.prefix_append _ _)) hnext

/-- A path below a directory leads to the directory at its names, if it is short enough. -/
theorem IsTree.find_descend_iff (h : disk.IsTree) {root : Path} {target : Place}
    (hroot : disk.find root = .directory place) (hrow : ∀ name ∈ row, ValidName name) :
    disk.find (root.descend row) = .directory target
      ↔ fits (root.descend row) = true ∧ disk.isDirectory (place ++ row) = true
        ∧ target = place ++ row := by
  obtain ⟨hnul, -, habsolute, hfold⟩ := find_eq_directory_iff.mp hroot
  have hnames : ∀ name ∈ row, Path.IsName name := fun name hname => (hrow name hname).toIsName
  rw [find_eq_directory_iff, Path.parts_descend habsolute hnames, List.foldl_append, hfold,
    h.foldl_names_eq_directory_iff (h.isDirectory_of_find hroot) hrow]
  have hnul' := Path.not_mem_descend (by decide) hnul fun name hname =>
    ⟨hnames name hname, (hrow name hname).no_nul⟩
  constructor
  · rintro ⟨-, hfits, -, hdirectory⟩
    exact ⟨hfits, hdirectory⟩
  · rintro ⟨hfits, hdirectory⟩
    exact ⟨hnul', hfits, Path.isAbsolute_descend habsolute row, hdirectory⟩

theorem hasDirectory_iff {path : Path} :
    disk.hasDirectory path = true ↔ ∃ place, disk.find path = .directory place := by
  unfold hasDirectory
  split
  · rename_i target htarget
    exact ⟨fun _ => ⟨target, htarget⟩, fun _ => rfl⟩
  · rename_i hnot
    refine ⟨fun hfalse => absurd hfalse Bool.false_ne_true, ?_⟩
    rintro ⟨target, htarget⟩
    exact absurd htarget (hnot target)

theorem IsTree.hasDirectory_descend_iff (h : disk.IsTree) {root : Path}
    (hroot : disk.find root = .directory place) (hrow : ∀ name ∈ row, ValidName name) :
    disk.hasDirectory (root.descend row) = true
      ↔ fits (root.descend row) = true ∧ disk.isDirectory (place ++ row) = true := by
  rw [hasDirectory_iff]
  simp only [h.find_descend_iff hroot hrow]
  constructor
  · rintro ⟨target, hfits, hdirectory, -⟩
    exact ⟨hfits, hdirectory⟩
  · rintro ⟨hfits, hdirectory⟩
    exact ⟨_, hfits, hdirectory, rfl⟩

/-- A path to a file below a directory leads to this file, if it is short enough. -/
theorem IsTree.find_file (h : disk.IsTree) {root : Path} {content : Content}
    (hroot : disk.find root = .directory place) (hrow : ∀ name ∈ row, ValidName name)
    (hdirectory : disk.isDirectory (place ++ row) = true)
    (hcontent : disk.contentAt? (place ++ row ++ [name]) = some content) :
    disk.find ((root.descend row).child name)
      = if fits ((root.descend row).child name) then .file (place ++ row ++ [name]) content
        else .missing .tooLong := by
  obtain ⟨hvalid, hnot⟩ := h.of_mem_fileNames (mem_fileNames.mpr ⟨content, hcontent⟩)
  obtain ⟨hnul, -, habsolute, hfold⟩ := find_eq_directory_iff.mp hroot
  have hnames : ∀ name ∈ row, Path.IsName name := fun name hname => (hrow name hname).toIsName
  have habsolute' := Path.isAbsolute_descend habsolute row
  have hnul' : '\x00' ∉ ((root.descend row).child name).text.toList :=
    Path.not_mem_child hvalid.toIsName (by decide)
      (Path.not_mem_descend (by decide) hnul fun name hname =>
        ⟨hnames name hname, (hrow name hname).no_nul⟩) hvalid.no_nul
  have hfound : ((root.descend row).child name).parts.foldl disk.follow (.directory [])
      = .file (place ++ row ++ [name]) content := by
    have hfollow : disk.follow (.directory (place ++ row)) (.name name)
        = disk.lookAt (place ++ row ++ [name]) := if_neg (Nat.not_lt.mpr hvalid.short)
    have hlast := (h.foldl_names_eq_directory_iff (h.isDirectory_of_find hroot) hrow).mpr
      ⟨hdirectory, rfl⟩
    rw [Path.parts_child habsolute' hvalid.toIsName, Path.parts_descend habsolute hnames,
      List.foldl_append, List.foldl_append, hfold, hlast, List.foldl_cons, List.foldl_nil, hfollow]
    unfold lookAt
    rw [hnot, hcontent]
    rfl
  unfold find
  rw [List.contains_eq_mem, decide_eq_false hnul', Path.isAbsolute_child habsolute' name,
    hfound, Path.endsInSlash_child habsolute' hvalid.toIsName]
  cases fits ((root.descend row).child name) <;> rfl

/-- What a file below a directory is read as depends on its content only. -/
theorem read_child_congr {other : Disk} (h : disk.IsTree) (hother : other.IsTree) {root : Path}
    {content : Content} (hroot : disk.find root = .directory place)
    (hroot' : other.find root = .directory place) (hrow : ∀ name ∈ row, ValidName name)
    (hdirectory : disk.isDirectory (place ++ row) = true)
    (hdirectory' : other.isDirectory (place ++ row) = true)
    (hcontent : disk.contentAt? (place ++ row ++ [name]) = some content)
    (hcontent' : other.contentAt? (place ++ row ++ [name]) = some content) :
    disk.read ((root.descend row).child name) = other.read ((root.descend row).child name) := by
  unfold read
  rw [h.find_file hroot hrow hdirectory hcontent, hother.find_file hroot' hrow hdirectory' hcontent']

end Find

end ScriptServer.Disk

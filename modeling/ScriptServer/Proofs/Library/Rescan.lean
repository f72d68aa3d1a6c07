import Mathlib.Tactic.ByContra
import ScriptServer.Proofs.Library.Scan

namespace ScriptServer.Library.Index

/-!
# What a rescan changes

* `Knows`, `Holds` — the rows an index knows, and the entries it has at a row.
* `Below` — an index in which everything lies below a root.
* `Keeps`, `Gains` — the rows that stay known when one directory is listed anew, and the rows that
  are listed then.
* `knows_relist`, `mem_entries_relist` — the index afterwards.
-/

/-- Whether an index knows the directory at a row. -/
def Knows (index : Index) (root : Path) (row : List String) : Prop :=
  IsRow row ∧ root.descend row ∈ index.directories

/-- Whether an index has an entry for a file directly in the directory at a row. -/
def Holds (index : Index) (root : Path) (row : List String) (entry : Entry) : Prop :=
  IsRow row ∧ entry ∈ index.entries
    ∧ ∃ name, Disk.ValidName name ∧ entry.path = root.descend (row ++ [name])

/-- Whether everything in an index lies below a root: its directories are at rows, its entries in
    directories that it knows, and there is one entry for a path. -/
structure Below (index : Index) (root : Path) : Prop where
  root_eq : index.root = some root
  rows : Spells root (index.Knows root) index.directories
  located : ∀ entry ∈ index.entries, ∃ row, index.Knows root row ∧ index.Holds root row entry
  functional : ∀ a ∈ index.entries, ∀ b ∈ index.entries, a.path.same b.path = true → a = b

/-- Whether a row is found to have vanished when the directory at another one is listed anew. -/
def Loses (index : Index) (disk : Disk) (root : Path) (place : Place) (listed row : List String) :
    Prop :=
  index.Knows root row ∧ listed <+: row ∧ ¬ Lists disk root place row

/-- Whether a row stays known when the directory at another one is listed anew. -/
def Keeps (index : Index) (disk : Disk) (root : Path) (place : Place) (listed row : List String) :
    Prop :=
  index.Knows root row ∧ (listed <+: row → Lists disk root place row)

/-- Whether a row is listed when the directory at another one is listed anew. -/
def Gains (index : Index) (disk : Disk) (root : Path) (place : Place) (listed row : List String) :
    Prop :=
  Lists disk root place listed ∧ (row = listed ∨ ∃ name, listed ++ [name] <+: row
    ∧ Meets disk root place row ∧ ¬ index.Keeps disk root place listed (listed ++ [name]))

section Place

variable {index : Index} {root : Path} {row other : List String} {entry : Entry}

theorem Holds.isIn_iff (h : index.Holds root row entry) (hroot : root.isAbsolute = true)
    (hother : IsRow other) : entry.isIn (root.descend other) = true ↔ row = other := by
  obtain ⟨hrow, -, name, hname, hpath⟩ := h
  rw [Path.descend_concat] at hpath
  obtain ⟨parent, hparent, hparts⟩ :=
    Path.parent?_child (Path.isAbsolute_descend hroot row) hname.toIsName
  unfold Entry.isIn
  rw [hpath, hparent]
  show parent.same (root.descend other) = true ↔ row = other
  rw [Path.same_iff, hparts, ← Path.same_iff,
    Path.same_descend_iff hroot hrow.isName hother.isName]

/-- An entry lies in one directory only. -/
theorem Holds.row_unique (h : index.Holds root row entry) (hroot : root.isAbsolute = true)
    (h' : index.Holds root other entry) : row = other :=
  (h.isIn_iff hroot h'.1).mp ((h'.isIn_iff hroot h'.1).mpr rfl)

/-- An entry lies under a directory that is above its own, or that had its path. -/
theorem Holds.isUnder_iff (h : index.Holds root row entry) (hroot : root.isAbsolute = true)
    (hother : IsRow other) :
    entry.path.isUnder (root.descend other) = true
      ↔ other <+: row ∨ entry.path = root.descend other := by
  obtain ⟨hrow, -, name, hname, hpath⟩ := h
  have hconcat := isName_concat hrow hname
  have hpaths : other = row ++ [name] ↔ root.descend (row ++ [name]) = root.descend other := by
    constructor
    · intro heq
      rw [heq]
    · intro heq
      have hsame : (root.descend (row ++ [name])).same (root.descend other) = true := by
        rw [heq]
        exact Path.same_iff.mpr rfl
      exact ((Path.same_descend_iff hroot hconcat hother.isName).mp hsame).symm
  rw [hpath, Path.isUnder_descend_iff hroot hconcat hother.isName, List.prefix_concat_iff, or_comm,
    hpaths]

end Place

section Relist

variable {index : Index} {disk : Disk} {layout : Layout} {root : Path} {place : Place}
  {listed row : List String} {entry : Entry}

theorem spells_vanished (hindex : index.Below root) (h : Rooted disk root place)
    (hlisted : IsRow listed) :
    Spells root (index.Loses disk root place listed)
      (index.vanished disk (root.descend listed)) := by
  have hgone : ∀ row, index.Knows root row →
      (((root.descend row).isUnder (root.descend listed)
          && !disk.hasDirectory (root.descend row)) = true
        ↔ listed <+: row ∧ ¬ Lists disk root place row) := by
    intro row hknows
    rw [Bool.and_eq_true, Path.isUnder_descend_iff h.isAbsolute hknows.1.isName hlisted.isName,
      Bool.not_eq_true', ← Bool.not_eq_true, h.hasDirectory_iff hknows.1]
  intro directory
  unfold vanished
  rw [List.mem_filter, hindex.rows directory]
  constructor
  · rintro ⟨⟨row, hknows, rfl⟩, hrow⟩
    exact ⟨row, ⟨hknows, (hgone row hknows).mp hrow⟩, rfl⟩
  · rintro ⟨row, ⟨hknows, hrow⟩, rfl⟩
    exact ⟨⟨row, hknows, rfl⟩, (hgone row hknows).mpr hrow⟩

/-- A row stays known when nothing on the way to it has vanished. -/
theorem keeps_iff (h : Rooted disk root place) (hknows : index.Knows root row) :
    index.Keeps disk root place listed row
      ↔ ∀ gone, index.Loses disk root place listed gone → ¬ gone <+: row := by
  constructor
  · rintro ⟨-, hkeeps⟩ gone ⟨-, hunder, hnot⟩ habove
    exact hnot (h.lists_above (hkeeps (hunder.trans habove)) habove)
  · intro hgone
    refine ⟨hknows, fun hunder => ?_⟩
    by_contra hnot
    exact hgone row ⟨hknows, hunder, hnot⟩ (List.prefix_refl row)

theorem spells_keptDirectories (hindex : index.Below root) (h : Rooted disk root place)
    (hlisted : IsRow listed) :
    Spells root (index.Keeps disk root place listed)
      (index.keptDirectories (index.vanished disk (root.descend listed))) := by
  have hspells := spells_vanished hindex h hlisted
  have hkept : ∀ row, index.Knows root row →
      ((!(index.vanished disk (root.descend listed)).any (root.descend row).isUnder) = true
        ↔ index.Keeps disk root place listed row) := by
    intro row hknows
    have hunder : ∀ gone, index.Loses disk root place listed gone →
        ((root.descend row).isUnder (root.descend gone) = true ↔ gone <+: row) :=
      fun gone hgone => Path.isUnder_descend_iff h.isAbsolute hknows.1.isName hgone.1.1.isName
    rw [Bool.not_eq_true', List.any_eq_false, keeps_iff h hknows]
    constructor
    · intro hnone gone hgone habove
      exact hnone _ ((hspells _).mpr ⟨gone, hgone, rfl⟩) ((hunder gone hgone).mpr habove)
    · intro hnone path hpath
      obtain ⟨gone, hgone, rfl⟩ := (hspells path).mp hpath
      exact fun habove => hnone gone hgone ((hunder gone hgone).mp habove)
  intro directory
  unfold keptDirectories
  rw [List.mem_filter, hindex.rows directory]
  constructor
  · rintro ⟨⟨row, hknows, rfl⟩, hrow⟩
    exact ⟨row, (hkept row hknows).mp hrow, rfl⟩
  · rintro ⟨row, hkeeps, rfl⟩
    exact ⟨⟨row, hkeeps.1, rfl⟩, (hkept row hkeeps.1).mpr hkeeps⟩

/-- An entry is kept when it is in another directory that stays known, and when it has not the
    path of a directory that vanished. -/
theorem mem_keptEntries (hindex : index.Below root) (h : Rooted disk root place)
    (hlisted : IsRow listed) (hknows : index.Knows root row) (hentry : index.Holds root row entry) :
    entry ∈ index.keptEntries (root.descend listed) (index.vanished disk (root.descend listed))
      ↔ row ≠ listed ∧ index.Keeps disk root place listed row
        ∧ ∀ gone, index.Loses disk root place listed gone → entry.path ≠ root.descend gone := by
  unfold keptEntries
  rw [List.mem_filter, Bool.and_eq_true, Bool.not_eq_true', ← Bool.not_eq_true,
    hentry.isIn_iff h.isAbsolute hlisted, Bool.not_eq_true', List.any_eq_false, keeps_iff h hknows]
  constructor
  · rintro ⟨-, hrow, hkept⟩
    have hunder : ∀ gone, index.Loses disk root place listed gone →
        ¬ (gone <+: row ∨ entry.path = root.descend gone) := by
      intro gone hgone
      rw [← hentry.isUnder_iff h.isAbsolute hgone.1.1]
      exact hkept _ ((spells_vanished hindex h hlisted _).mpr ⟨gone, hgone, rfl⟩)
    exact ⟨hrow, fun gone hgone habove => hunder gone hgone (.inl habove),
      fun gone hgone hpath => hunder gone hgone (.inr hpath)⟩
  · rintro ⟨hrow, habove, hpath⟩
    refine ⟨hentry.2.1, hrow, ?_⟩
    intro path hmem hunder
    obtain ⟨gone, hgone, rfl⟩ := (spells_vanished hindex h hlisted path).mp hmem
    rcases (hentry.isUnder_iff h.isAbsolute hgone.1.1).mp hunder with hunder | hunder
    · exact habove gone hgone hunder
    · exact hpath gone hgone hunder

/-! ### Listing anew -/

theorem Gains.isRow (h : Rooted disk root place) (hgains : index.Gains disk root place listed row) :
    IsRow row := by
  obtain ⟨hlists, rfl | ⟨name, -, hmeets, -⟩⟩ := hgains
  · exact h.isRow hlists.1
  · exact h.isRow hmeets.1

theorem isRow_of_known (h : Rooted disk root place)
    (hrow : index.Keeps disk root place listed row ∨ index.Gains disk root place listed row) :
    IsRow row := by
  rcases hrow with hkeeps | hgains
  · exact hkeeps.1.1
  · exact hgains.isRow h

theorem spells_itself (h : Rooted disk root place) (hlisted : IsRow listed) {known : List Path}
    (hknown : Spells root (index.Keeps disk root place listed) known) :
    Spells root (fun row => index.Keeps disk root place listed row ∨ row = listed)
      (known ++ if (root.descend listed).memberOf known then [] else [root.descend listed]) := by
  have hmember := hknown.memberOf_iff h.isAbsolute (fun row hrow => hrow.1.1) hlisted
  intro path
  rw [List.mem_append, hknown path]
  by_cases hkeeps : index.Keeps disk root place listed listed
  · rw [if_pos (hmember.mpr hkeeps)]
    constructor
    · rintro (⟨row, hrow, rfl⟩ | hnone)
      · exact ⟨row, .inl hrow, rfl⟩
      · exact absurd hnone List.not_mem_nil
    · rintro ⟨row, hrow | rfl, rfl⟩
      · exact .inl ⟨row, hrow, rfl⟩
      · exact .inl ⟨row, hkeeps, rfl⟩
  · rw [if_neg fun hmem => hkeeps (hmember.mp hmem), List.mem_singleton]
    constructor
    · rintro (⟨row, hrow, rfl⟩ | rfl)
      · exact ⟨row, .inl hrow, rfl⟩
      · exact ⟨listed, .inr rfl, rfl⟩
    · rintro ⟨row, hrow | rfl, rfl⟩
      · exact .inl ⟨row, hrow, rfl⟩
      · exact .inr rfl

/-- What a directory that is listed adds: its entries, and walks from the directories in it that are
    met and do not stay known. -/
theorem exists_discover_eq (layout : Layout) (h : Rooted disk root place)
    (hlists : Lists disk root place listed) {known : List Path}
    (hknown : Spells root (index.Keeps disk root place listed) known) :
    ∃ names : List String,
      (∀ name, name ∈ names ↔ Meets disk root place (listed ++ [name])
        ∧ ¬ index.Keeps disk root place listed (listed ++ [name]))
      ∧ discover disk layout root known (root.descend listed)
        = (entriesAt disk layout root place listed ++ names.flatMap fun name =>
            (walkFrom disk layout root (root.descend (listed ++ [name]))
              (place ++ (listed ++ [name]))).entries,
          (if (root.descend listed).memberOf known then [] else [root.descend listed])
            ++ names.flatMap fun name => Path.sorted
              (walkFrom disk layout root (root.descend (listed ++ [name]))
                (place ++ (listed ++ [name]))).visited) := by
  have hrow := h.isRow hlists.1
  refine ⟨(Listing.ofDirectory disk layout (root.descend listed)
      (place ++ listed)).directories.filter fun name =>
    !((root.descend listed).child name).memberOf (known ++
      if (root.descend listed).memberOf known then [] else [root.descend listed]),
    fun name => ?_, ?_⟩
  · have hrows : ∀ row, index.Keeps disk root place listed row ∨ row = listed → IsRow row := by
      rintro row (hkeeps | rfl)
      · exact hkeeps.1.1
      · exact hrow
    rw [List.mem_filter, mem_directories_iff layout h (h.meets_of_lists hlists),
      ← Path.descend_concat]
    refine and_congr_right fun hmeets => ?_
    rw [Bool.not_eq_true', ← Bool.not_eq_true, (spells_itself h hrow hknown).memberOf_iff
      h.isAbsolute hrows (h.isRow hmeets.1)]
    simp
  · unfold discover
    rw [h.find_eq_of_lists hlists]
    simp only [List.flatMap_map, Path.descend_concat, List.append_assoc]
    rfl

theorem discover_of_not_lists (h : Rooted disk root place) (hlisted : IsRow listed)
    (hnot : ¬ Lists disk root place listed) (known : List Path) :
    discover disk layout root known (root.descend listed) = ([], []) := by
  rw [← h.hasDirectory_iff hlisted, Disk.hasDirectory_iff] at hnot
  unfold discover
  split
  · rename_i target htarget
    exact absurd ⟨target, htarget⟩ hnot
  · rfl

/-- The directories that are known afterwards. -/
theorem spells_discover (h : Rooted disk root place) (hlisted : IsRow listed) {known : List Path}
    (hknown : Spells root (index.Keeps disk root place listed) known) :
    Spells root
      (fun row => index.Keeps disk root place listed row ∨ index.Gains disk root place listed row)
      (known ++ (discover disk layout root known (root.descend listed)).2) := by
  by_cases hlists : Lists disk root place listed
  · have hitself := spells_itself h hlisted hknown
    obtain ⟨names, hnames, hdiscover⟩ := exists_discover_eq layout h hlists hknown
    have hbelow : Spells root (fun row => ∃ name, listed ++ [name] <+: row
          ∧ Meets disk root place row ∧ ¬ index.Keeps disk root place listed (listed ++ [name]))
        (names.flatMap fun name => Path.sorted (walkFrom disk layout root
          (root.descend (listed ++ [name])) (place ++ (listed ++ [name]))).visited) := by
      have hsorted : ∀ name, Meets disk root place (listed ++ [name]) → Spells root
          (fun row => listed ++ [name] <+: row ∧ Meets disk root place row)
          (Path.sorted (walkFrom disk layout root (root.descend (listed ++ [name]))
            (place ++ (listed ++ [name]))).visited) := fun name hmeets =>
        (spells_visited layout root h hmeets).sorted h.isAbsolute fun row hrow => h.isRow hrow.2.1
      intro path
      rw [List.mem_flatMap]
      constructor
      · rintro ⟨name, hname, hpath⟩
        obtain ⟨hmeets, hnot⟩ := (hnames name).mp hname
        obtain ⟨row, ⟨habove, hrow⟩, rfl⟩ := (hsorted name hmeets path).mp hpath
        exact ⟨row, ⟨name, habove, hrow, hnot⟩, rfl⟩
      · rintro ⟨row, ⟨name, habove, hrow, hnot⟩, rfl⟩
        have hmeets := h.meets_above hrow habove
        exact ⟨name, (hnames name).mpr ⟨hmeets, hnot⟩,
          (hsorted name hmeets _).mpr ⟨row, ⟨habove, hrow⟩, rfl⟩⟩
    -- the listed directory joins those that stay known, then come the new ones
    rw [hdiscover, ← List.append_assoc]
    intro path
    rw [hitself.append hbelow path]
    simp only [Gains, hlists, true_and, or_assoc]
  · rw [discover_of_not_lists h hlisted hlists, List.append_nil]
    simp only [Gains, hlists, false_and, or_false]
    exact hknown

/-- The entries that are read then. -/
theorem mem_discover (h : Rooted disk root place) (hlisted : IsRow listed) {known : List Path}
    (hknown : Spells root (index.Keeps disk root place listed) known) :
    entry ∈ (discover disk layout root known (root.descend listed)).1
      ↔ ∃ row, index.Gains disk root place listed row
        ∧ entry ∈ entriesAt disk layout root place row := by
  by_cases hlists : Lists disk root place listed
  · obtain ⟨names, hnames, hdiscover⟩ := exists_discover_eq layout h hlists hknown
    rw [hdiscover, List.mem_append, List.mem_flatMap]
    constructor
    · rintro (hentry | ⟨name, hname, hentry⟩)
      · exact ⟨listed, ⟨hlists, .inl rfl⟩, hentry⟩
      · obtain ⟨hmeets, hnot⟩ := (hnames name).mp hname
        obtain ⟨row, habove, hrow, hentry⟩ :=
          (mem_entries_walkFrom layout root h hmeets _).mp hentry
        exact ⟨row, ⟨hlists, .inr ⟨name, habove, hrow, hnot⟩⟩, hentry⟩
    · rintro ⟨row, ⟨-, rfl | ⟨name, habove, hrow, hnot⟩⟩, hentry⟩
      · exact .inl hentry
      · have hmeets := h.meets_above hrow habove
        exact .inr ⟨name, (hnames name).mpr ⟨hmeets, hnot⟩,
          (mem_entries_walkFrom layout root h hmeets _).mpr ⟨row, habove, hrow, hentry⟩⟩
  · rw [discover_of_not_lists h hlisted hlists]
    refine ⟨fun hnone => absurd hnone List.not_mem_nil, ?_⟩
    rintro ⟨row, ⟨hlists', -⟩, -⟩
    exact absurd hlists' hlists

/-! ### The index afterwards -/

theorem index_relist (disk : Disk) (layout : Layout) (root directory : Path) :
    (index.relist disk layout root directory).index
      = build root
        (index.keptEntries directory (index.vanished disk directory)
          ++ (discover disk layout root
            (index.keptDirectories (index.vanished disk directory)) directory).1)
        (index.keptDirectories (index.vanished disk directory)
          ++ (discover disk layout root
            (index.keptDirectories (index.vanished disk directory)) directory).2) := rfl

theorem spells_relist (hindex : index.Below root) (h : Rooted disk root place)
    (hlisted : IsRow listed) :
    Spells root
      (fun row => index.Keeps disk root place listed row ∨ index.Gains disk root place listed row)
      (index.relist disk layout root (root.descend listed)).index.directories := by
  exact (spells_discover h hlisted (spells_keptDirectories hindex h hlisted)).sorted
    h.isAbsolute fun row hrow => isRow_of_known h hrow

/-- The rows that are known afterwards. -/
theorem knows_relist (hindex : index.Below root) (h : Rooted disk root place)
    (hlisted : IsRow listed) :
    (index.relist disk layout root (root.descend listed)).index.Knows root row
      ↔ index.Keeps disk root place listed row ∨ index.Gains disk root place listed row := by
  have hmem : IsRow row →
      (root.descend row ∈ (index.relist disk layout root (root.descend listed)).index.directories
        ↔ index.Keeps disk root place listed row ∨ index.Gains disk root place listed row) :=
    (spells_relist hindex h hlisted).mem_iff h.isAbsolute fun other => isRow_of_known h
  constructor
  · rintro ⟨hrow, hknows⟩
    exact (hmem hrow).mp hknows
  · intro hrow
    exact ⟨isRow_of_known h hrow, (hmem (isRow_of_known h hrow)).mpr hrow⟩

/-- Whether an entry is kept or read when the directory at a row is listed anew. -/
def Retains (index : Index) (disk : Disk) (layout : Layout) (root : Path) (place : Place)
    (listed : List String) (entry : Entry) : Prop :=
  entry ∈ index.keptEntries (root.descend listed) (index.vanished disk (root.descend listed))
    ∨ ∃ row, index.Gains disk root place listed row ∧ entry ∈ entriesAt disk layout root place row

/-- Whether what an index holds in directories that are read again is what is read there. -/
def ReadsAgain (index : Index) (disk : Disk) (layout : Layout) (root : Path) (place : Place)
    (listed : List String) : Prop :=
  ∀ row entry, index.Knows root row → index.Holds root row entry → row ≠ listed →
    index.Gains disk root place listed row → entry ∈ entriesAt disk layout root place row

theorem eq_of_retains (hindex : index.Below root) (h : Rooted disk root place)
    (hlisted : IsRow listed) (hagain : index.ReadsAgain disk layout root place listed) {a b : Entry}
    (ha : index.Retains disk layout root place listed a)
    (hb : index.Retains disk layout root place listed b) (hsame : a.path.same b.path = true) :
    a = b := by
  -- an entry that is kept and one that is read for the same path are equal
  have hmixed : ∀ a ∈ index.keptEntries (root.descend listed)
        (index.vanished disk (root.descend listed)),
      ∀ b row, index.Gains disk root place listed row → b ∈ entriesAt disk layout root place row →
        a.path.same b.path = true → a = b := by
    intro a ha b row hgains hb hsame
    obtain ⟨other, hknows, hholds⟩ := hindex.located a (List.mem_filter.mp ha).1
    obtain ⟨hne, -, -⟩ := (mem_keptEntries hindex h hlisted hknows hholds).mp ha
    obtain ⟨name, hname, -, hpath, -⟩ := exists_of_mem_entriesAt h hb
    obtain ⟨last, hlast, hpath'⟩ := hholds.2.2
    have hfile := hsame
    rw [hpath, hpath'] at hfile
    obtain ⟨rfl, -⟩ := eq_of_same_file h.isAbsolute hknows.1 (hgains.isRow h) hlast hname hfile
    exact eq_of_same_path h hknows.1 hknows.1
      (hagain other a hknows hholds hne hgains) hb hsame
  rcases ha with ha | ⟨row, hgains, ha⟩
  · rcases hb with hb | ⟨other, hgains', hb⟩
    · exact hindex.functional a (List.mem_filter.mp ha).1 b (List.mem_filter.mp hb).1 hsame
    · exact hmixed a ha b other hgains' hb hsame
  · rcases hb with hb | ⟨other, hgains', hb⟩
    · exact (hmixed b hb a row hgains ha (Path.same_iff.mpr (Path.same_iff.mp hsame).symm)).symm
    · exact eq_of_same_path h (hgains.isRow h) (hgains'.isRow h) ha hb hsame

/-- The entries afterwards. -/
theorem mem_entries_relist (hindex : index.Below root) (h : Rooted disk root place)
    (hlisted : IsRow listed) (hagain : index.ReadsAgain disk layout root place listed) :
    entry ∈ (index.relist disk layout root (root.descend listed)).index.entries
      ↔ index.Retains disk layout root place listed entry := by
  have hmem : ∀ entry, entry ∈ index.keptEntries (root.descend listed)
          (index.vanished disk (root.descend listed))
        ++ (discover disk layout root (index.keptDirectories (index.vanished disk
          (root.descend listed))) (root.descend listed)).1
      ↔ index.Retains disk layout root place listed entry := by
    intro entry
    rw [List.mem_append, mem_discover h hlisted (spells_keptDirectories hindex h hlisted)]
    rfl
  rw [index_relist, entries_build, mem_firstPerPath, hmem]
  intro a ha b hb hsame
  exact eq_of_retains hindex h hlisted hagain ((hmem a).mp ha) ((hmem b).mp hb) hsame

/-- The entries that a row has afterwards. -/
theorem holds_relist (hindex : index.Below root) (h : Rooted disk root place)
    (hlisted : IsRow listed) (hagain : index.ReadsAgain disk layout root place listed) :
    (index.relist disk layout root (root.descend listed)).index.Holds root row entry
      ↔ (index.Holds root row entry ∧ row ≠ listed ∧ index.Keeps disk root place listed row
          ∧ ∀ gone, index.Loses disk root place listed gone → entry.path ≠ root.descend gone)
        ∨ index.Gains disk root place listed row
          ∧ entry ∈ entriesAt disk layout root place row := by
  constructor
  · rintro ⟨hrow, hmem, name, hname, hpath⟩
    rcases (mem_entries_relist hindex h hlisted hagain).mp hmem with hkept | ⟨other, hgains, hread⟩
    · have hholds : index.Holds root row entry :=
        ⟨hrow, (List.mem_filter.mp hkept).1, name, hname, hpath⟩
      obtain ⟨other, hknows, hholds'⟩ := hindex.located entry hholds.2.1
      obtain rfl := hholds.row_unique h.isAbsolute hholds'
      exact .inl ⟨hholds, (mem_keptEntries hindex h hlisted hknows hholds).mp hkept⟩
    · obtain ⟨last, hlast, -, hpath', -⟩ := exists_of_mem_entriesAt h hread
      have hfile : (root.descend (row ++ [name])).same (root.descend (other ++ [last])) = true := by
        rw [← hpath, ← hpath']
        exact Path.same_iff.mpr rfl
      obtain ⟨rfl, -⟩ := eq_of_same_file h.isAbsolute hrow (hgains.isRow h) hname hlast hfile
      exact .inr ⟨hgains, hread⟩
  · rintro (⟨hholds, hkept⟩ | ⟨hgains, hread⟩)
    · have hmem := (mem_keptEntries hindex h hlisted hkept.2.1.1 hholds).mpr hkept
      exact ⟨hholds.1, (mem_entries_relist hindex h hlisted hagain).mpr (.inl hmem), hholds.2.2⟩
    · obtain ⟨name, hname, -, hpath, -⟩ := exists_of_mem_entriesAt h hread
      exact ⟨hgains.isRow h, (mem_entries_relist hindex h hlisted hagain).mpr
        (.inr ⟨row, hgains, hread⟩), name, hname, hpath⟩

/-- Everything still lies below the root afterwards. -/
theorem below_relist (hindex : index.Below root) (h : Rooted disk root place)
    (hlisted : IsRow listed) (hagain : index.ReadsAgain disk layout root place listed) :
    (index.relist disk layout root (root.descend listed)).index.Below root where
  root_eq := rfl
  rows := by
    intro path
    rw [spells_relist hindex h hlisted path]
    simp only [knows_relist hindex h hlisted]
  located := by
    intro entry hentry
    rcases (mem_entries_relist hindex h hlisted hagain).mp hentry with hkept | ⟨row, hgains, hread⟩
    · obtain ⟨row, hknows, hholds⟩ := hindex.located entry (List.mem_filter.mp hkept).1
      have hkept := (mem_keptEntries hindex h hlisted hknows hholds).mp hkept
      exact ⟨row, (knows_relist hindex h hlisted).mpr (.inl hkept.2.1),
        (holds_relist hindex h hlisted hagain).mpr (.inl ⟨hholds, hkept⟩)⟩
    · exact ⟨row, (knows_relist hindex h hlisted).mpr (.inr hgains),
        (holds_relist hindex h hlisted hagain).mpr (.inr ⟨hgains, hread⟩)⟩
  functional := by
    intro a ha b hb hsame
    rw [mem_entries_relist hindex h hlisted hagain] at ha hb
    exact eq_of_retains hindex h hlisted hagain ha hb hsame

/-- Below the root, a rescan lists a directory anew. -/
theorem rescan_eq (hindex : index.Below root) (hroot : root.isAbsolute = true)
    (hlisted : IsRow listed) :
    index.rescan disk layout (root.descend listed)
      = index.relist disk layout root (root.descend listed) := by
  have hunder : (root.descend listed).isUnder root = true := by
    rw [Path.isUnder_iff, Path.parts_descend hroot hlisted.isName]
    exact List.prefix_append _ _
  unfold rescan
  rw [hindex.root_eq]
  show (if (root.descend listed).isUnder root = true then _ else _) = _
  rw [if_pos hunder]

end Relist

end ScriptServer.Library.Index

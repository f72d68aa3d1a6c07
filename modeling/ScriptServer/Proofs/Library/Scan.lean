import ScriptServer.Library.Scan
import ScriptServer.Proofs.Disk
import ScriptServer.Proofs.Library.Register
import ScriptServer.Proofs.Library.Walk

namespace ScriptServer.Library

/-!
# What a scan finds

Directories below a root are rows of names here.

* `Rooted` — a tree of files in which a root lies at a place.
* `Meets`, `Lists` — the rows that a scan meets, and those it lists.  They differ in directories
  whose path is too long.
* `Spells` — a list of paths holds those of certain rows.
* `exists_visited_below` — what a walk visits and finds, from a row that is met.
* `Index.spells_ofDisk`, `Index.mem_entries_ofDisk` — an index from a scan holds the directories
  that are met and the entries in them.
-/

/-- A tree of files in which a root lies at a place. -/
structure Rooted (disk : Disk) (root : Path) (place : Place) : Prop where
  tree : disk.IsTree
  found : disk.find root = .directory place

/-- Whether a row consists of names of directories that may be entered. -/
def IsRow (row : List String) : Prop :=
  ∀ name ∈ row, Disk.ValidName name ∧ Disk.isHidden name = false

/-- Whether a scan lists the directory at a row. -/
def Lists (disk : Disk) (root : Path) (place : Place) (row : List String) : Prop :=
  disk.Reaches place row ∧ Disk.fits (root.descend row) = true

/-- Whether a scan meets the directory at a row: the one around it is listed. -/
def Meets (disk : Disk) (root : Path) (place : Place) (row : List String) : Prop :=
  disk.Reaches place row ∧ (row = [] ∨ Disk.fits (root.descend row.dropLast) = true)

section Rows

variable {root : Path} {row other : List String}

theorem IsRow.isName (h : IsRow row) : ∀ name ∈ row, Path.IsName name :=
  fun name hname => (h name hname).1.toIsName

theorem IsRow.above (h : IsRow row) (habove : other <+: row) : IsRow other :=
  fun name hname => h name (habove.subset hname)

theorem isName_concat (h : IsRow row) {name : String} (hname : Disk.ValidName name) :
    ∀ other ∈ row ++ [name], Path.IsName other := by
  intro other hother
  rcases List.mem_append.mp hother with hother | hother
  · exact h.isName other hother
  · rw [List.mem_singleton.mp hother]
    exact hname.toIsName

/-- The path of a file tells its directory and its name. -/
theorem eq_of_same_file (hroot : root.isAbsolute = true) (hrow : IsRow row) (hother : IsRow other)
    {name last : String} (hname : Disk.ValidName name) (hlast : Disk.ValidName last)
    (hsame : (root.descend (row ++ [name])).same (root.descend (other ++ [last])) = true) :
    row = other ∧ name = last := by
  rw [Path.same_descend_iff hroot (isName_concat hrow hname) (isName_concat hother hlast)] at hsame
  obtain ⟨hrows, hnames⟩ := List.append_inj' hsame rfl
  exact ⟨hrows, List.head_eq_of_cons_eq hnames⟩

/-- What leads to a short path is short. -/
theorem fits_above (h : IsRow row) (habove : other <+: row)
    (hfits : Disk.fits (root.descend row) = true) : Disk.fits (root.descend other) = true := by
  obtain ⟨below, rfl⟩ := habove
  have hbelow : ∀ name ∈ below, Path.IsName name :=
    fun name hname => h.isName name (List.mem_append_right other hname)
  have hsize := Path.utf8ByteSize_le_descend (root.descend other) hbelow
  rw [← Path.descend_append] at hsize
  exact decide_eq_true (Nat.le_trans hsize (of_decide_eq_true hfits))

end Rows

namespace Rooted

variable {disk : Disk} {root : Path} {place : Place} {row other : List String}

theorem isDirectory (h : Rooted disk root place) : disk.isDirectory place = true :=
  h.tree.isDirectory_of_find h.found

theorem isAbsolute (h : Rooted disk root place) : root.isAbsolute = true :=
  (Disk.find_eq_directory_iff.mp h.found).2.2.1

theorem isRow (h : Rooted disk root place) (hrow : disk.Reaches place row) : IsRow row :=
  fun name hname => ⟨h.tree.validName_of_reaches h.isDirectory hrow name hname,
    hrow.visible name hname⟩

theorem reaches_above (h : Rooted disk root place) (hrow : disk.Reaches place row)
    (habove : other <+: row) : disk.Reaches place other :=
  h.tree.reaches_above h.isDirectory hrow habove

theorem lists_nil (h : Rooted disk root place) : Lists disk root place [] :=
  ⟨.here, (Disk.find_eq_directory_iff.mp h.found).2.1⟩

/-- The row around a listed one is listed. -/
theorem lists_above (h : Rooted disk root place) (hrow : Lists disk root place row)
    (habove : other <+: row) : Lists disk root place other :=
  ⟨h.reaches_above hrow.1 habove, fits_above (h.isRow hrow.1) habove hrow.2⟩

theorem meets_of_lists (h : Rooted disk root place) (hrow : Lists disk root place row) :
    Meets disk root place row :=
  ⟨hrow.1, .inr (fits_above (h.isRow hrow.1) (List.dropLast_prefix row) hrow.2)⟩

theorem meets_concat_iff (h : Rooted disk root place) {name : String} :
    Meets disk root place (row ++ [name])
      ↔ Lists disk root place row ∧ disk.Reaches place (row ++ [name]) := by
  unfold Meets
  rw [List.dropLast_concat]
  constructor
  · rintro ⟨hreaches, hnil | hfits⟩
    · exact absurd hnil (by simp)
    · exact ⟨⟨h.reaches_above hreaches (List.prefix_append row [name]), hfits⟩, hreaches⟩
  · rintro ⟨hlists, hreaches⟩
    exact ⟨hreaches, .inr hlists.2⟩

/-- What is strictly above a row that is met is listed. -/
theorem lists_of_meets (h : Rooted disk root place) (hrow : Meets disk root place row)
    (habove : other <+: row) (hne : other ≠ row) : Lists disk root place other := by
  rcases List.eq_nil_or_concat row with rfl | ⟨front, last, rfl⟩
  · exact absurd (List.prefix_nil.mp habove) hne
  · rw [List.concat_eq_append] at hrow habove hne
    rcases List.prefix_concat_iff.mp habove with heq | habove
    · exact absurd heq hne
    · exact h.lists_above (h.meets_concat_iff.mp hrow).1 habove

theorem meets_above (h : Rooted disk root place) (hrow : Meets disk root place row)
    (habove : other <+: row) : Meets disk root place other := by
  by_cases heq : other = row
  · rw [heq]
    exact hrow
  · exact h.meets_of_lists (h.lists_of_meets hrow habove heq)

/-- The path of a row leads to a directory exactly when a scan lists it. -/
theorem hasDirectory_iff (h : Rooted disk root place) (hrow : IsRow row) :
    disk.hasDirectory (root.descend row) = true ↔ Lists disk root place row := by
  rw [h.tree.hasDirectory_descend_iff h.found fun name hname => (hrow name hname).1]
  unfold Lists
  rw [h.tree.reaches_iff h.isDirectory]
  constructor
  · rintro ⟨hfits, hdirectory⟩
    exact ⟨⟨fun name hname => (hrow name hname).2, hdirectory⟩, hfits⟩
  · rintro ⟨⟨-, hdirectory⟩, hfits⟩
    exact ⟨hfits, hdirectory⟩

theorem find_eq_of_lists (h : Rooted disk root place) (hrow : Lists disk root place row) :
    disk.find (root.descend row) = .directory (place ++ row) := by
  have hvalid := h.tree.validName_of_reaches h.isDirectory hrow.1
  exact (h.tree.find_descend_iff h.found hvalid).mpr
    ⟨hrow.2, hrow.1.isDirectory h.isDirectory, rfl⟩

end Rooted

/-! ### Rows and their paths -/

/-- Whether a list holds the paths of certain rows. -/
def Spells (root : Path) (rows : List String → Prop) (paths : List Path) : Prop :=
  ∀ path, path ∈ paths ↔ ∃ row, rows row ∧ path = root.descend row

namespace Spells

variable {root : Path} {rows : List String → Prop} {paths : List Path} {row : List String}

theorem memberOf_iff (h : Spells root rows paths) (hroot : root.isAbsolute = true)
    (hrows : ∀ row, rows row → IsRow row) (hrow : IsRow row) :
    (root.descend row).memberOf paths = true ↔ rows row := by
  rw [Path.memberOf_iff]
  constructor
  · rintro ⟨path, hpath, hsame⟩
    obtain ⟨other, hother, rfl⟩ := (h path).mp hpath
    have hname := (hrows other hother).isName
    rw [(Path.same_descend_iff hroot hrow.isName hname).mp hsame]
    exact hother
  · intro hmem
    exact ⟨_, (h _).mpr ⟨row, hmem, rfl⟩, Path.same_iff.mpr rfl⟩

theorem mem_iff (h : Spells root rows paths) (hroot : root.isAbsolute = true)
    (hrows : ∀ row, rows row → IsRow row) (hrow : IsRow row) :
    root.descend row ∈ paths ↔ rows row := by
  refine ⟨fun hmem => ?_, fun hmem => (h _).mpr ⟨row, hmem, rfl⟩⟩
  rw [← h.memberOf_iff hroot hrows hrow, Path.memberOf_iff]
  exact ⟨_, hmem, Path.same_iff.mpr rfl⟩

theorem append (h : Spells root rows paths) {others : List String → Prop} {more : List Path}
    (hmore : Spells root others more) :
    Spells root (fun row => rows row ∨ others row) (paths ++ more) := by
  intro path
  rw [List.mem_append, h path, hmore path, ← exists_or]
  simp only [or_and_right]

theorem sorted (h : Spells root rows paths) (hroot : root.isAbsolute = true)
    (hrows : ∀ row, rows row → IsRow row) : Spells root rows (Path.sorted paths) := by
  intro path
  rw [Path.mem_sorted, h path]
  intro p hp q hq hsame
  obtain ⟨row, hrow, rfl⟩ := (h p).mp hp
  obtain ⟨other, hother, rfl⟩ := (h q).mp hq
  rw [(Path.same_descend_iff hroot (hrows row hrow).isName (hrows other hother).isName).mp hsame]

end Spells

/-! ### Walks -/

section Walks

variable {disk : Disk} {start : Path} {place : Place} {base : List String}

/-- The listing of a row that is met has the rows in it that are met. -/
theorem mem_directories_iff (layout : Layout) (h : Rooted disk start place) {row : List String}
    (hrow : Meets disk start place row) {name : String} :
    name ∈ (Listing.ofDirectory disk layout (start.descend row) (place ++ row)).directories
      ↔ Meets disk start place (row ++ [name]) := by
  rw [h.meets_concat_iff]
  unfold Listing.ofDirectory
  by_cases hfits : Disk.fits (start.descend row) = true
  · rw [if_pos hfits, List.mem_filter, Disk.mem_directoryNames, Bool.not_eq_true']
    constructor
    · rintro ⟨hdirectory, hvisible⟩
      exact ⟨⟨hrow.1, hfits⟩, .enter hrow.1 hvisible hdirectory⟩
    · rintro ⟨-, hreaches⟩
      have hdirectory := hreaches.isDirectory h.isDirectory
      rw [← List.append_assoc] at hdirectory
      exact ⟨hdirectory, hreaches.visible name (by simp)⟩
  · rw [if_neg hfits]
    exact ⟨fun hnone => absurd hnone List.not_mem_nil, fun hlists => absurd hlists.1.2 hfits⟩

/-- Listings lead from a row that is met to those below it that are met. -/
theorem leads_of_meets (layout : Layout) (h : Rooted disk start place)
    (hbase : Meets disk start place base) :
    Walk.Leads disk layout (start.descend base) (place ++ base)
      (fun below => Meets disk start place (base ++ below)) where
  here := by
    rw [List.append_nil]
    exact hbase
  above := fun hrow => h.meets_above hrow (by
    rw [← List.append_assoc]
    exact List.prefix_append _ _)
  listed := by
    intro below hbelow name
    rw [← Path.descend_append, List.append_assoc, ← List.append_assoc base below]
    exact mem_directories_iff layout h hbelow
  apart := by
    intro row other hrow hother hsame
    rw [← Path.descend_append, ← Path.descend_append, Path.same_descend_iff h.isAbsolute
      (h.isRow hrow.1).isName (h.isRow hother.1).isName] at hsame
    exact List.append_cancel_left hsame

/-- **From a row that is met, a walk visits what is met below it**, and finds the entries there. -/
theorem exists_visited_below (layout : Layout) (root : Path) (h : Rooted disk start place)
    (hbase : Meets disk start place base) :
    ∃ rows : List (List String),
      (∀ row, row ∈ rows ↔ base <+: row ∧ Meets disk start place row)
      ∧ (walkFrom disk layout root (start.descend base) (place ++ base)).visited
        = rows.map start.descend
      ∧ (walkFrom disk layout root (start.descend base) (place ++ base)).entries
        = rows.flatMap fun row => entriesIn disk layout root (start.descend row) (place ++ row) := by
  obtain ⟨below, hbelow, hvisited, hentries⟩ :=
    exists_visited root (leads_of_meets layout h hbase)
  refine ⟨below.map (base ++ ·), fun row => ?_, ?_, ?_⟩
  · rw [List.mem_map]
    constructor
    · rintro ⟨names, hnames, rfl⟩
      exact ⟨List.prefix_append base names, (hbelow.mem_iff names).mp hnames⟩
    · rintro ⟨⟨names, rfl⟩, hrow⟩
      exact ⟨names, (hbelow.mem_iff names).mpr hrow, rfl⟩
  · simp only [hvisited, List.map_map, Function.comp_def, Path.descend_append]
  · simp only [hentries, List.flatMap_map, Path.descend_append, List.append_assoc]

theorem spells_visited (layout : Layout) (root : Path) (h : Rooted disk start place)
    (hbase : Meets disk start place base) :
    Spells start (fun row => base <+: row ∧ Meets disk start place row)
      (walkFrom disk layout root (start.descend base) (place ++ base)).visited := by
  obtain ⟨rows, hrows, hvisited, -⟩ := exists_visited_below layout root h hbase
  intro path
  simp only [hvisited, List.mem_map, hrows, eq_comm]

theorem mem_entries_walkFrom (layout : Layout) (root : Path) (h : Rooted disk start place)
    (hbase : Meets disk start place base) (entry : Entry) :
    entry ∈ (walkFrom disk layout root (start.descend base) (place ++ base)).entries
      ↔ ∃ row, base <+: row ∧ Meets disk start place row
        ∧ entry ∈ entriesIn disk layout root (start.descend row) (place ++ row) := by
  obtain ⟨rows, hrows, -, hentries⟩ := exists_visited_below layout root h hbase
  simp only [hentries, List.mem_flatMap, hrows, and_assoc]

end Walks

/-! ### Entries -/

/-- The entries of the scripts directly in the directory at a row. -/
def entriesAt (disk : Disk) (layout : Layout) (root : Path) (place : Place) (row : List String) :
    List Entry :=
  entriesIn disk layout root (root.descend row) (place ++ row)

section Entries

variable {disk : Disk} {layout : Layout} {root : Path} {place : Place} {row : List String}
  {entry : Entry}

theorem path_of_ofFile? {syn : ModuleSyntax} {path : Path}
    (h : Entry.ofFile? disk syn root path = some entry) : entry.path = path := by
  unfold Entry.ofFile? at h
  cases hname : derivedName? root path (String.ofList syn.separator) with
  | none =>
    rw [hname] at h
    cases h
  | some derived =>
    rw [hname] at h
    rw [← Option.some.inj h]

/-- An entry is read from a file in the directory. -/
theorem exists_of_mem_entriesIn {directory : Path}
    (h : entry ∈ entriesIn disk layout root directory place) :
    ∃ name ∈ disk.fileNames place, entry.path = directory.child name := by
  obtain ⟨name, hname, hfile⟩ := List.mem_filterMap.mp h
  unfold Listing.ofDirectory at hname
  split at hname
  · exact ⟨name, (List.mem_filter.mp hname).1, path_of_ofFile? hfile⟩
  · exact absurd hname List.not_mem_nil

theorem mem_entriesAt_iff :
    entry ∈ entriesAt disk layout root place row
      ↔ Disk.fits (root.descend row) = true ∧ ∃ name ∈ disk.fileNames (place ++ row),
        isScript layout name = true
          ∧ Entry.ofFile? disk layout.syn root (root.descend (row ++ [name])) = some entry := by
  simp only [entriesAt, entriesIn, Listing.entries, Listing.ofDirectory, Path.descend_concat]
  split
  · rename_i hfits
    simp only [hfits, true_and, List.mem_filterMap, List.mem_filter, and_assoc]
  · rename_i hfits
    simp [hfits]

/-- An entry of a directory is the one for a file in it. -/
theorem exists_of_mem_entriesAt (h : Rooted disk root place)
    (hentry : entry ∈ entriesAt disk layout root place row) :
    ∃ name, Disk.ValidName name ∧ disk.isDirectory (place ++ row ++ [name]) = false
      ∧ entry.path = root.descend (row ++ [name])
      ∧ Entry.ofFile? disk layout.syn root entry.path = some entry := by
  obtain ⟨-, name, hname, -, hfile⟩ := mem_entriesAt_iff.mp hentry
  obtain ⟨hvalid, hnot⟩ := h.tree.of_mem_fileNames hname
  have hpath := path_of_ofFile? hfile
  exact ⟨name, hvalid, hnot, hpath, by rw [hpath]; exact hfile⟩

/-- Entries for one path are equal. -/
theorem eq_of_same_path (h : Rooted disk root place) {other : List String} {a b : Entry}
    (hrow : IsRow row) (hother : IsRow other) (ha : a ∈ entriesAt disk layout root place row)
    (hb : b ∈ entriesAt disk layout root place other) (hsame : a.path.same b.path = true) :
    a = b := by
  obtain ⟨name, hname, -, hpath, hfile⟩ := exists_of_mem_entriesAt h ha
  obtain ⟨last, hlast, -, hpath', hfile'⟩ := exists_of_mem_entriesAt h hb
  have heq : a.path = b.path := by
    rw [hpath, hpath'] at hsame ⊢
    obtain ⟨rfl, rfl⟩ := eq_of_same_file h.isAbsolute hrow hother hname hlast hsame
    rfl
  rw [heq] at hfile
  exact Option.some.inj (hfile.symm.trans hfile')

end Entries

/-! ### Whole indexes -/

/-- Of entries that say the same about a path, nothing is lost. -/
theorem mem_firstPerPath {entry : Entry} {entries : List Entry}
    (h : ∀ a ∈ entries, ∀ b ∈ entries, a.path.same b.path = true → a = b) :
    entry ∈ firstPerPath entries ↔ entry ∈ entries := by
  induction entries with
  | nil => rfl
  | cons first rest ih =>
    have hrest := ih fun a ha b hb =>
      h a (List.mem_cons_of_mem _ ha) b (List.mem_cons_of_mem _ hb)
    rw [firstPerPath, List.mem_cons, List.mem_cons, List.mem_filter, hrest]
    constructor
    · rintro (rfl | ⟨hmem, -⟩)
      · exact .inl rfl
      · exact .inr hmem
    · rintro (rfl | hmem)
      · exact .inl rfl
      · by_cases hsame : entry.path.same first.path = true
        · exact .inl (h entry (List.mem_cons_of_mem _ hmem) first List.mem_cons_self hsame)
        · exact .inr ⟨hmem, by rw [Bool.not_eq_true] at hsame; rw [hsame]; rfl⟩

end ScriptServer.Library

namespace ScriptServer.Library.Index

variable {disk : Disk} {layout : Layout} {root : Path} {place : Place}

theorem scan_of_find (previous : Index) (h : disk.find root = .directory place) :
    previous.scan disk layout root
      = .ok ⟨ofDisk disk layout root place,
        (ofDisk disk layout root place).changesFrom previous none,
        (ofDisk disk layout root place).directories⟩ := by
  unfold scan
  rw [h]

theorem exists_of_scan {previous : Index} {scanned : Scanned}
    (h : previous.scan disk layout root = .ok scanned) :
    ∃ place, disk.find root = .directory place
      ∧ scanned.index = ofDisk disk layout root place := by
  unfold scan at h
  split at h
  · rename_i place hplace
    exact ⟨place, hplace, by rw [← Except.ok.inj h]⟩
  · cases h

/-- A scan finds the directories that are met. -/
theorem spells_ofDisk (h : Rooted disk root place) :
    Spells root (Meets disk root place) (ofDisk disk layout root place).directories := by
  have hvisited := spells_visited layout root h (h.meets_of_lists h.lists_nil)
  simp only [List.nil_prefix, true_and, List.append_nil] at hvisited
  exact hvisited.sorted h.isAbsolute fun row hrow => h.isRow hrow.1

/-- A scan finds the entries of the directories that are met. -/
theorem mem_entries_ofDisk (h : Rooted disk root place) {entry : Entry} :
    entry ∈ (ofDisk disk layout root place).entries
      ↔ ∃ row, Meets disk root place row ∧ entry ∈ entriesAt disk layout root place row := by
  have hmem : ∀ entry, entry ∈ (walkFrom disk layout root root place).entries
      ↔ ∃ row, Meets disk root place row ∧ entry ∈ entriesAt disk layout root place row := by
    intro entry
    have hfound := mem_entries_walkFrom layout root h (h.meets_of_lists h.lists_nil) entry
    simp only [List.nil_prefix, true_and, List.append_nil] at hfound
    exact hfound
  rw [ofDisk, entries_build, mem_firstPerPath, hmem]
  intro a ha b hb hsame
  obtain ⟨row, hrow, ha⟩ := (hmem a).mp ha
  obtain ⟨other, hother, hb⟩ := (hmem b).mp hb
  exact eq_of_same_path h (h.isRow hrow.1) (h.isRow hother.1) ha hb hsame

end ScriptServer.Library.Index

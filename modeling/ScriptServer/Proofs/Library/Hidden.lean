import ScriptServer.Proofs.Library.Changes
import ScriptServer.Proofs.Library.Rescan

namespace ScriptServer

/-!
# Hidden directories

A walk does not enter a directory whose name starts with a dot.  A directory that is named for a
rescan is listed whatever it is called.

* `Path.shows`, `Path.showsFile` — no directory on the way from one path to another is hidden.
* `Library.Look`, `Library.Index.looks` — scans and rescans, one after the other.
* `Library.Index.ShownFrom` — everything in an index is shown from one of certain directories.
  `Library.Index.shownFrom_look` says what one look does to them.
* `Library.Index.hidden_only_when_named` — so an index has something hidden only where a rescan was
  asked for a hidden directory.
-/

/-- Whether a part of a path starts with a dot.  The two dots that lead upwards do so too. -/
def Part.isHidden : Part → Bool
  | .root => false
  | .here => true
  | .up => true
  | .name text => Disk.isHidden text

namespace Path

/-- Whether a directory lies at or below another one, and no directory from there on is hidden. -/
def shows (start path : Path) : Bool :=
  (path.relativeTo? start).any fun row => row.all (!·.isHidden)

/-- Whether a file lies below a directory, and no directory on the way to it is hidden.  The name of
    the file itself may start with a dot. -/
def showsFile (start path : Path) : Bool :=
  (path.relativeTo? start).any fun row => !row.isEmpty && row.dropLast.all (!·.isHidden)

section Shows

variable {start middle path : Path}

theorem shows_iff :
    start.shows path = true
      ↔ ∃ row, path.parts = start.parts ++ row ∧ ∀ part ∈ row, part.isHidden = false := by
  unfold shows relativeTo?
  rw [Option.any_eq_true]
  simp only [rowAfter?_eq_some, List.all_eq_true, Bool.not_eq_true']

theorem showsFile_iff :
    start.showsFile path = true
      ↔ ∃ row last, path.parts = start.parts ++ (row ++ [last])
        ∧ ∀ part ∈ row, part.isHidden = false := by
  unfold showsFile relativeTo?
  rw [Option.any_eq_true]
  simp only [rowAfter?_eq_some, Bool.and_eq_true, Bool.not_eq_true', List.isEmpty_eq_false_iff,
    List.all_eq_true]
  constructor
  · rintro ⟨row, hparts, hrow, hvisible⟩
    refine ⟨row.dropLast, row.getLast hrow, ?_, hvisible⟩
    rw [List.dropLast_append_getLast]
    exact hparts
  · rintro ⟨row, last, hparts, hvisible⟩
    refine ⟨row ++ [last], hparts, by simp, ?_⟩
    rw [List.dropLast_concat]
    exact hvisible

theorem shows_refl (path : Path) : path.shows path = true :=
  shows_iff.mpr ⟨[], (List.append_nil _).symm, by simp⟩

theorem shows_trans (h : start.shows middle = true) (h' : middle.shows path = true) :
    start.shows path = true := by
  obtain ⟨row, hparts, hvisible⟩ := shows_iff.mp h
  obtain ⟨below, hparts', hvisible'⟩ := shows_iff.mp h'
  refine shows_iff.mpr ⟨row ++ below, ?_, List.forall_mem_append.mpr ⟨hvisible, hvisible'⟩⟩
  rw [hparts', hparts, List.append_assoc]

theorem showsFile_trans (h : start.shows middle = true) (h' : middle.showsFile path = true) :
    start.showsFile path = true := by
  obtain ⟨row, hparts, hvisible⟩ := shows_iff.mp h
  obtain ⟨below, last, hparts', hvisible'⟩ := showsFile_iff.mp h'
  refine showsFile_iff.mpr
    ⟨row ++ below, last, ?_, List.forall_mem_append.mpr ⟨hvisible, hvisible'⟩⟩
  rw [hparts', hparts, List.append_assoc, List.append_assoc]

end Shows

end Path

namespace Library

open ScriptServer.Path

/-! ### What a walk comes to -/

section Walk

variable {start : Path} {row : List String}

theorem isHidden_of_isRow (h : IsRow row) : ∀ part ∈ row.map Part.name, part.isHidden = false := by
  intro part hpart
  obtain ⟨name, hname, rfl⟩ := List.mem_map.mp hpart
  exact (h name hname).2

theorem shows_descend (hstart : start.isAbsolute = true) (hrow : IsRow row) :
    start.shows (start.descend row) = true :=
  shows_iff.mpr ⟨row.map .name, parts_descend hstart hrow.isName, isHidden_of_isRow hrow⟩

theorem showsFile_descend (hstart : start.isAbsolute = true) (hrow : IsRow row) {name : String}
    (hname : Disk.ValidName name) : start.showsFile (start.descend (row ++ [name])) = true := by
  refine showsFile_iff.mpr ⟨row.map .name, .name name, ?_, isHidden_of_isRow hrow⟩
  rw [parts_descend hstart (isName_concat hrow hname), List.map_append]
  rfl

variable {disk : Disk} {layout : Layout} {root : Path} {place : Place} {base : List String}

theorem shows_of_mem_visited (h : Rooted disk start place) (hbase : Meets disk start place base)
    {found : Path}
    (hfound : found ∈ (walkFrom disk layout root (start.descend base) (place ++ base)).visited) :
    start.shows found = true := by
  obtain ⟨row, ⟨-, hrow⟩, rfl⟩ := (spells_visited layout root h hbase found).mp hfound
  exact shows_descend h.isAbsolute (h.isRow hrow.1)

/-- A file in the directory at a row is shown. -/
theorem showsFile_of_mem_entriesIn (h : Rooted disk start place) (hrow : disk.Reaches place row)
    {entry : Entry}
    (hentry : entry ∈ entriesIn disk layout root (start.descend row) (place ++ row)) :
    start.showsFile entry.path = true := by
  obtain ⟨name, hname, hpath⟩ := exists_of_mem_entriesIn hentry
  rw [hpath, ← descend_concat]
  exact showsFile_descend h.isAbsolute (h.isRow hrow) (h.tree.of_mem_fileNames hname).1

theorem showsFile_of_mem_walkFrom (h : Rooted disk start place)
    (hbase : Meets disk start place base) {entry : Entry}
    (hentry : entry ∈ (walkFrom disk layout root (start.descend base) (place ++ base)).entries) :
    start.showsFile entry.path = true := by
  obtain ⟨row, -, hrow, hentry⟩ := (mem_entries_walkFrom layout root h hbase entry).mp hentry
  exact showsFile_of_mem_entriesIn h hrow.1 hentry

/-- A directory that is listed is met from the one that it lies in. -/
theorem meets_of_mem_directories (h : Rooted disk start place) {name : String}
    (hname : name ∈ (Listing.ofDirectory disk layout start place).directories) :
    Meets disk start place [name] := by
  rw [← List.append_nil place] at hname
  exact (mem_directories_iff layout h (h.meets_of_lists h.lists_nil)).mp hname

end Walk

/-! ### Looks at the disk -/

/-- What is looked at: everything below a root, or one directory. -/
inductive Aim where
  | below (root : Path)
  | directory (path : Path)

/-- A look at a tree of files, with what is taken for a script then. -/
structure Look where
  disk : Disk
  tree : disk.IsTree
  layout : Layout
  aim : Aim

/-- The directory that a look is asked for, if it is not a root. -/
def Look.named? (look : Look) : Option Path :=
  match look.aim with
  | .below _ => none
  | .directory path => some path

namespace Index

/-- The index after a look.  When there is no such root, it stays as it is. -/
def look (index : Index) (look : Look) : Index :=
  match look.aim with
  | .below root =>
    match index.scan look.disk look.layout root with
    | .ok scanned => scanned.index
    | .error _ => index
  | .directory path => (index.rescan look.disk look.layout path).index

/-- The index after several looks. -/
def looks (index : Index) (looks : List Look) : Index := looks.foldl look index

/-- Whether all that is in an index is shown from one of certain directories under a root. -/
structure ShownFrom (index : Index) (root : Path) (starts : List Path) : Prop where
  directories : ∀ directory ∈ index.directories,
    ∃ start ∈ starts, start.isUnder root = true ∧ start.shows directory = true
  entries : ∀ entry ∈ index.entries,
    ∃ start ∈ starts, start.isUnder root = true ∧ start.showsFile entry.path = true

section Look

variable {index : Index} {disk : Disk} {layout : Layout} {root directory : Path}
  {starts more : List Path}

theorem ShownFrom.mono (h : index.ShownFrom root starts) (hsubset : starts ⊆ more) :
    index.ShownFrom root more where
  directories := by
    intro directory hdirectory
    obtain ⟨start, hstart, hshown⟩ := h.directories directory hdirectory
    exact ⟨start, hsubset hstart, hshown⟩
  entries := by
    intro entry hentry
    obtain ⟨start, hstart, hshown⟩ := h.entries entry hentry
    exact ⟨start, hsubset hstart, hshown⟩

theorem isUnder_refl (root : Path) : root.isUnder root = true :=
  isUnder_iff.mpr (List.prefix_refl _)

/-- After a scan all is shown from the root. -/
theorem shownFrom_scan (htree : disk.IsTree) {scanned : Scanned}
    (h : index.scan disk layout root = .ok scanned) :
    scanned.index.root = some root ∧ scanned.index.ShownFrom root [root] := by
  obtain ⟨place, hplace, hindex⟩ := exists_of_scan h
  have hrooted : Rooted disk root place := ⟨htree, hplace⟩
  rw [hindex]
  refine ⟨rfl, fun directory hdirectory => ?_, fun entry hentry => ?_⟩
  · obtain ⟨row, hrow, rfl⟩ := (spells_ofDisk hrooted directory).mp hdirectory
    exact ⟨root, List.mem_singleton_self root, isUnder_refl root,
      shows_descend hrooted.isAbsolute (hrooted.isRow hrow.1)⟩
  · obtain ⟨row, hrow, hentry⟩ := (mem_entries_ofDisk hrooted).mp hentry
    exact ⟨root, List.mem_singleton_self root, isUnder_refl root,
      showsFile_of_mem_entriesIn hrooted hrow.1 hentry⟩

/-- What a rescan finds is shown from the directory it is asked for. -/
theorem shows_of_mem_discover (htree : disk.IsTree) {known : List Path} :
    (∀ found ∈ (discover disk layout root known directory).2, directory.shows found = true)
      ∧ ∀ entry ∈ (discover disk layout root known directory).1,
        directory.showsFile entry.path = true := by
  unfold discover
  split
  next place hplace =>
    have hrooted : Rooted disk directory place := ⟨htree, hplace⟩
    refine ⟨fun found hfound => ?_, fun entry hentry => ?_⟩
    · rcases List.mem_append.mp hfound with hitself | hbelow
      · split at hitself
        · exact absurd hitself List.not_mem_nil
        · rw [List.mem_singleton.mp hitself]
          exact shows_refl directory
      · obtain ⟨walk, hwalk, hfound⟩ := List.mem_flatMap.mp hbelow
        obtain ⟨name, hname, rfl⟩ := List.mem_map.mp hwalk
        exact shows_of_mem_visited hrooted
          (meets_of_mem_directories hrooted (List.mem_filter.mp hname).1) (mem_of_mem_sorted hfound)
    · rcases List.mem_append.mp hentry with hentry | hbelow
      · have hhere : entry ∈ entriesIn disk layout root (directory.descend []) (place ++ []) := by
          rw [List.append_nil]
          exact hentry
        exact showsFile_of_mem_entriesIn hrooted .here hhere
      · obtain ⟨walk, hwalk, hentry⟩ := List.mem_flatMap.mp hbelow
        obtain ⟨name, hname, rfl⟩ := List.mem_map.mp hwalk
        exact showsFile_of_mem_walkFrom hrooted
          (meets_of_mem_directories hrooted (List.mem_filter.mp hname).1) hentry
  next => exact ⟨fun _ h => absurd h List.not_mem_nil, fun _ h => absurd h List.not_mem_nil⟩

/-- A rescan adds the directory it is asked for. -/
theorem shownFrom_relist (htree : disk.IsTree) (h : index.ShownFrom root starts)
    (hunder : directory.isUnder root = true) :
    (index.relist disk layout root directory).index.ShownFrom root (starts ++ [directory]) := by
  have hkept := h.mono (List.subset_append_left starts [directory])
  have hmem : directory ∈ starts ++ [directory] := by simp
  rw [index_relist]
  refine ⟨fun found hfound => ?_, fun entry hentry => ?_⟩
  · rcases List.mem_append.mp (mem_of_mem_sorted hfound) with hold | hnew
    · exact hkept.directories found (List.mem_filter.mp hold).1
    · exact ⟨directory, hmem, hunder, (shows_of_mem_discover htree).1 found hnew⟩
  · rcases List.mem_append.mp (mem_of_mem_build hentry) with hold | hnew
    · exact hkept.entries entry (List.mem_filter.mp hold).1
    · exact ⟨directory, hmem, hunder, (shows_of_mem_discover htree).2 entry hnew⟩

/-- One look: whatever the root is afterwards, all is shown from it and from directories that were
    named. -/
theorem shownFrom_look (look : Look)
    (h : ∀ root, index.root = some root → index.ShownFrom root (root :: starts)) :
    ∀ root, (index.look look).root = some root →
      (index.look look).ShownFrom root (root :: (starts ++ look.named?.toList)) := by
  intro root hroot
  have hsubset : root :: starts ⊆ root :: (starts ++ look.named?.toList) :=
    List.cons_subset_cons root (List.subset_append_left starts _)
  unfold Index.look at hroot ⊢
  cases haim : look.aim with
  | below path =>
    simp only [haim] at hroot ⊢
    cases hscan : index.scan look.disk look.layout path with
    | error reason =>
      rw [hscan] at hroot
      exact (h root hroot).mono hsubset
    | ok scanned =>
      -- nothing of the old index stays, so what was named before does not matter
      obtain ⟨hroot', hshown⟩ := shownFrom_scan look.tree hscan
      rw [hscan] at hroot
      obtain rfl : path = root := Option.some.inj (hroot'.symm.trans hroot)
      exact hshown.mono (by simp)
  | directory path =>
    have hnamed : look.named? = some path := by rw [Look.named?, haim]
    simp only [haim] at hroot ⊢
    unfold rescan at hroot ⊢
    split at hroot
    next hnone => rw [hnone] at hroot; cases hroot
    next old hold =>
      by_cases hunder : path.isUnder old = true
      · rw [if_pos hunder] at hroot ⊢
        obtain rfl : old = root := Option.some.inj hroot
        rw [hnamed]
        exact shownFrom_relist look.tree (h old hold) hunder
      · rw [if_neg hunder] at hroot ⊢
        exact (h root hroot).mono hsubset

/-- Several looks. -/
theorem shownFrom_looks (looks : List Look)
    (h : ∀ root, index.root = some root → index.ShownFrom root (root :: starts)) :
    ∀ root, (index.looks looks).root = some root →
      (index.looks looks).ShownFrom root (root :: (starts ++ looks.filterMap Look.named?)) := by
  induction looks generalizing index starts with
  | nil =>
    rw [List.filterMap_nil, List.append_nil]
    exact h
  | cons look rest ih =>
    have hrest := ih (shownFrom_look look h)
    rw [List.append_assoc] at hrest
    have hnamed : look.named?.toList ++ rest.filterMap Look.named?
        = (look :: rest).filterMap Look.named? := by
      cases hnamed : look.named? with
      | none => rw [List.filterMap_cons_none hnamed]; rfl
      | some path => rw [List.filterMap_cons_some hnamed]; rfl
    rw [← hnamed]
    exact hrest

end Look

/-- What is seen from the root or from a directory under it is seen from the root, or from a hidden
    directory. -/
theorem seen_or_named {root : Path} {named : List Path} {seen : Path → Bool}
    (htrans : ∀ start, root.shows start = true → seen start = true → seen root = true)
    (h : ∃ start ∈ root :: named, start.isUnder root = true ∧ seen start = true) :
    seen root = true ∨ ∃ start ∈ named, start.isUnder root = true
      ∧ root.shows start = false ∧ seen start = true := by
  obtain ⟨start, hstart, hunder, hseen⟩ := h
  rcases List.mem_cons.mp hstart with rfl | hnamed
  · exact .inl hseen
  · by_cases hvisible : root.shows start = true
    · exact .inl (htrans start hvisible hseen)
    · exact .inr ⟨start, hnamed, hunder, Bool.eq_false_iff.mpr hvisible, hseen⟩

/-- **Hidden directories have to be named.**  After any looks at any trees of files, what an index
    has lies below its root.  A directory or a file in it with a hidden directory on the way from
    the root is shown from a directory that a rescan was asked for, and on whose own way there is a
    hidden one. -/
theorem hidden_only_when_named (looks : List Look) {root : Path}
    (hroot : (empty.looks looks).root = some root) :
    (∀ directory ∈ (empty.looks looks).directories, root.shows directory = true
        ∨ ∃ named ∈ looks.filterMap Look.named?, named.isUnder root = true
          ∧ root.shows named = false ∧ named.shows directory = true)
      ∧ ∀ entry ∈ (empty.looks looks).entries, root.showsFile entry.path = true
        ∨ ∃ named ∈ looks.filterMap Look.named?, named.isUnder root = true
          ∧ root.shows named = false ∧ named.showsFile entry.path = true := by
  have hempty : ∀ root, empty.root = some root → empty.ShownFrom root (root :: []) :=
    fun root hnone => nomatch hnone
  have hshown := shownFrom_looks looks hempty root hroot
  rw [List.nil_append] at hshown
  constructor
  · intro directory hdirectory
    exact seen_or_named (fun start => shows_trans) (hshown.directories directory hdirectory)
  · intro entry hentry
    exact seen_or_named (fun start => showsFile_trans) (hshown.entries entry hentry)

/-- A root with a hidden directory in it. -/
def hiddenHooks : Disk := ⟨[["ws"], ["ws", ".git"]], [(["ws", ".git", "hooks.dos"], .text "")]⟩

/-- The root is scanned, then the hidden directory in it is rescanned. -/
def looksAtHidden : List Look :=
  [⟨hiddenHooks, by decide +kernel, ⟨"dos", "::"⟩, .below ⟨"/ws"⟩⟩,
    ⟨hiddenHooks, by decide +kernel, ⟨"dos", "::"⟩, .directory ⟨"/ws/.git"⟩⟩]

/-- The module in the hidden directory is in the index, and the directory was named. -/
theorem hidden_module_was_named :
    (empty.looks looksAtHidden).root = some ⟨"/ws"⟩
      ∧ ∃ named ∈ [Path.mk "/ws/.git"], named.isUnder ⟨"/ws"⟩ = true
        ∧ Path.shows ⟨"/ws"⟩ named = false ∧ named.showsFile ⟨"/ws/.git/hooks.dos"⟩ = true := by
  have hroot : (empty.looks looksAtHidden).root = some ⟨"/ws"⟩ := by decide +kernel
  have hentry : ⟨".git::hooks", none, ⟨"/ws/.git/hooks.dos"⟩⟩
      ∈ (empty.looks looksAtHidden).entries := by decide +kernel
  have hhidden : Path.showsFile ⟨"/ws"⟩ ⟨"/ws/.git/hooks.dos"⟩ = false := by decide +kernel
  refine ⟨hroot, ?_⟩
  rcases (hidden_only_when_named looksAtHidden hroot).2 _ hentry with hshown | hnamed
  · rw [hhidden] at hshown
    cases hshown
  · exact hnamed

/-- **A module in a hidden directory can be registered.**  It is enough that the directory is
    rescanned. -/
theorem rescan_registers_hidden_module :
    ¬ ∀ looks root, (empty.looks looks).root = some root →
      (∀ named ∈ looks.filterMap Look.named?, named.isAbsolute = true ∧ .up ∉ named.parts) →
      (∀ directory ∈ (empty.looks looks).directories, root.shows directory = true)
        ∧ ∀ entry ∈ (empty.looks looks).entries, root.showsFile entry.path = true := by
  intro hclaim
  have hshown := hclaim looksAtHidden ⟨"/ws"⟩ (by decide +kernel) (by decide +kernel)
  have hhidden : ¬ ∀ entry ∈ (empty.looks looksAtHidden).entries,
      Path.showsFile ⟨"/ws"⟩ entry.path = true := by decide +kernel
  exact hhidden hshown.2

end Index

end Library

end ScriptServer

import Mathlib.Data.List.Dedup
import ScriptServer.Proofs.Library.Changes
import ScriptServer.Proofs.Library.Scan

namespace ScriptServer

/-!
# A scan goes breadth first

A walk visits directories in order, and so a scan finds what is in them.  Keeping one entry for a
path leaves them in place.

* `Disk.visibleBelow` — the directories below one, taken from the whole disk and sorted.
* `Disk.inOrder_visibleBelow` — this is the order of a walk.
* `Library.firstPerPath_flatMap` — keeping one entry for a path, one key after another.
* `Library.entries_ofDisk_eq` — the entries of a scan, one directory after another.
* `Library.Index.scan_breadth_first` — what a scan finds, in which order, and what it reports.
-/

/-- Where equals are neighbours, only repetition stands against a strict order. -/
theorem inOrder_dedup {α : Type} [DecidableEq α] {le : α → α → Bool} {lt : α → α → Prop}
    {p : α → Prop} {list : List α} (hsorted : list.Pairwise fun a b => le a b = true)
    (hstrict : ∀ a b, le a b = true → a ≠ b → lt a b) (hmem : ∀ a, a ∈ list ↔ p a) :
    InOrder lt p list.dedup where
  pairwise :=
    ((hsorted.sublist (List.dedup_sublist list)).and (List.nodup_dedup list)).imp
      fun h => hstrict _ _ h.1 h.2
  mem_iff a := List.mem_dedup.trans (hmem a)

/-- A strict order leaves one list for a property. -/
theorem InOrder.unique {α : Type} {lt : α → α → Prop} {p : α → Prop} {list other : List α}
    (hasymm : ∀ a b, lt a b → ¬ lt b a) (h : InOrder lt p list) (hother : InOrder lt p other) :
    list = other := by
  have hne : ∀ {a b}, lt a b → a ≠ b := by
    rintro a _ hlt rfl
    exact hasymm a a hlt hlt
  have hperm : list.Perm other :=
    (List.perm_ext_iff_of_nodup (h.pairwise.imp hne) (hother.pairwise.imp hne)).mpr fun a =>
      (h.mem_iff a).trans (hother.mem_iff a).symm
  exact hperm.eq_of_pairwise (fun a b _ _ hab hba => absurd hba (hasymm a b hab)) h.pairwise
    hother.pairwise

namespace Disk

/-! ### The order of rows -/

/-- The order of rows of names of one length. -/
def rowLe : List String → List String → Bool
  | [], _ => true
  | _ :: _, [] => false
  | a :: as, b :: bs => if a = b then rowLe as bs else nameLe a b

/-- Breadth first: shorter rows come first, rows of one length by their names. -/
def breadthLe (a b : List String) : Bool :=
  decide (a.length < b.length) || (a.length == b.length && rowLe a b)

theorem rowLe_trans (a b c : List String) (hab : rowLe a b = true) (hbc : rowLe b c = true) :
    rowLe a c = true := by
  induction a generalizing b c with
  | nil => rfl
  | cons x a ih =>
    cases b with
    | nil => cases hab
    | cons y b =>
      cases c with
      | nil => cases hbc
      | cons z c =>
        rw [rowLe] at hab hbc ⊢
        by_cases hxy : x = y
        · subst hxy
          rw [if_pos rfl] at hab
          by_cases hxz : x = z
          · rw [if_pos hxz] at hbc ⊢
            exact ih b c hab hbc
          · rwa [if_neg hxz] at hbc ⊢
        · rw [if_neg hxy] at hab
          by_cases hyz : y = z
          · subst hyz
            rwa [if_neg hxy]
          · rw [if_neg hyz] at hbc
            -- between two different names there is no way back to the first
            have hxz : x ≠ z := by
              rintro rfl
              exact hxy (nameLe_antisymm hab hbc)
            rw [if_neg hxz]
            exact nameLe_trans x y z hab hbc

theorem rowLe_total (a b : List String) : rowLe a b = true ∨ rowLe b a = true := by
  induction a generalizing b with
  | nil => exact .inl rfl
  | cons x a ih =>
    cases b with
    | nil => exact .inr rfl
    | cons y b =>
      rw [rowLe, rowLe]
      by_cases hxy : x = y
      · rw [if_pos hxy, if_pos hxy.symm]
        exact ih b
      · rw [if_neg hxy, if_neg (Ne.symm hxy), ← Bool.or_eq_true]
        exact nameLe_total x y

theorem rowLe_antisymm {a b : List String} (hab : rowLe a b = true) (hba : rowLe b a = true) :
    a = b := by
  induction a generalizing b with
  | nil =>
    cases b with
    | nil => rfl
    | cons y b => cases hba
  | cons x a ih =>
    cases b with
    | nil => cases hab
    | cons y b =>
      rw [rowLe] at hab hba
      by_cases hxy : x = y
      · rw [if_pos hxy] at hab
        rw [if_pos hxy.symm] at hba
        rw [hxy, ih hab hba]
      · rw [if_neg hxy] at hab
        rw [if_neg (Ne.symm hxy)] at hba
        exact absurd (nameLe_antisymm hab hba) hxy

/-- Rows of one length are compared at their last names only when the rest is equal. -/
theorem rowLe_concat {a b : List String} (hlength : a.length = b.length) (x y : String) :
    rowLe (a ++ [x]) (b ++ [y]) = if a = b then nameLe x y else rowLe a b := by
  induction a generalizing b with
  | nil =>
    obtain rfl := List.length_eq_zero_iff.mp hlength.symm
    by_cases hxy : x = y
    · simp [rowLe, hxy, nameLe]
    · simp [rowLe, hxy]
  | cons c a ih =>
    cases b with
    | nil => cases hlength
    | cons d b =>
      rw [List.cons_append, List.cons_append, rowLe, rowLe, ih (Nat.succ.inj hlength)]
      by_cases hcd : c = d
      · simp [hcd]
      · simp [hcd]

theorem breadthLe_iff {a b : List String} : breadthLe a b = true
    ↔ a.length < b.length ∨ a.length = b.length ∧ rowLe a b = true := by
  simp [breadthLe]

theorem breadthLe_trans (a b c : List String) (hab : breadthLe a b = true)
    (hbc : breadthLe b c = true) : breadthLe a c = true := by
  rw [breadthLe_iff] at hab hbc ⊢
  rcases hab with hab | ⟨hab, hrow⟩
  · exact .inl (by omega)
  · rcases hbc with hbc | ⟨hbc, hrow'⟩
    · exact .inl (by omega)
    · exact .inr ⟨hab.trans hbc, rowLe_trans a b c hrow hrow'⟩

theorem breadthLe_total (a b : List String) : (breadthLe a b || breadthLe b a) = true := by
  rw [Bool.or_eq_true, breadthLe_iff, breadthLe_iff]
  rcases Nat.lt_trichotomy a.length b.length with hlt | heq | hgt
  · exact .inl (.inl hlt)
  · exact (rowLe_total a b).imp (fun h => .inr ⟨heq, h⟩) fun h => .inr ⟨heq.symm, h⟩
  · exact .inr (.inl hgt)

theorem breadthLe_antisymm {a b : List String} (hab : breadthLe a b = true)
    (hba : breadthLe b a = true) : a = b := by
  rw [breadthLe_iff] at hab hba
  rcases hab with hab | ⟨hab, hrow⟩
  · omega
  · rcases hba with hba | ⟨-, hrow'⟩
    · omega
    · exact rowLe_antisymm hrow hrow'

theorem breadthLe_of_precedes {a b : List String} (h : Precedes a b) :
    breadthLe a b = true ∧ a ≠ b := by
  induction h with
  | depth h => exact ⟨breadthLe_iff.mpr (.inl h), fun heq => Nat.ne_of_lt h (congrArg _ heq)⟩
  | @parents a b h hlength x y ih =>
    obtain ⟨hle, hne⟩ := ih
    have hrow : rowLe a b = true := by
      rcases breadthLe_iff.mp hle with hlt | hrow
      · omega
      · exact hrow.2
    refine ⟨breadthLe_iff.mpr (.inr ⟨by simpa using hlength, ?_⟩), fun heq => ?_⟩
    · rwa [rowLe_concat hlength, if_neg hne]
    · exact hne (List.append_inj' heq rfl).1
  | @names a x y h =>
    refine ⟨breadthLe_iff.mpr (.inr ⟨by simp, ?_⟩), fun heq => ?_⟩
    · rw [rowLe_concat rfl, if_pos rfl]
      exact decide_eq_true ((String.le_total x y).resolve_right (String.not_le.mpr h))
    · have hxy := List.head_eq_of_cons_eq (List.append_inj' heq rfl).2
      exact absurd h (hxy ▸ String.lt_irrefl x)

theorem precedes_of_rowLe {a b : List String} (hlength : a.length = b.length)
    (hrow : rowLe a b = true) (hne : a ≠ b) : Precedes a b := by
  induction a using List.reverseRecOn generalizing b with
  | nil => exact absurd (List.length_eq_zero_iff.mp hlength.symm).symm hne
  | append_singleton a x ih =>
    obtain ⟨b, y, rfl⟩ := (List.eq_nil_or_concat b).resolve_left (by rintro rfl; simp at hlength)
    rw [List.concat_eq_append] at hlength hrow hne ⊢
    have hrest : a.length = b.length := by simpa using hlength
    rw [rowLe_concat hrest] at hrow
    by_cases hab : a = b
    · subst hab
      rw [if_pos rfl] at hrow
      exact .names a (lt_of_nameLe hrow fun hxy => hne (by rw [hxy]))
    · rw [if_neg hab] at hrow
      exact .parents (ih hrest hrow hab) hrest x y

/-- The order of a walk is that of depth, parents and names. -/
theorem precedes_iff {a b : List String} : Precedes a b ↔ breadthLe a b = true ∧ a ≠ b := by
  refine ⟨breadthLe_of_precedes, fun ⟨hle, hne⟩ => ?_⟩
  rcases breadthLe_iff.mp hle with hlt | ⟨hlength, hrow⟩
  · exact .depth hlt
  · exact precedes_of_rowLe hlength hrow hne

theorem not_precedes_of_precedes (a b : List String) (hab : Precedes a b) : ¬ Precedes b a := by
  intro hba
  exact (precedes_iff.mp hab).2
    (breadthLe_antisymm (precedes_iff.mp hab).1 (precedes_iff.mp hba).1)

/-! ### The visible directories, sorted -/

/-- The directory itself and the directories below it that are reached without entering a
    hidden one, each as the names that lead to it, breadth first. -/
def visibleBelow (disk : Disk) (directory : Place) : List (List String) :=
  let rows := disk.directories.filterMap fun place =>
    match namesBelow? directory place with
    | some [] => none
    | some names => if names.any isHidden then none else some names
    | none => none
  [] :: rows.mergeSort breadthLe

/-- They are those that are reached. -/
theorem IsTree.mem_visibleBelow {disk : Disk} {start : Place} {row : List String}
    (h : disk.IsTree) (hstart : disk.isDirectory start = true) :
    row ∈ disk.visibleBelow start ↔ disk.Reaches start row := by
  unfold visibleBelow
  rw [List.mem_cons, List.mem_mergeSort, List.mem_filterMap, h.reaches_iff hstart]
  constructor
  · rintro (rfl | ⟨place, hplace, hrow⟩)
    · rw [List.append_nil]
      exact ⟨by simp, hstart⟩
    · split at hrow
      · cases hrow
      · rename_i names hnames
        split at hrow
        · cases hrow
        · rename_i hhidden
          obtain rfl := Option.some.inj hrow
          obtain rfl := namesBelow?_eq_some.mp hnames
          rw [List.any_eq_true] at hhidden
          refine ⟨fun name hname => ?_, isDirectory_iff.mpr (.inr hplace)⟩
          rw [Bool.eq_false_iff]
          exact fun hname' => hhidden ⟨name, hname, hname'⟩
      · cases hrow
  · rintro ⟨hvisible, hdirectory⟩
    cases row with
    | nil => exact .inl rfl
    | cons name row =>
      refine .inr ⟨start ++ name :: row, ?_, ?_⟩
      · rcases isDirectory_iff.mp hdirectory with hnil | hmem
        · exact absurd hnil (by simp)
        · exact hmem
      · have hhidden : (name :: row).any isHidden = false := by
          rw [List.any_eq_false]
          intro other hother
          rw [hvisible other hother]
          exact Bool.false_ne_true
        rw [namesBelow?_eq_some.mpr rfl]
        simp [hhidden]

theorem pairwise_visibleBelow (disk : Disk) (place : Place) :
    (disk.visibleBelow place).Pairwise fun a b => breadthLe a b = true := by
  unfold visibleBelow
  refine List.pairwise_cons.mpr ⟨fun row _ => ?_,
    List.pairwise_mergeSort breadthLe_trans breadthLe_total _⟩
  rw [breadthLe_iff]
  cases row with
  | nil => exact .inr ⟨rfl, rfl⟩
  | cons name row => exact .inl (Nat.zero_lt_succ _)

/-- **Sorted, they are in the order of a walk.** -/
theorem inOrder_visibleBelow {disk : Disk} {start : Place} (h : disk.IsTree)
    (hstart : disk.isDirectory start = true) :
    InOrder Precedes (disk.Reaches start) (disk.visibleBelow start).dedup :=
  inOrder_dedup (disk.pairwise_visibleBelow start)
    (fun _ _ hle hne => precedes_iff.mpr ⟨hle, hne⟩) fun _ => h.mem_visibleBelow hstart

theorem pairwise_fileNames (disk : Disk) (place : Place) :
    (disk.fileNames place).Pairwise fun a b => nameLe a b = true :=
  List.pairwise_mergeSort nameLe_trans nameLe_total _

end Disk

namespace Library

/-! ### One entry for a path -/

theorem firstPerPath_append_self (a b : List Entry) :
    firstPerPath (a ++ (a ++ b)) = firstPerPath (a ++ b) := by
  have hnone : ((firstPerPath a).filter fun later => !a.any fun entry =>
      later.path.same entry.path) = [] := by
    refine List.filter_eq_nil_iff.mpr fun later hlater hnot => ?_
    have hany : (a.any fun entry => later.path.same entry.path) = true :=
      List.any_eq_true.mpr ⟨later, mem_of_mem_firstPerPath hlater, Path.same_iff.mpr rfl⟩
    rw [hany] at hnot
    cases hnot
  rw [firstPerPath_append a (a ++ b), firstPerPath_append a b, List.filter_append, hnone,
    List.filter_filter]
  simp

/-- **One key after another:** where the entries of different keys have different paths, one entry
    is kept for each path among those of each key, and of equal keys, which are neighbours, one. -/
theorem firstPerPath_flatMap {κ : Type} [DecidableEq κ] {le : κ → κ → Bool}
    (hantisymm : ∀ {a b}, le a b = true → le b a = true → a = b) {keys : List κ}
    (hsorted : keys.Pairwise fun a b => le a b = true) {f : κ → List Entry}
    (hapart : ∀ a ∈ keys, ∀ b ∈ keys, ∀ x ∈ f a, ∀ y ∈ f b, x.path.same y.path = true → a = b) :
    firstPerPath (keys.flatMap f) = keys.dedup.flatMap fun key => firstPerPath (f key) := by
  induction keys with
  | nil => rfl
  | cons key keys ih =>
    obtain ⟨hle, hrest⟩ := List.pairwise_cons.mp hsorted
    have hkeys := ih hrest fun a ha b hb =>
      hapart a (List.mem_cons_of_mem key ha) b (List.mem_cons_of_mem key hb)
    by_cases hmem : key ∈ keys
    · -- the same key again, so the next one is
      obtain ⟨next, keys, rfl⟩ := List.exists_cons_of_ne_nil (List.ne_nil_of_mem hmem)
      have hnext : key = next := by
        rcases List.mem_cons.mp hmem with heq | hlater
        · exact heq
        · exact hantisymm (hle next List.mem_cons_self)
            ((List.pairwise_cons.mp hrest).1 key hlater)
      subst hnext
      rw [List.dedup_cons_of_mem hmem, ← hkeys, List.flatMap_cons, List.flatMap_cons,
        firstPerPath_append_self]
    · -- no later entry has a path of this key, so all of them are kept
      rw [List.dedup_cons_of_notMem hmem, List.flatMap_cons, List.flatMap_cons, firstPerPath_append,
        hkeys, List.filter_eq_self.mpr]
      intro later hlater
      obtain ⟨other, hother, hmem'⟩ := List.mem_flatMap.mp hlater
      rw [Bool.not_eq_true', List.any_eq_false]
      intro entry hentry hsame
      have hother := List.mem_dedup.mp hother
      have heq := hapart other (List.mem_cons_of_mem key hother) key List.mem_cons_self later
        (mem_of_mem_firstPerPath hmem') entry hentry hsame
      exact hmem (heq ▸ hother)

/-! ### The entries of a scan -/

/-- Whether a directory has a script with a name. -/
def HasScript (disk : Disk) (layout : Layout) (place : Place) (name : String) : Prop :=
  (disk.contentAt? (place ++ [name])).isSome = true ∧ isScript layout name = true

/-- The names of the scripts that a scan finds at a row. -/
def scriptNames (disk : Disk) (layout : Layout) (root : Path) (place : Place) (row : List String) :
    List String :=
  (Listing.ofDirectory disk layout (root.descend row) (place ++ row)).scripts

section Scan

variable {disk : Disk} {layout : Layout} {root : Path} {place : Place} {row : List String}

theorem mem_scriptNames {name : String} :
    name ∈ scriptNames disk layout root place row
      ↔ Disk.fits (root.descend row) = true ∧ HasScript disk layout (place ++ row) name := by
  unfold scriptNames Listing.ofDirectory HasScript
  by_cases hfits : Disk.fits (root.descend row) = true
  · rw [if_pos hfits, List.mem_filter, Disk.mem_fileNames, Option.isSome_iff_exists]
    exact ⟨fun hname => ⟨hfits, hname⟩, fun hname => hname.2⟩
  · rw [if_neg hfits]
    exact ⟨fun hname => absurd hname List.not_mem_nil, fun hname => absurd hname.1 hfits⟩

theorem pairwise_scriptNames (disk : Disk) (layout : Layout) (root : Path) (place : Place)
    (row : List String) :
    (scriptNames disk layout root place row).Pairwise fun a b => Disk.nameLe a b = true := by
  unfold scriptNames Listing.ofDirectory
  split
  · exact (Disk.pairwise_fileNames disk _).filter _
  · exact .nil

theorem entriesAt_eq : entriesAt disk layout root place row
    = (scriptNames disk layout root place row).flatMap fun name =>
      (Entry.ofFile? disk layout.syn root (root.descend (row ++ [name]))).toList := by
  simp only [entriesAt, entriesIn, Listing.entries, scriptNames, Path.descend_concat,
    List.filterMap_eq_flatMap_toList]

/-- One entry for a path leaves the entries of a directory in order, each once. -/
theorem firstPerPath_entriesAt (h : Rooted disk root place) (hrow : IsRow row) :
    firstPerPath (entriesAt disk layout root place row)
      = (scriptNames disk layout root place row).dedup.filterMap fun name =>
        Entry.ofFile? disk layout.syn root (root.descend (row ++ [name])) := by
  have hvalid : ∀ name ∈ scriptNames disk layout root place row, Disk.ValidName name := by
    intro name hname
    have hscript := (mem_scriptNames.mp hname).2
    exact (h.tree.of_mem_fileNames
      (Disk.mem_fileNames.mpr (Option.isSome_iff_exists.mp hscript.1))).1
  rw [entriesAt_eq, firstPerPath_flatMap Disk.nameLe_antisymm (pairwise_scriptNames ..),
    List.filterMap_eq_flatMap_toList]
  · refine List.flatMap_congr fun name _ => ?_
    cases Entry.ofFile? disk layout.syn root (root.descend (row ++ [name])) with
    | none => rfl
    | some entry => rfl
  · intro a ha b hb x hx y hy hsame
    rw [path_of_ofFile? (Option.mem_toList.mp hx),
      path_of_ofFile? (Option.mem_toList.mp hy)] at hsame
    exact (eq_of_same_file h.isAbsolute hrow hrow (hvalid a ha) (hvalid b hb) hsame).2

/-- **The entries of a scan** are those of the rows that its walk visits, one after another. -/
theorem entries_ofDisk_eq (layout : Layout) (h : Rooted disk root place) :
    ∃ rows, InOrder Disk.Precedes (Meets disk root place) rows
      ∧ (Index.ofDisk disk layout root place).entries = rows.flatMap fun row =>
        (scriptNames disk layout root place row).dedup.filterMap fun name =>
          Entry.ofFile? disk layout.syn root (root.descend (row ++ [name])) := by
  obtain ⟨rows, hrows, -, hentries⟩ :=
    exists_visited root (leads_of_meets layout h (h.meets_of_lists h.lists_nil))
  simp only [List.append_nil, List.nil_append] at hrows hentries
  have hisRow : ∀ row ∈ rows, IsRow row := fun row hrow => h.isRow ((hrows.mem_iff row).mp hrow).1
  have hstrict := hrows.pairwise.imp Disk.breadthLe_of_precedes
  have hnodup : rows.dedup = rows := List.dedup_eq_self.mpr (hstrict.imp fun hab => hab.2)
  refine ⟨rows, hrows, ?_⟩
  -- a path tells the row of its directory, so entries of different rows have different paths
  have hfirst : firstPerPath (rows.flatMap (entriesAt disk layout root place))
      = rows.dedup.flatMap fun row => firstPerPath (entriesAt disk layout root place row) := by
    refine firstPerPath_flatMap Disk.breadthLe_antisymm (hstrict.imp fun hab => hab.1) ?_
    intro a ha b hb x hx y hy hsame
    obtain ⟨name, hname, -, hpath, -⟩ := exists_of_mem_entriesAt h hx
    obtain ⟨last, hlast, -, hpath', -⟩ := exists_of_mem_entriesAt h hy
    rw [hpath, hpath'] at hsame
    exact (eq_of_same_file h.isAbsolute (hisRow a ha) (hisRow b hb) hname hlast hsame).1
  calc (Index.ofDisk disk layout root place).entries
      = firstPerPath (rows.flatMap (entriesAt disk layout root place)) := by
        rw [Index.ofDisk, Index.entries_build]
        exact congrArg firstPerPath hentries
    _ = rows.flatMap fun row => firstPerPath (entriesAt disk layout root place row) := by
        rw [hfirst, hnodup]
    _ = _ := List.flatMap_congr fun row hrow => firstPerPath_entriesAt h (hisRow row hrow)

end Scan

namespace Index

variable {disk : Disk} {layout : Layout} {root : Path} {place : Place}

/-- Against an index without entries, every entry is new. -/
theorem changesFrom_of_entries_eq_nil {new old : Index} {touched : Option Path}
    (h : old.entries = []) : new.changesFrom old touched = new.entries.map .added := by
  have hnone : ∀ path, old.byPath? path = none := by
    intro path
    rw [byPath?_eq, h]
    rfl
  have hadded : changeOf? old touched = some ∘ .added := by
    funext entry
    rw [changeOf?, hnone]
    rfl
  rw [changesFrom, h, hadded, List.filterMap_eq_map]
  simp

/-- **A scan finds every module once, breadth first.**  Let the root be a directory in a tree of
    files, in which every directory that is reached without entering a hidden one can be listed.
    Then a scan succeeds.  The directories it registers are those that are reached.  Its entries are
    the scripts in them for which a name can be derived, each once: the directories go by depth,
    then by their parents, then by name, and the scripts in one directory by name.  This is the
    order of the directories on disk when they are sorted.  Compared with an index without entries, all
    entries are added, in this order. -/
theorem scan_breadth_first (previous : Index) (layout : Layout) (htree : disk.IsTree)
    (hroot : disk.find root = .directory place)
    (hlists : ∀ row, disk.Reaches place row → Disk.fits (root.descend row) = true) :
    ∃ scanned, previous.scan disk layout root = .ok scanned
      ∧ Spells root (disk.Reaches place) scanned.index.directories
      ∧ (∃ (walk : List (List String)) (scripts : List String → List String),
        InOrder Disk.Precedes (disk.Reaches place) walk
        ∧ walk = (disk.visibleBelow place).dedup
        ∧ (∀ row ∈ walk, InOrder (· < ·) (HasScript disk layout (place ++ row)) (scripts row))
        ∧ scanned.index.entries = walk.flatMap fun row => (scripts row).filterMap fun name =>
          Entry.ofFile? disk layout.syn root (root.descend (row ++ [name])))
      ∧ (∀ path, (Entry.ofFile? disk layout.syn root path).map
          (fun entry => (entry.path, entry.derivedName))
        = (derivedName? root path (String.ofList layout.syn.separator)).map fun name =>
          (path, name))
      ∧ (scanned.index.entries.map (·.path.parts)).Nodup
      ∧ (previous.entries = [] → scanned.changes = scanned.index.entries.map .added) := by
  have h : Rooted disk root place := ⟨htree, hroot⟩
  have hmeets : Meets disk root place = disk.Reaches place := by
    funext row
    exact propext ⟨fun hrow => hrow.1,
      fun hrow => h.meets_of_lists ⟨hrow, hlists row hrow⟩⟩
  obtain ⟨rows, hrows, hentries⟩ := entries_ofDisk_eq layout h
  rw [hmeets] at hrows
  refine ⟨_, scan_of_find previous hroot, hmeets ▸ spells_ofDisk h, ?_, fun path => ?_,
    (ofDisk disk layout root place).distinct, changesFrom_of_entries_eq_nil⟩
  · refine ⟨rows, fun row => (scriptNames disk layout root place row).dedup, hrows,
      hrows.unique Disk.not_precedes_of_precedes (Disk.inOrder_visibleBelow htree h.isDirectory),
      fun row hrow => ?_, hentries⟩
    have hfits := hlists row ((hrows.mem_iff row).mp hrow)
    exact inOrder_dedup (pairwise_scriptNames ..) (fun a b => Disk.lt_of_nameLe) fun name =>
      mem_scriptNames.trans (and_iff_right hfits)
  · unfold Entry.ofFile?
    cases derivedName? root path (String.ofList layout.syn.separator) with
    | none => rfl
    | some name => rfl

/-- A script in a directory, and one in a directory below it. -/
def nestedDisk : Disk where
  directories := [["ws"], ["ws", "lib"]]
  files := [(["ws", "lib", "n.dos"], .text ""), (["ws", "m.dos"], .text "")]

/-- The script that lies deeper is found later. -/
theorem nested_script_found_later :
    ∃ scanned, empty.scan nestedDisk ⟨"dos", "::"⟩ ⟨"/ws"⟩ = .ok scanned
      ∧ scanned.index.entries.map (·.name) = ["m", "lib::n"]
      ∧ scanned.changes = scanned.index.entries.map .added
      ∧ Spells ⟨"/ws"⟩ (nestedDisk.Reaches ["ws"]) scanned.index.directories
      ∧ InOrder Disk.Precedes (nestedDisk.Reaches ["ws"]) [[], ["lib"]] := by
  have htree : nestedDisk.IsTree := by decide +kernel
  have hroot : nestedDisk.find ⟨"/ws"⟩ = .directory ["ws"] := by decide +kernel
  have hlists : ∀ row, nestedDisk.Reaches ["ws"] row →
      Disk.fits (Path.descend ⟨"/ws"⟩ row) = true := by
    intro row hrow
    have hall : (nestedDisk.visibleBelow ["ws"]).all
        (fun row => Disk.fits (Path.descend ⟨"/ws"⟩ row)) = true := by decide +kernel
    exact List.all_eq_true.mp hall row ((htree.mem_visibleBelow (by decide)).mpr hrow)
  obtain ⟨scanned, hscan, hspells, ⟨walk, scripts, hwalk, hsorted, -, -⟩, -, -, hadded⟩ :=
    scan_breadth_first empty ⟨"dos", "::"⟩ htree hroot hlists
  have hscan' := hscan
  rw [scan_of_find empty hroot] at hscan'
  refine ⟨scanned, hscan, ?_, hadded rfl, hspells, ?_⟩
  · rw [← Except.ok.inj hscan']
    decide +kernel
  · have hrows : [[], ["lib"]] = (nestedDisk.visibleBelow ["ws"]).dedup := by decide +kernel
    rw [hrows, ← hsorted]
    exact hwalk

end Index

end Library

end ScriptServer

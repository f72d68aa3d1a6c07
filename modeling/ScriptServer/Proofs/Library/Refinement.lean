import ScriptServer.Proofs.Library.Rescan

namespace ScriptServer.Library

/-!
# Rescans amount to a scan

An index that a scan has made is brought up to date by listing single directories anew, in any
order.  In between it fits neither the old tree nor the new one.

* `SameListing` — a directory has the same scripts and visible directories on two disks.
* `HasChanges` — a list of directories has all that differ.
* `Index.Progress` — what holds of the index in between.
* `Index.Progress.relist` — listing one more directory keeps this.
* `Index.rescans_refine_scan` — when all directories that differ have been listed, the index is that
  of a fresh scan, directories apart whose path is too long.
-/

/-- Whether two disks have the same scripts, with the same content, and the same visible
    directories directly in a place. -/
structure SameListing (layout : Layout) (before after : Disk) (place : Place) : Prop where
  scripts : ∀ name, isScript layout name = true →
    before.contentAt? (place ++ [name]) = after.contentAt? (place ++ [name])
  directories : ∀ name, Disk.isHidden name = false →
    before.isDirectory (place ++ [name]) = after.isDirectory (place ++ [name])

/-- Whether a list of rows has every directory that is reached on two disks and differs. -/
def HasChanges (layout : Layout) (before after : Disk) (place : Place)
    (rows : List (List String)) : Prop :=
  ∀ row, before.Reaches place row → after.Reaches place row →
    ¬ SameListing layout before after (place ++ row) → row ∈ rows

section SameListing

variable {before after : Disk} {layout : Layout} {root : Path} {place : Place} {row : List String}
  {entry : Entry}

theorem SameListing.symm (h : SameListing layout before after place) :
    SameListing layout after before place where
  scripts := fun name hname => (h.scripts name hname).symm
  directories := fun name hname => (h.directories name hname).symm

/-- Where one disk has a visible directory that the other one lacks, the listings differ. -/
theorem not_sameListing (hbefore : Rooted before root place) (hrow : after.Reaches place row)
    {name : String} (hsub : before.Reaches place (row ++ [name]))
    (hnot : ¬ after.Reaches place (row ++ [name])) :
    ¬ SameListing layout before after (place ++ row) := by
  intro hsame
  have hvisible := hsub.visible name (by simp)
  refine hnot (.enter hrow hvisible ?_)
  rw [← hsame.directories name hvisible, List.append_assoc]
  exact hsub.isDirectory hbefore.isDirectory

/-- Entries are read from scripts and their contents only. -/
theorem mem_entriesAt_of_sameListing (hbefore : Rooted before root place)
    (hafter : Rooted after root place) (hrow : before.Reaches place row)
    (hrow' : after.Reaches place row) (hsame : SameListing layout before after (place ++ row))
    (hentry : entry ∈ entriesAt before layout root place row) :
    entry ∈ entriesAt after layout root place row := by
  obtain ⟨hfits, name, hname, hscript, hfile⟩ := mem_entriesAt_iff.mp hentry
  obtain ⟨content, hcontent⟩ := Disk.mem_fileNames.mp hname
  have hcontent' := hcontent
  rw [hsame.scripts name hscript] at hcontent'
  have hread : before.read (root.descend (row ++ [name]))
      = after.read (root.descend (row ++ [name])) := by
    rw [Path.descend_concat]
    exact Disk.read_child_congr hbefore.tree hafter.tree hbefore.found hafter.found
      (fun name hname => (hbefore.isRow hrow name hname).1) (hrow.isDirectory hbefore.isDirectory)
      (hrow'.isDirectory hafter.isDirectory) hcontent hcontent'
  refine mem_entriesAt_iff.mpr
    ⟨hfits, name, Disk.mem_fileNames.mpr ⟨content, hcontent'⟩, hscript, ?_⟩
  rw [← hfile]
  unfold Entry.ofFile? Entry.declaredIn
  rw [hread]

theorem mem_entriesAt_congr (hbefore : Rooted before root place) (hafter : Rooted after root place)
    (hrow : before.Reaches place row) (hrow' : after.Reaches place row)
    (hsame : SameListing layout before after (place ++ row)) :
    entry ∈ entriesAt before layout root place row
      ↔ entry ∈ entriesAt after layout root place row :=
  ⟨mem_entriesAt_of_sameListing hbefore hafter hrow hrow' hsame,
    mem_entriesAt_of_sameListing hafter hbefore hrow' hrow hsame.symm⟩

end SameListing

namespace Index

/-- Whether two indexes hold the same modules and directories, in any order. -/
structure Agrees (index other : Index) : Prop where
  root_eq : index.root = other.root
  entries_iff : ∀ entry, entry ∈ index.entries ↔ entry ∈ other.entries
  directories_iff : ∀ directory, directory ∈ index.directories ↔ directory ∈ other.directories

/-- Whether an index agrees with another one, but for directories that it lacks and whose path is
    too long to lead anywhere. -/
structure Covers (index other : Index) : Prop where
  root_eq : index.root = other.root
  entries_iff : ∀ entry, entry ∈ index.entries ↔ entry ∈ other.entries
  directories_mem : ∀ directory ∈ index.directories, directory ∈ other.directories
  mem_directories : ∀ directory ∈ other.directories, Disk.fits directory = true →
    directory ∈ index.directories

/-! ### Indexes from a scan -/

section Agrees

variable {index : Index} {disk : Disk} {layout : Layout} {root : Path} {place : Place}
  {row : List String} {entry : Entry}

theorem Agrees.spells (hindex : index.Agrees (ofDisk disk layout root place))
    (h : Rooted disk root place) : Spells root (Meets disk root place) index.directories := by
  intro path
  rw [hindex.directories_iff path, spells_ofDisk h path]

theorem Agrees.knows_iff (hindex : index.Agrees (ofDisk disk layout root place))
    (h : Rooted disk root place) : index.Knows root row ↔ Meets disk root place row := by
  have hmem : IsRow row → (root.descend row ∈ index.directories ↔ Meets disk root place row) :=
    (hindex.spells h).mem_iff h.isAbsolute fun other hother => h.isRow hother.1
  constructor
  · rintro ⟨hrow, hknows⟩
    exact (hmem hrow).mp hknows
  · intro hmeets
    have hrow := h.isRow hmeets.1
    exact ⟨hrow, (hmem hrow).mpr hmeets⟩

theorem Agrees.holds_iff (hindex : index.Agrees (ofDisk disk layout root place))
    (h : Rooted disk root place) :
    index.Holds root row entry
      ↔ Meets disk root place row ∧ entry ∈ entriesAt disk layout root place row := by
  constructor
  · rintro ⟨hrow, hmem, name, hname, hpath⟩
    obtain ⟨other, hmeets, hread⟩ := (mem_entries_ofDisk h).mp ((hindex.entries_iff entry).mp hmem)
    obtain ⟨last, hlast, -, hpath', -⟩ := exists_of_mem_entriesAt h hread
    have hfile : (root.descend (row ++ [name])).same (root.descend (other ++ [last])) = true := by
      rw [← hpath, ← hpath']
      exact Path.same_iff.mpr rfl
    obtain ⟨rfl, -⟩ := eq_of_same_file h.isAbsolute hrow (h.isRow hmeets.1) hname hlast hfile
    exact ⟨hmeets, hread⟩
  · rintro ⟨hmeets, hread⟩
    obtain ⟨name, hname, -, hpath, -⟩ := exists_of_mem_entriesAt h hread
    have hmem := (mem_entries_ofDisk h).mpr ⟨row, hmeets, hread⟩
    exact ⟨h.isRow hmeets.1, (hindex.entries_iff entry).mpr hmem, name, hname, hpath⟩

theorem Agrees.below (hindex : index.Agrees (ofDisk disk layout root place))
    (h : Rooted disk root place) : index.Below root where
  root_eq := hindex.root_eq
  rows := by
    intro path
    rw [hindex.spells h path]
    simp only [hindex.knows_iff h]
  located := by
    intro entry hentry
    obtain ⟨row, hmeets, hread⟩ := (mem_entries_ofDisk h).mp ((hindex.entries_iff entry).mp hentry)
    exact ⟨row, (hindex.knows_iff h).mpr hmeets, (hindex.holds_iff h).mpr ⟨hmeets, hread⟩⟩
  functional := by
    intro a ha b hb hsame
    obtain ⟨row, hmeets, ha⟩ := (mem_entries_ofDisk h).mp ((hindex.entries_iff a).mp ha)
    obtain ⟨other, hmeets', hb⟩ := (mem_entries_ofDisk h).mp ((hindex.entries_iff b).mp hb)
    exact eq_of_same_path h (h.isRow hmeets.1) (h.isRow hmeets'.1) ha hb hsame

end Agrees

/-! ### Between two trees -/

/-- What holds of an index that was made on one tree, after some directories have been listed anew
    on another one. -/
structure Progress (index : Index) (before after : Disk) (layout : Layout) (root : Path)
    (place : Place) (done : List (List String)) : Prop where
  below : index.Below root
  /-- Entries are in directories that can be listed. -/
  short : ∀ row entry, index.Holds root row entry → Disk.fits (root.descend row) = true
  /-- Nothing is known that is in neither tree. -/
  known : ∀ row, index.Knows root row → Meets before root place row ∨ Meets after root place row
  /-- What is in both trees is known. -/
  common : ∀ row, Meets before root place row → Lists after root place row → index.Knows root row
  /-- A new directory is known with everything in it. -/
  complete : ∀ row, index.Knows root row → ¬ Meets before root place row →
    ∀ deeper, row <+: deeper → Lists after root place deeper → index.Knows root deeper
  /-- The entries of a directory are up to date if it is new, listed or unchanged. -/
  fresh : ∀ row, index.Knows root row → Meets after root place row →
    (Meets before root place row → row ∈ done ∨ SameListing layout before after (place ++ row)) →
    ∀ entry, index.Holds root row entry ↔ entry ∈ entriesAt after layout root place row
  /-- Nothing that vanished is known in a listed directory. -/
  swept : ∀ row ∈ done, ∀ deeper, index.Knows root deeper → row <+: deeper →
    Meets after root place deeper
  /-- A listed directory is known with the directories in it. -/
  entered : ∀ row ∈ done, Lists after root place row → index.Knows root row
    ∧ ∀ name, Lists after root place (row ++ [name]) → index.Knows root (row ++ [name])

section Progress

variable {index : Index} {before after : Disk} {layout : Layout} {root : Path} {place : Place}
  {done : List (List String)} {listed row : List String} {entry : Entry}

theorem Gains.meets (h : Rooted after root place)
    (hgains : index.Gains after root place listed row) : Meets after root place row := by
  obtain ⟨hlists, rfl | ⟨name, -, hmeets, -⟩⟩ := hgains
  · exact h.meets_of_lists hlists
  · exact hmeets

theorem gains_listed (hlists : Lists after root place listed) :
    index.Gains after root place listed listed := ⟨hlists, .inl rfl⟩

/-- A directory that can be listed stays known. -/
theorem Keeps.of_lists (hknows : index.Knows root row) (hlists : Lists after root place row) :
    index.Keeps after root place listed row := ⟨hknows, fun _ => hlists⟩

/-- Below the listed directory, everything that can be listed is known afterwards if what is known
    of its subdirectory is complete. -/
theorem keeps_or_gains_of_lists (h : Rooted after root place)
    (hlists : Lists after root place listed) (hrow : Lists after root place row) {name : String}
    (habove : listed ++ [name] <+: row)
    (hcomplete : index.Knows root (listed ++ [name]) → index.Knows root row) :
    index.Keeps after root place listed row ∨ index.Gains after root place listed row := by
  by_cases hkeeps : index.Keeps after root place listed (listed ++ [name])
  · exact .inl (.of_lists (hcomplete hkeeps.1) hrow)
  · exact .inr ⟨hlists, .inr ⟨name, habove, h.meets_of_lists hrow, hkeeps⟩⟩

namespace Progress

/-- What is read again is new, so it was up to date already. -/
theorem readsAgain (hindex : index.Progress before after layout root place done)
    (hbefore : Rooted before root place) (hafter : Rooted after root place) :
    index.ReadsAgain after layout root place listed := by
  intro row entry hknows hholds hne hgains
  obtain ⟨hlists, rfl | ⟨name, habove, hmeets, hnot⟩⟩ := hgains
  · exact absurd rfl hne
  · -- the new directory can be listed: it has an entry itself, or something is met in it
    have hlists' : Lists after root place (listed ++ [name]) := by
      by_cases heq : listed ++ [name] = row
      · rw [heq]
        exact ⟨hmeets.1, hindex.short row entry hholds⟩
      · exact hafter.lists_of_meets hmeets habove heq
    have hnew : ¬ Meets before root place row := by
      intro hold
      have hold' := hbefore.meets_above hold habove
      exact hnot (.of_lists (hindex.common _ hold' hlists') hlists')
    exact (hindex.fresh row hknows hmeets (fun hold => absurd hold hnew) entry).mp hholds

/-- The file of an entry that is up to date has not the path of a known directory. -/
theorem path_ne (hindex : index.Progress before after layout root place done)
    (hbefore : Rooted before root place) (hafter : Rooted after root place)
    (hknows : index.Knows root row)
    (hsettled : Meets before root place row →
      row ∈ done ∨ SameListing layout before after (place ++ row))
    (hread : entry ∈ entriesAt after layout root place row) {gone : List String}
    (hgone : index.Knows root gone) : entry.path ≠ root.descend gone := by
  intro hpath
  obtain ⟨name, hname, hfile, hpath', -⟩ := exists_of_mem_entriesAt hafter hread
  obtain rfl : gone = row ++ [name] := by
    rw [← Path.same_descend_iff hafter.isAbsolute hgone.1.isName (isName_concat hknows.1 hname),
      ← hpath, ← hpath']
    exact Path.same_iff.mpr rfl
  have hnot : ¬ Meets after root place (row ++ [name]) := by
    intro hmeets
    have hdirectory := hmeets.1.isDirectory hafter.isDirectory
    rw [← List.append_assoc, hfile] at hdirectory
    exact absurd hdirectory Bool.false_ne_true
  rcases hindex.known _ hgone with hold | hnew
  · -- the directory was there before and is a file now, so its directory has been listed
    have habove : row <+: row ++ [name] := List.prefix_append row [name]
    rcases hsettled (hbefore.meets_above hold habove) with hdone | hsame
    · exact hnot (hindex.swept row hdone _ hgone habove)
    · have hdirectory := hold.1.isDirectory hbefore.isDirectory
      rw [← List.append_assoc, hsame.directories name (hold.1.visible name (by simp)), hfile]
        at hdirectory
      exact absurd hdirectory Bool.false_ne_true
  · exact hnot hnew

/-- Where a directory that can be listed is known beforehand with everything new in it, it is so
    afterwards. -/
theorem keeps_or_gains_of_complete (hindex : index.Progress before after layout root place done)
    (hbefore : Rooted before root place) (hafter : Rooted after root place)
    (hrow : index.Keeps after root place listed row ∨ index.Gains after root place listed row)
    (hnew : ¬ Meets before root place row) {deeper : List String} (habove : row <+: deeper)
    (hdeeper : Lists after root place deeper) :
    index.Keeps after root place listed deeper ∨ index.Gains after root place listed deeper := by
  rcases hrow with hkeeps | ⟨hlists, rfl | ⟨name, hname, -, hnot⟩⟩
  · exact .inl (.of_lists (hindex.complete row hkeeps.1 hnew deeper habove hdeeper) hdeeper)
  · -- the row is the listed one; below it, each subdirectory is kept or gained as a whole
    obtain ⟨rest, rfl⟩ := habove
    cases rest with
    | nil =>
      rw [List.append_nil]
      exact .inr (gains_listed hlists)
    | cons name rest =>
      have hsub : row ++ [name] <+: row ++ name :: rest := ⟨rest, by simp⟩
      refine keeps_or_gains_of_lists hafter hlists hdeeper hsub fun hknows => ?_
      refine hindex.complete _ hknows (fun hold => hnew ?_) _ hsub hdeeper
      exact hbefore.meets_above hold (List.prefix_append row [name])
  · exact .inr ⟨hlists, .inr ⟨name, hname.trans habove, hafter.meets_of_lists hdeeper, hnot⟩⟩

/-- The entries of a row that is up to date afterwards. -/
theorem holds_relist_iff (hindex : index.Progress before after layout root place done)
    (hbefore : Rooted before root place) (hafter : Rooted after root place)
    (hlisted : IsRow listed)
    (hrow : index.Keeps after root place listed row ∨ index.Gains after root place listed row)
    (hmeets : Meets after root place row)
    (hsettled : Meets before root place row →
      row ∈ listed :: done ∨ SameListing layout before after (place ++ row)) :
    (index.relist after layout root (root.descend listed)).index.Holds root row entry
      ↔ entry ∈ entriesAt after layout root place row := by
  have hagain : index.ReadsAgain after layout root place listed :=
    hindex.readsAgain hbefore hafter
  rw [holds_relist hindex.below hafter hlisted hagain]
  by_cases hgains : index.Gains after root place listed row
  · -- what is kept here is read again, so nothing else than what is read is held
    constructor
    · rintro (⟨hholds, hne, hkeeps, -⟩ | ⟨-, hread⟩)
      · exact hagain row entry hkeeps.1 hholds hne hgains
      · exact hread
    · intro hread
      exact .inr ⟨hgains, hread⟩
  · have hkeeps := hrow.resolve_right hgains
    -- the listed row itself would be gained
    have hne : row ≠ listed := by
      rintro rfl
      exact hgains (gains_listed (hkeeps.2 (List.prefix_refl row)))
    have hsettled' : Meets before root place row →
        row ∈ done ∨ SameListing layout before after (place ++ row) := by
      intro hold
      rcases hsettled hold with hdone | hsame
      · exact .inl ((List.mem_cons.mp hdone).resolve_left hne)
      · exact .inr hsame
    have hfresh := hindex.fresh row hkeeps.1 hmeets hsettled' entry
    constructor
    · rintro (⟨hholds, -⟩ | ⟨hgains', -⟩)
      · exact hfresh.mp hholds
      · exact absurd hgains' hgains
    · intro hread
      refine .inl ⟨hfresh.mpr hread, hne, hkeeps, fun gone hgone => ?_⟩
      exact hindex.path_ne hbefore hafter hkeeps.1 hsettled' hread hgone.1

/-- Listing one more directory anew. -/
theorem relist (hindex : index.Progress before after layout root place done)
    (hbefore : Rooted before root place) (hafter : Rooted after root place)
    (hlisted : IsRow listed) :
    (index.relist after layout root (root.descend listed)).index.Progress before after layout root
      place (listed :: done) := by
  have hagain : index.ReadsAgain after layout root place listed :=
    hindex.readsAgain hbefore hafter
  have hknows : ∀ row, (index.relist after layout root (root.descend listed)).index.Knows root row
      ↔ index.Keeps after root place listed row ∨ index.Gains after root place listed row :=
    fun _ => knows_relist hindex.below hafter hlisted
  -- a directory that can be listed and was known stays so
  have hkept : ∀ row, index.Knows root row → Lists after root place row →
      (index.relist after layout root (root.descend listed)).index.Knows root row :=
    fun row hrow hlists => (hknows row).mpr (.inl (.of_lists hrow hlists))
  exact
    { below := below_relist hindex.below hafter hlisted hagain
      short := by
        intro row entry hholds
        rcases (holds_relist hindex.below hafter hlisted hagain).mp hholds with ⟨hold, -⟩ | ⟨-, hread⟩
        · exact hindex.short row entry hold
        · exact (mem_entriesAt_iff.mp hread).1
      known := by
        intro row hrow
        rcases (hknows row).mp hrow with hkeeps | hgains
        · exact hindex.known row hkeeps.1
        · exact .inr (hgains.meets hafter)
      common := by
        intro row hold hlists
        exact hkept row (hindex.common row hold hlists) hlists
      complete := by
        intro row hrow hnew deeper habove hdeeper
        rw [hknows] at hrow ⊢
        exact hindex.keeps_or_gains_of_complete hbefore hafter hrow hnew habove hdeeper
      fresh := by
        intro row hrow hmeets hsettled entry
        exact hindex.holds_relist_iff hbefore hafter hlisted ((hknows row).mp hrow) hmeets hsettled
      swept := by
        intro row hrow deeper hdeeper habove
        rcases (hknows deeper).mp hdeeper with hkeeps | hgains
        · rcases List.mem_cons.mp hrow with rfl | hdone
          · exact hafter.meets_of_lists (hkeeps.2 habove)
          · exact hindex.swept row hdone deeper hkeeps.1 habove
        · exact hgains.meets hafter
      entered := by
        intro row hrow hlists
        rcases List.mem_cons.mp hrow with rfl | hdone
        · refine ⟨(hknows row).mpr (.inr (gains_listed hlists)), fun name hname => ?_⟩
          exact (hknows _).mpr (keeps_or_gains_of_lists hafter hlists hname (List.prefix_refl _) id)
        · obtain ⟨hentered, hnames⟩ := hindex.entered row hdone hlists
          exact ⟨hkept row hentered hlists, fun name hname => hkept _ (hnames name hname) hname⟩ }

/-- An index that was made on one tree, before any directory is listed anew. -/
theorem of_agrees (hindex : index.Agrees (ofDisk before layout root place))
    (hbefore : Rooted before root place) (hafter : Rooted after root place) :
    index.Progress before after layout root place [] where
  below := hindex.below hbefore
  short := by
    intro row entry hholds
    exact (mem_entriesAt_iff.mp ((hindex.holds_iff hbefore).mp hholds).2).1
  known := fun row hknows => .inl ((hindex.knows_iff hbefore).mp hknows)
  common := fun row hold _ => (hindex.knows_iff hbefore).mpr hold
  complete := fun row hknows hnew => absurd ((hindex.knows_iff hbefore).mp hknows) hnew
  fresh := by
    intro row hknows hmeets hsettled entry
    have hold := (hindex.knows_iff hbefore).mp hknows
    have hsame := (hsettled hold).resolve_left List.not_mem_nil
    rw [hindex.holds_iff hbefore, mem_entriesAt_congr hbefore hafter hold.1 hmeets.1 hsame]
    exact and_iff_right hold
  swept := fun row hrow => absurd hrow List.not_mem_nil
  entered := fun row hrow => absurd hrow List.not_mem_nil

/-! ### When every difference has been listed -/

/-- Nothing is known that a scan does not meet. -/
theorem meets_of_knows (hindex : index.Progress before after layout root place done)
    (hbefore : Rooted before root place) (hafter : Rooted after root place)
    (hdone : HasChanges layout before after place done)
    (hknows : index.Knows root row) : Meets after root place row := by
  rcases hindex.known row hknows with hold | hnew
  · -- by induction on the way down, each row on it is listed, or the last one that is was swept
    have hway : ∀ above rest, row = above ++ rest → Lists after root place above →
        Meets after root place row := by
      intro above rest
      induction rest generalizing above with
      | nil =>
        rintro rfl hlists
        rw [List.append_nil]
        exact hafter.meets_of_lists hlists
      | cons name rest ih =>
        rintro hrow hlists
        have hsub : above ++ [name] <+: row := ⟨rest, by rw [hrow]; simp⟩
        have habove : above <+: row := (List.prefix_append above [name]).trans hsub
        by_cases hreaches : after.Reaches place (above ++ [name])
        · by_cases hfits : Disk.fits (root.descend (above ++ [name])) = true
          · exact ih (above ++ [name]) (by rw [hrow]; simp) ⟨hreaches, hfits⟩
          · -- nothing is met below a directory that cannot be listed
            have heq : above ++ [name] = row := by
              by_contra hne
              exact hfits (hbefore.lists_of_meets hold hsub hne).2
            rw [← heq]
            exact hafter.meets_concat_iff.mpr ⟨hlists, hreaches⟩
        · have hdiffers : ¬ SameListing layout before after (place ++ above) :=
            not_sameListing hbefore hlists.1 (hbefore.reaches_above hold.1 hsub) hreaches
          have hold'' := hbefore.reaches_above hold.1 habove
          exact hindex.swept above (hdone above hold'' hlists.1 hdiffers) row hknows habove
    exact hway [] row rfl hafter.lists_nil
  · exact hnew

/-- Everything that a scan lists is known. -/
theorem knows_of_lists (hindex : index.Progress before after layout root place done)
    (hbefore : Rooted before root place) (hafter : Rooted after root place)
    (hdone : HasChanges layout before after place done)
    (hrow : Lists after root place row) : index.Knows root row := by
  induction row using List.reverseRecOn with
  | nil =>
    have hroot := hbefore.meets_of_lists hbefore.lists_nil
    exact hindex.common [] hroot hrow
  | append_singleton row name ih =>
    have habove : row <+: row ++ [name] := List.prefix_append row [name]
    have hlists := hafter.lists_above hrow habove
    by_cases hold : before.Reaches place (row ++ [name])
    · -- the path is the same before and after, so its length is no obstacle
      have hlists' : Lists before root place (row ++ [name]) := ⟨hold, hrow.2⟩
      exact hindex.common _ (hbefore.meets_of_lists hlists') hrow
    · by_cases hold' : before.Reaches place row
      · -- the directory is new in one that was there before, which therefore differs
        have hdiffers : ¬ SameListing layout before after (place ++ row) :=
          fun hsame => not_sameListing hafter hold' hrow.1 hold hsame.symm
        exact (hindex.entered row (hdone row hold' hlists.1 hdiffers) hlists).2 name hrow
      · exact hindex.complete row (ih hlists) (fun hmeets => hold' hmeets.1) _ habove hrow

/-- The index holds what a scan finds. -/
theorem covers (hindex : index.Progress before after layout root place done)
    (hbefore : Rooted before root place) (hafter : Rooted after root place)
    (hdone : HasChanges layout before after place done) :
    index.Covers (ofDisk after layout root place) := by
  have hfresh : ∀ row entry, index.Knows root row →
      (index.Holds root row entry ↔ entry ∈ entriesAt after layout root place row) := by
    intro row entry hknows
    have hmeets := hindex.meets_of_knows hbefore hafter hdone hknows
    refine hindex.fresh row hknows hmeets (fun hold => ?_) entry
    by_cases hsame : SameListing layout before after (place ++ row)
    · exact .inr hsame
    · exact .inl (hdone row hold.1 hmeets.1 hsame)
  refine ⟨hindex.below.root_eq, fun entry => ?_, fun directory hmem => ?_,
    fun directory hmem hfits => ?_⟩
  · rw [mem_entries_ofDisk hafter]
    constructor
    · intro hmem
      obtain ⟨row, hknows, hholds⟩ := hindex.below.located entry hmem
      exact ⟨row, hindex.meets_of_knows hbefore hafter hdone hknows,
        (hfresh row entry hknows).mp hholds⟩
    · rintro ⟨row, hmeets, hread⟩
      have hlists : Lists after root place row := ⟨hmeets.1, (mem_entriesAt_iff.mp hread).1⟩
      have hknows := hindex.knows_of_lists hbefore hafter hdone hlists
      exact ((hfresh row entry hknows).mpr hread).2.1
  · obtain ⟨row, hknows, rfl⟩ := (hindex.below.rows directory).mp hmem
    exact (spells_ofDisk hafter _).mpr
      ⟨row, hindex.meets_of_knows hbefore hafter hdone hknows, rfl⟩
  · obtain ⟨row, hmeets, rfl⟩ := (spells_ofDisk hafter directory).mp hmem
    exact (hindex.knows_of_lists hbefore hafter hdone ⟨hmeets.1, hfits⟩).2

end Progress

end Progress

/-! ### The theorem -/

/-- The index after directories have been rescanned in turn. -/
def rescanAll (index : Index) (disk : Disk) (layout : Layout) (root : Path)
    (rows : List (List String)) : Index :=
  rows.foldl (fun index row => (index.rescan disk layout (root.descend row)).index) index

section Refinement

variable {index : Index} {before after : Disk} {layout : Layout} {root : Path} {place : Place}

theorem Progress.rescanAll {done rows : List (List String)}
    (hindex : index.Progress before after layout root place done)
    (hbefore : Rooted before root place) (hafter : Rooted after root place)
    (hrows : ∀ row ∈ rows, IsRow row) :
    (index.rescanAll after layout root rows).Progress before after layout root place
      (rows.reverse ++ done) := by
  induction rows generalizing index done with
  | nil => exact hindex
  | cons row rows ih =>
    have hnames := List.forall_mem_cons.mp hrows
    have hstep := hindex.relist hbefore hafter hnames.1
    rw [← rescan_eq hindex.below hafter.isAbsolute hnames.1] at hstep
    rw [List.reverse_cons, List.append_assoc]
    exact ih hstep hnames.2

/-- **Refinement.**  Let an index hold what a scan finds on one tree, and let directories be
    rescanned on another tree, in any order, among them all that are in both trees and differ.
    Then the index holds the modules and directories of a fresh scan, and lacks at most directories
    whose path is too long to lead anywhere. -/
theorem rescans_refine_scan {previous : Index} {scanned : Scanned} {changed : List (List String)}
    (hbefore : before.IsTree) (hafter : after.IsTree)
    (hscanned : previous.scan before layout root = .ok scanned)
    (hindex : index.Agrees scanned.index) (hroot : after.find root = .directory place)
    (hreached : ∀ row ∈ changed, before.Reaches place row ∨ after.Reaches place row)
    (hchanged : HasChanges layout before after place changed) :
    ∃ fresh, empty.scan after layout root = .ok fresh
      ∧ (index.rescanAll after layout root changed).Covers fresh.index := by
  obtain ⟨place', hroot', hofDisk⟩ := exists_of_scan hscanned
  obtain rfl := Disk.place_unique hroot' hroot
  have hrooted : Rooted before root place := ⟨hbefore, hroot'⟩
  have hrooted' : Rooted after root place := ⟨hafter, hroot⟩
  rw [hofDisk] at hindex
  have hrows : ∀ row ∈ changed, IsRow row := by
    intro row hrow
    rcases hreached row hrow with hrow | hrow
    · exact hrooted.isRow hrow
    · exact hrooted'.isRow hrow
  have hprogress := (Progress.of_agrees hindex hrooted hrooted').rescanAll hrooted hrooted' hrows
  refine ⟨_, scan_of_find empty hroot,
    hprogress.covers hrooted hrooted' fun row hold hnew hne => ?_⟩
  exact List.mem_append_left _ (List.mem_reverse.mpr (hchanged row hold hnew hne))

end Refinement

/-- A script in a new directory is found when the directory around it and it are rescanned. -/
theorem rescans_find_new_script :
    ∃ fresh, empty.scan
        ⟨[["ws"], ["ws", "a"]], [(["ws", "a", "m.dos"], .text "x")]⟩ ⟨"dos", "::"⟩ ⟨"/ws"⟩ = .ok fresh
      ∧ ((ofDisk ⟨[["ws"]], []⟩ ⟨"dos", "::"⟩ ⟨"/ws"⟩ ["ws"]).rescanAll
          ⟨[["ws"], ["ws", "a"]], [(["ws", "a", "m.dos"], .text "x")]⟩ ⟨"dos", "::"⟩ ⟨"/ws"⟩
          [["a"], []]).Covers fresh.index := by
  have hroot : Disk.find ⟨[["ws"]], []⟩ ⟨"/ws"⟩ = .directory ["ws"] := by decide
  have hroot' : Disk.find ⟨[["ws"], ["ws", "a"]], [(["ws", "a", "m.dos"], .text "x")]⟩ ⟨"/ws"⟩
      = .directory ["ws"] := by decide
  have htree : Disk.IsTree ⟨[["ws"]], []⟩ := by
    refine ⟨fun place hplace => ?_, fun file hfile => absurd hfile List.not_mem_nil⟩
    rw [List.mem_singleton.mp hplace]
    exact ⟨[], "ws", rfl, by decide, rfl⟩
  have htree' : Disk.IsTree
      ⟨[["ws"], ["ws", "a"]], [(["ws", "a", "m.dos"], .text "x")]⟩ := by
    refine ⟨fun place hplace => ?_, fun file hfile => ?_⟩
    · rcases List.mem_cons.mp hplace with rfl | hplace
      · exact ⟨[], "ws", rfl, by decide, rfl⟩
      · rw [List.mem_singleton.mp hplace]
        exact ⟨["ws"], "a", rfl, by decide, by decide⟩
    · rw [List.mem_singleton.mp hfile]
      exact ⟨["ws", "a"], "m.dos", rfl, by decide, by decide, by decide⟩
  refine rescans_refine_scan htree htree' (scan_of_find empty hroot)
    ⟨rfl, fun _ => Iff.rfl, fun _ => Iff.rfl⟩ hroot' ?_ ?_
  · intro row hrow
    have hnew : Disk.Reaches ⟨[["ws"], ["ws", "a"]], [(["ws", "a", "m.dos"], .text "x")]⟩ ["ws"]
        ([] ++ ["a"]) := .enter .here (by decide) (by decide)
    rcases List.mem_cons.mp hrow with rfl | hrow
    · exact .inr hnew
    · rw [List.mem_singleton.mp hrow]
      exact .inr .here
  · intro row hold _ _
    have hdirectory := Disk.isDirectory_iff.mp (hold.isDirectory (by decide))
    obtain rfl : row = [] := by simpa using hdirectory
    decide

/-! ### Directories with a long path -/

theorem utf8ByteSize_slashes (n : Nat) :
    (String.ofList (List.replicate n '/')).utf8ByteSize = n := by
  induction n with
  | zero => rfl
  | succ n ih =>
    rw [List.replicate_succ, String.ofList_cons, String.utf8ByteSize_append,
      String.utf8ByteSize_singleton, ih, show '/'.utf8Size = 1 from rfl, Nat.add_comm]

theorem parts_slashes (n : Nat) :
    (Path.mk (String.ofList (List.replicate (n + 1) '/'))).parts = [.root] := by
  have hsplit : Text.splitAtChar '/' (List.replicate n '/') = List.replicate (n + 1) [] := by
    induction n with
    | zero => rfl
    | succ n ih => rw [List.replicate_succ, Text.splitAtChar, if_pos rfl, ih, ← List.replicate_succ]
  have htail : (Path.mk (String.ofList (List.replicate (n + 1) '/'))).text.toList
      = '/' :: List.replicate n '/' := String.toList_ofList
  rw [Path.parts_of_pieces (Path.pieces_of_tail _ htail) (Text.splitAtChar_ne_nil _ _), hsplit]
  simp [Part.ofPiece?]

/-- The root directory, written with as many slashes as a path may have. -/
def longRoot : Path := ⟨String.ofList (List.replicate Disk.pathLimit '/')⟩

theorem find_longRoot (disk : Disk) : disk.find longRoot = .directory [] := by
  have hlimit : Disk.pathLimit = 4094 + 1 := rfl
  refine Disk.find_eq_directory_iff.mpr ⟨?_, ?_, ?_, ?_⟩
  · intro hnul
    rw [longRoot, String.toList_ofList] at hnul
    exact absurd (List.eq_of_mem_replicate hnul) (by decide)
  · exact decide_eq_true (Nat.le_of_eq (utf8ByteSize_slashes Disk.pathLimit))
  · rw [longRoot, Path.isAbsolute, String.toList_ofList, hlimit, List.replicate_succ]
    rfl
  · rw [longRoot, hlimit, parts_slashes]
    rfl

theorem not_fits_longRoot_child {name : String} (h : Path.IsName name) :
    Disk.fits (longRoot.child name) = false := by
  obtain ⟨middle, htext, -⟩ := Path.text_child_eq longRoot h
  have hname : name.utf8ByteSize ≠ 0 := fun hzero =>
    h.nonempty (String.utf8ByteSize_eq_zero_iff.mp hzero)
  have hsize : longRoot.text.utf8ByteSize = Disk.pathLimit := utf8ByteSize_slashes Disk.pathLimit
  refine decide_eq_false fun hle => ?_
  rw [htext, String.utf8ByteSize_append, String.utf8ByteSize_append, hsize] at hle
  omega

/-- A rescan of a directory that cannot be listed drops it. -/
theorem not_knows_of_not_lists {index : Index} {disk : Disk} {layout : Layout} {root : Path}
    {place : Place} {row : List String} (hindex : index.Below root) (h : Rooted disk root place)
    (hrow : IsRow row) (hnot : ¬ Lists disk root place row) :
    ¬ (index.rescanAll disk layout root [row]).Knows root row := by
  show ¬ (index.rescan disk layout (root.descend row)).index.Knows root row
  rw [rescan_eq hindex h.isAbsolute hrow, knows_relist hindex h hrow]
  rintro (hkeeps | hgains)
  · exact hnot (hkeeps.2 (List.prefix_refl _))
  · exact hnot hgains.1

/-- A directory whose path is too long is met by a scan, but gone once it is rescanned, although
    nothing has changed on disk. -/
theorem rescan_loses_long_directory :
    ¬ ∀ (before after : Disk) (layout : Layout) (root : Path) (place : Place)
      (previous index : Index) (scanned : Scanned) (changed : List (List String)),
      before.IsTree → after.IsTree → previous.scan before layout root = .ok scanned →
      index.Agrees scanned.index → after.find root = .directory place →
      (∀ row ∈ changed, before.Reaches place row ∨ after.Reaches place row) →
      HasChanges layout before after place changed →
      ∃ fresh, empty.scan after layout root = .ok fresh
        ∧ (index.rescanAll after layout root changed).Agrees fresh.index := by
  intro hclaim
  have htree : Disk.IsTree ⟨[["d"]], []⟩ := by
    refine ⟨fun place hplace => ?_, fun file hfile => absurd hfile List.not_mem_nil⟩
    rw [List.mem_singleton.mp hplace]
    exact ⟨[], "d", rfl, by decide, rfl⟩
  have hroot := find_longRoot ⟨[["d"]], []⟩
  have hrooted : Rooted ⟨[["d"]], []⟩ longRoot [] := ⟨htree, hroot⟩
  have hreaches : Disk.Reaches ⟨[["d"]], []⟩ [] ([] ++ ["d"]) :=
    .enter .here (by decide) (by decide)
  have hrow : IsRow ["d"] := hrooted.isRow hreaches
  have hagrees : (ofDisk ⟨[["d"]], []⟩ ⟨"dos", "::"⟩ longRoot []).Agrees
      (ofDisk ⟨[["d"]], []⟩ ⟨"dos", "::"⟩ longRoot []) :=
    ⟨rfl, fun _ => Iff.rfl, fun _ => Iff.rfl⟩
  obtain ⟨fresh, hfresh, hsame⟩ := hclaim ⟨[["d"]], []⟩ ⟨[["d"]], []⟩ ⟨"dos", "::"⟩ longRoot []
    empty _ _ [["d"]] htree htree (scan_of_find empty hroot) hagrees hroot
    (fun row hmem => by rw [List.mem_singleton.mp hmem]; exact .inl hreaches)
    (fun row _ _ hne => absurd ⟨fun _ _ => rfl, fun _ _ => rfl⟩ hne)
  -- a fresh scan meets the directory
  obtain ⟨place, hplace, hofDisk⟩ := exists_of_scan hfresh
  obtain rfl := Disk.place_unique hroot hplace
  have hmeets : Meets ⟨[["d"]], []⟩ longRoot [] ["d"] := ⟨hreaches, .inr hrooted.lists_nil.2⟩
  have hmem : longRoot.descend ["d"] ∈ fresh.index.directories := by
    rw [hofDisk]
    exact ((spells_ofDisk hrooted).mem_iff hrooted.isAbsolute
      (fun row hrow => hrooted.isRow hrow.1) hrow).mpr hmeets
  -- the rescan takes it for vanished
  have hnot : ¬ Lists ⟨[["d"]], []⟩ longRoot [] ["d"] := by
    rintro ⟨-, hfits⟩
    rw [Path.descend, List.foldl_cons, List.foldl_nil, not_fits_longRoot_child (by decide)]
      at hfits
    exact absurd hfits Bool.false_ne_true
  rw [← hsame.directories_iff] at hmem
  exact not_knows_of_not_lists (hagrees.below hrooted) hrooted hrow hnot ⟨hrow, hmem⟩

end Index

end ScriptServer.Library

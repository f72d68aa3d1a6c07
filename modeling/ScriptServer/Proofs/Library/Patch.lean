import ScriptServer.Proofs.Library.Changes

namespace ScriptServer.Library

/-!
# Changes as a patch

The changes from one index to another say everything about the difference: whoever keeps entries by
path and follows the changes ends up with the new index.

* `Change.patch` — what a change does to entries kept by path.
* `patch_eq_of_mem`, `patch_eq_of_forall` — what a row of changes leaves, from the one change that
  mentions a path, if any.
* `Index.nodup_changesFrom` — no path is mentioned twice.
* `Index.changes_patch_index` — which changes there are, and that following them is enough.
-/

/-- The entry that a change leaves for its path. -/
def Change.leaves? : Change → Option Entry
  | .added entry => some entry
  | .changed entry => some entry
  | .removed _ => none

/-- What a change does to entries kept by path: it puts its entry in, in place of the one before, or
    takes it out. -/
def Change.patch (files : Path → Option Entry) (change : Change) : Path → Option Entry :=
  fun path => if change.entry.path.same path then change.leaves? else files path

/-! ### A row of changes -/

section Row

variable {changes : List Change} {path : Path}

/-- A path that no change mentions keeps its entry. -/
theorem patch_eq_of_forall (h : ∀ change ∈ changes, change.entry.path.same path = false)
    (files : Path → Option Entry) : changes.foldl Change.patch files path = files path := by
  induction changes generalizing files with
  | nil => rfl
  | cons change changes ih =>
    obtain ⟨hchange, hchanges⟩ := List.forall_mem_cons.mp h
    rw [List.foldl_cons, ih hchanges, Change.patch, hchange]
    rfl

/-- A path that one change mentions gets what this change leaves. -/
theorem patch_eq_of_mem (honce : (changes.map (·.entry.path.parts)).Nodup) {change : Change}
    (hchange : change ∈ changes) (hpath : change.entry.path.same path = true)
    (files : Path → Option Entry) : changes.foldl Change.patch files path = change.leaves? := by
  induction changes generalizing files with
  | nil => exact absurd hchange List.not_mem_nil
  | cons first rest ih =>
    rw [List.map_cons, List.nodup_cons] at honce
    rw [List.foldl_cons]
    rcases List.mem_cons.mp hchange with rfl | hrest
    · -- nothing behind the change mentions the path again
      rw [patch_eq_of_forall, Change.patch, if_pos hpath]
      intro other hother
      rw [← Bool.not_eq_true, Path.same_iff]
      intro hsame
      refine honce.1 (List.mem_map.mpr ⟨other, hother, ?_⟩)
      rw [hsame, Path.same_iff.mp hpath]
    · exact ih honce.2 hrest _

end Row

theorem Entry.same_refl (entry : Entry) : entry.same entry = true := by
  simp [Entry.same, Path.same]

namespace Index

variable {old new index : Index} {touched : Option Path} {entry : Entry} {path : Path}

/-- Paths that mean the same have the same entry. -/
theorem byPath?_congr {path' : Path} (h : path.same path' = true) :
    index.byPath? path = index.byPath? path' := by
  have hparts := Path.same_iff.mp h
  rw [byPath?, byPath?, hparts]

/-- Of several entries for a path the first one counts. -/
theorem byPath?_build (root : Path) (entries : List Entry) (directories : List Path) (path : Path) :
    (build root entries directories).byPath? path = entries.find? (·.path.same path) := by
  rw [byPath?_eq, entries_build, find?_firstPerPath]

/-! ### Each path once -/

/-- The entries of the new index that are reported, in their order. -/
theorem map_entry_filterMap_changeOf? (entries : List Entry) :
    (entries.filterMap (changeOf? old touched)).map Change.entry
      = entries.filter fun entry => old.reports touched entry := by
  rw [List.map_filterMap, ← List.filterMap_eq_filter]
  congr 1
  funext entry
  cases hreports : old.reports touched entry with
  | false => simp [changeOf?_eq_none_iff.mpr hreports, Option.guard, hreports]
  | true =>
    obtain ⟨change, hchange⟩ := exists_changeOf? hreports
    simp [hchange, entry_of_changeOf? hchange, Option.guard, hreports]

/-- **No path is mentioned twice.** -/
theorem nodup_changesFrom (new old : Index) (touched : Option Path) :
    ((new.changesFrom old touched).map (·.entry.path.parts)).Nodup := by
  have hentries : (new.changesFrom old touched).map (·.entry.path.parts)
      = (new.entries.filter fun entry => old.reports touched entry).map (·.path.parts)
        ++ (old.entries.filter fun entry => (new.byPath? entry.path).isNone).map
          (·.path.parts) := by
    rw [changesFrom, List.map_append, ← map_entry_filterMap_changeOf?, List.map_map, List.map_map]
    rfl
  rw [hentries, List.nodup_append]
  refine ⟨new.distinct.sublist (List.filter_sublist.map _),
    old.distinct.sublist (List.filter_sublist.map _), ?_⟩
  intro parts hreported parts' hremoved hparts
  obtain ⟨entry, hentry, rfl⟩ := List.mem_map.mp hreported
  obtain ⟨gone, hgone, rfl⟩ := List.mem_map.mp hremoved
  -- what is removed has no entry in the new index
  have hnone := Option.isNone_iff_eq_none.mp (List.mem_filter.mp hgone).2
  exact byPath?_eq_none_iff.mp hnone entry (List.mem_filter.mp hentry).1 hparts

/-! ### Which change there is -/

theorem changeOf?_eq_added_iff {other : Entry} :
    changeOf? old touched entry = some (.added other)
      ↔ entry = other ∧ old.byPath? entry.path = none := by
  unfold changeOf?
  cases old.byPath? entry.path with
  | none => simp
  | some previous => simp

theorem changeOf?_eq_changed_iff {other : Entry} :
    changeOf? old touched entry = some (.changed other)
      ↔ entry = other ∧ ∃ previous, old.byPath? entry.path = some previous
        ∧ (previous.same entry = false ∨ ∃ directory, touched = some directory
          ∧ entry.isIn directory = true) := by
  unfold changeOf?
  cases old.byPath? entry.path with
  | none => simp
  | some previous => cases touched <;> simp [and_comm]

/-- **What is added** is only in the new index. -/
theorem added_iff (touched : Option Path) :
    (.added entry ∈ new.changesFrom old touched ∧ entry.path.same path = true)
      ↔ old.byPath? path = none ∧ new.byPath? path = some entry := by
  rw [byPath?_eq_some_iff, mem_changesFrom]
  simp only [changeOf?_eq_added_iff, reduceCtorEq, and_false, exists_false, or_false]
  constructor
  · rintro ⟨⟨_, hentry, rfl, hnone⟩, hpath⟩
    exact ⟨by rw [← byPath?_congr hpath, hnone], hentry, hpath⟩
  · rintro ⟨hnone, hentry, hpath⟩
    exact ⟨⟨entry, hentry, rfl, by rw [byPath?_congr hpath, hnone]⟩, hpath⟩

/-- **What is removed** is only in the old index. -/
theorem removed_iff (touched : Option Path) :
    (.removed entry ∈ new.changesFrom old touched ∧ entry.path.same path = true)
      ↔ old.byPath? path = some entry ∧ new.byPath? path = none := by
  have hnot : ∀ other, changeOf? old touched other ≠ some (.removed entry) := by
    intro other hchange
    rcases of_changeOf?_eq_some hchange with h | h <;> cases h
  rw [byPath?_eq_some_iff, mem_changesFrom]
  simp only [hnot, and_false, exists_false, false_or, Change.removed.injEq]
  constructor
  · rintro ⟨⟨_, hentry, hnone, rfl⟩, hpath⟩
    exact ⟨⟨hentry, hpath⟩, by rw [← byPath?_congr hpath, hnone]⟩
  · rintro ⟨⟨hentry, hpath⟩, hnone⟩
    exact ⟨⟨entry, hentry, by rw [byPath?_congr hpath, hnone], rfl⟩, hpath⟩

/-- **What is changed** is in both, with different entries or directly in the touched directory. -/
theorem changed_iff (touched : Option Path) :
    (.changed entry ∈ new.changesFrom old touched ∧ entry.path.same path = true)
      ↔ new.byPath? path = some entry ∧ ∃ previous, old.byPath? path = some previous
        ∧ (previous.same entry = false
          ∨ ∃ directory, touched = some directory ∧ entry.isIn directory = true) := by
  rw [byPath?_eq_some_iff, mem_changesFrom]
  simp only [changeOf?_eq_changed_iff, reduceCtorEq, and_false, exists_false, or_false]
  constructor
  · rintro ⟨⟨_, hentry, rfl, previous, hprevious, hwhy⟩, hpath⟩
    exact ⟨⟨hentry, hpath⟩, previous, by rw [← byPath?_congr hpath, hprevious], hwhy⟩
  · rintro ⟨⟨hentry, hpath⟩, previous, hprevious, hwhy⟩
    exact ⟨⟨entry, hentry, rfl, previous, by rw [byPath?_congr hpath, hprevious], hwhy⟩, hpath⟩

/-! ### Following the changes -/

/-- A path that is mentioned is missing from one index, or has different entries, or an entry
    directly in the touched directory. -/
theorem not_mentioned
    (h : (old.byPath? path = none ∧ new.byPath? path = none)
      ∨ ∃ previous entry, old.byPath? path = some previous ∧ new.byPath? path = some entry
        ∧ previous.same entry = true
        ∧ ¬ ∃ directory, touched = some directory ∧ entry.isIn directory = true) :
    ∀ change ∈ new.changesFrom old touched, change.entry.path.same path = false := by
  intro change hchange
  rw [← Bool.not_eq_true]
  intro hpath
  cases change with
  | added entry =>
    obtain ⟨hnone, hsome⟩ := (added_iff touched).mp ⟨hchange, hpath⟩
    rcases h with ⟨-, h⟩ | ⟨previous, _, h, -⟩
    · cases hsome.symm.trans h
    · cases hnone.symm.trans h
  | changed entry =>
    obtain ⟨hsome, previous, hprevious, hwhy⟩ := (changed_iff touched).mp ⟨hchange, hpath⟩
    rcases h with ⟨-, h⟩ | ⟨previous', entry', hprevious', hentry', hsame, hnot⟩
    · cases hsome.symm.trans h
    · cases hsome.symm.trans hentry'
      cases hprevious.symm.trans hprevious'
      rcases hwhy with hdiffers | htouched
      · cases hdiffers.symm.trans hsame
      · exact hnot htouched
  | removed entry =>
    obtain ⟨hsome, hnone⟩ := (removed_iff touched).mp ⟨hchange, hpath⟩
    rcases h with ⟨h, -⟩ | ⟨_, entry', -, h, -⟩
    · cases hsome.symm.trans h
    · cases hnone.symm.trans h

/-- Whoever follows the changes gets the entries of the new index. -/
theorem patch_changesFrom (new old : Index) (touched : Option Path) (path : Path) :
    Option.Rel (fun a b : Entry => a.same b = true)
      ((new.changesFrom old touched).foldl Change.patch old.byPath? path)
      (new.byPath? path) := by
  have honce := nodup_changesFrom new old touched
  cases hentry : new.byPath? path with
  | none =>
    cases hprevious : old.byPath? path with
    | none =>
      rw [patch_eq_of_forall (not_mentioned (.inl ⟨hprevious, hentry⟩)), hprevious]
      exact .none
    | some previous =>
      obtain ⟨hchange, hpath⟩ := (removed_iff touched).mpr ⟨hprevious, hentry⟩
      rw [patch_eq_of_mem honce hchange hpath]
      exact .none
  | some entry =>
    cases hprevious : old.byPath? path with
    | none =>
      obtain ⟨hchange, hpath⟩ := (added_iff touched).mpr ⟨hprevious, hentry⟩
      rw [patch_eq_of_mem honce hchange hpath]
      exact .some entry.same_refl
    | some previous =>
      by_cases hwhy : previous.same entry = false
          ∨ ∃ directory, touched = some directory ∧ entry.isIn directory = true
      · obtain ⟨hchange, hpath⟩ :=
          (changed_iff touched).mpr ⟨hentry, previous, hprevious, hwhy⟩
        rw [patch_eq_of_mem honce hchange hpath]
        exact .some entry.same_refl
      · -- nothing is reported, and the entry is still right
        obtain ⟨hsame, htouched⟩ := not_or.mp hwhy
        rw [Bool.not_eq_false] at hsame
        rw [patch_eq_of_forall (not_mentioned
          (.inr ⟨previous, entry, hprevious, hentry, hsame, htouched⟩)), hprevious]
        exact .some hsame

/-- **Changes are a complete patch.**  Let two indexes be built from any entries, where of several
    entries for a path the first one counts, and let a directory be touched or none.  Then each path
    is mentioned at most once; a path is added exactly if only the new index has it, removed exactly
    if only the old one has it, and changed exactly if both have it and its entries differ or it
    lies directly in the touched directory; a removal tells the entry of the old index, every other
    change that of the new one; and whoever follows the changes ends up with the new index.  Paths
    are the same when they mean the same, and entries when they give the same names to the same
    path. -/
theorem changes_patch_index (root root' : Path) (entries entries' : List Entry)
    (directories directories' : List Path) (touched : Option Path) :
    let old := build root entries directories
    let new := build root' entries' directories'
    let changes := new.changesFrom old touched
    (∀ path, old.byPath? path = entries.find? (·.path.same path)
        ∧ new.byPath? path = entries'.find? (·.path.same path))
      ∧ (changes.map (·.entry.path.parts)).Nodup
      ∧ (∀ path entry, (.added entry ∈ changes ∧ entry.path.same path = true)
        ↔ old.byPath? path = none ∧ new.byPath? path = some entry)
      ∧ (∀ path entry, (.removed entry ∈ changes ∧ entry.path.same path = true)
        ↔ old.byPath? path = some entry ∧ new.byPath? path = none)
      ∧ (∀ path entry, (.changed entry ∈ changes ∧ entry.path.same path = true)
        ↔ new.byPath? path = some entry ∧ ∃ previous, old.byPath? path = some previous
          ∧ (previous.same entry = false
            ∨ ∃ directory, touched = some directory ∧ entry.isIn directory = true))
      ∧ ∀ path, Option.Rel (fun a b : Entry => a.same b = true)
          (changes.foldl Change.patch old.byPath? path) (new.byPath? path) := by
  intro old new changes
  exact ⟨fun path => ⟨byPath?_build root entries directories path,
      byPath?_build root' entries' directories' path⟩,
    nodup_changesFrom new old touched, fun path entry => added_iff touched,
    fun path entry => removed_iff touched, fun path entry => changed_iff touched,
    patch_changesFrom new old touched⟩

end Index

end ScriptServer.Library

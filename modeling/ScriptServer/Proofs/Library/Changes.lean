import ScriptServer.Library.Scan
import ScriptServer.Proofs.Library.Register
import ScriptServer.Proofs.Uri.FilePath

namespace ScriptServer.Library

/-!
# What is reported about two indexes

* `Index.Distinct` — an index has one entry for a path.
* `Index.has` — the old index gives a file the same names.
* `Index.mem_changesFrom` — what is reported: entries of the new index that the old one has not or
  that lie in the touched directory, and entries of the old index whose files the new one lacks.
* `Scanned.Tells` — a scan and a rescan report all this.
-/

namespace Index

/-- Whether an index has at most one entry for a path. -/
def Distinct (index : Index) : Prop := (index.entries.map (·.path.parts)).Nodup

theorem distinct (index : Index) : index.Distinct := index.sound.distinct

variable {index : Index} {entry : Entry}

/-! ### Reports -/

/-- Whether an index has an entry with the same names for the same file. -/
def has (index : Index) (entry : Entry) : Bool :=
  (index.byPath? entry.path).any (·.same entry)

/-- Whether an entry of a new index is reported: the old one has it not, or it lies directly in the
    touched directory. -/
def reports (old : Index) (touched : Option Path) (entry : Entry) : Bool :=
  !old.has entry || touched.any entry.isIn

variable {old new : Index} {touched : Option Path} {change : Change}

theorem changeOf?_eq_none_iff :
    changeOf? old touched entry = none ↔ old.reports touched entry = false := by
  unfold changeOf? reports has
  cases old.byPath? entry.path with
  | none => simp
  | some previous =>
    simp only [Option.any_some, ite_eq_right_iff, reduceCtorEq, imp_false, Bool.not_eq_true]

theorem exists_changeOf? (h : old.reports touched entry = true) :
    ∃ change, changeOf? old touched entry = some change := by
  rw [← Option.ne_none_iff_exists', ne_eq, changeOf?_eq_none_iff, h]
  exact Bool.true_eq_false.mp

theorem of_changeOf?_eq_some (h : changeOf? old touched entry = some change) :
    change = .added entry ∨ change = .changed entry := by
  unfold changeOf? at h
  split at h
  · exact .inl (Option.some.inj h).symm
  · split at h
    · exact .inr (Option.some.inj h).symm
    · cases h

theorem entry_of_changeOf? (h : changeOf? old touched entry = some change) :
    change.entry = entry := by
  rcases of_changeOf?_eq_some h with rfl | rfl
  · rfl
  · rfl

theorem mem_changesFrom :
    change ∈ new.changesFrom old touched
      ↔ (∃ entry ∈ new.entries, changeOf? old touched entry = some change)
        ∨ ∃ entry ∈ old.entries, new.byPath? entry.path = none ∧ change = .removed entry := by
  unfold changesFrom
  rw [List.mem_append, List.mem_filterMap, List.mem_map]
  simp only [List.mem_filter, Option.isNone_iff_eq_none, and_assoc, @eq_comm _ _ change]

end Index

/-- Whether a scan reports how its index differs from an old one. -/
structure Scanned.Tells (scanned : Scanned) (old : Index) (touched : Option Path) : Prop where
  changes_eq : scanned.changes = scanned.index.changesFrom old touched

namespace Index

variable {old : Index} {disk : Disk} {layout : Layout} {root directory : Path}

theorem tells_scan {scanned : Scanned} (h : old.scan disk layout root = .ok scanned) :
    scanned.Tells old none := by
  unfold scan at h
  split at h
  · cases h
    exact ⟨rfl⟩
  · cases h

theorem tells_rescan (hroot : old.root = some root) (hunder : directory.isUnder root = true) :
    (old.rescan disk layout directory).Tells old (some directory) := by
  have hrelist : old.rescan disk layout directory = old.relist disk layout root directory := by
    simp only [rescan, hroot, hunder, if_true]
  rw [hrelist]
  exact ⟨rfl⟩

end Index

end ScriptServer.Library

import Mathlib.Data.List.Nodup
import ScriptServer.Library.Index
import ScriptServer.Proofs.Path

namespace ScriptServer.Library

/-!
# Tables and entries

Look-up in an index goes through tables of places.  They grow together with the entries, and never
drift from them: what a table leads to is what a search through all entries finds.

* `Tabulates` — a table has the places of the entries for each key, all and in order.
* `Register.Sound` — all tables of a register belong to its entries.
* `Register.Sound.add`, `Register.sound_ofEntries` — one entry more keeps a register sound, so that
  every register is.
* `Index.byPath?_eq`, `Index.find_eq`, `Index.inDirectory_eq` — look-up is a search.
* `firstPerPath`, `Register.entries_ofEntries` — which entries are kept.
* `Index.lookups_agree_with_search` — all this of the index of any entries.
-/

/-! ### Places -/

/-- The members at the places of those that pass a test are those that pass it. -/
theorem filterMap_findIdxs {α : Type} (p : α → Bool) (members : List α) :
    (members.findIdxs p).filterMap (members[·]?) = members.filter p := by
  induction members with
  | nil => rfl
  | cons first rest ih =>
    have hlater : (rest.findIdxs p 1).filterMap ((first :: rest)[·]?) = rest.filter p := by
      rw [List.findIdxs_start, List.filterMap_map]
      simpa [Function.comp_def] using ih
    rw [List.findIdxs_cons, List.filter_cons]
    split
    · simp [hlater]
    · exact hlater

/-- Whether the directory around a file has these parts. -/
def Entry.liesIn (entry : Entry) (parts : List Part) : Bool :=
  entry.path.parent?.any (·.parts = parts)

theorem Entry.isIn_eq (entry : Entry) (directory : Path) :
    entry.isIn directory = entry.liesIn directory.parts := by
  unfold Entry.isIn Entry.liesIn
  cases entry.path.parent? with
  | none => rfl
  | some parent => rfl

/-! ### Tables of places -/

/-- Whether a table has the places of the entries that pass the test of a key, all of them and in
    order.  Where there are none, it may have the key or not. -/
def Tabulates {κ : Type} [DecidableEq κ] (store : Store κ (List Nat)) (test : κ → Entry → Bool)
    (entries : List Entry) : Prop :=
  ∀ key, (store.get? key).getD [] = entries.findIdxs (test key)

section Tabulates

variable {κ : Type} [DecidableEq κ] {store : Store κ (List Nat)} {test : κ → Entry → Bool}
  {entries : List Entry} {entry : Entry} {key : κ}

/-- An entry more and its place for the one key whose test it passes. -/
theorem Tabulates.push (h : Tabulates store test entries)
    (hkey : ∀ other, test other entry = true ↔ other = key) :
    Tabulates (store.push key entries.length) test (entries ++ [entry]) := by
  intro other
  rw [Store.getD_get?_push, List.findIdxs_append, List.findIdxs_singleton, Nat.zero_add]
  by_cases heq : other = key
  · rw [if_pos heq, if_pos ((hkey other).mpr heq), h, heq]
  · rw [if_neg heq, if_neg fun htest => heq ((hkey other).mp htest), h, List.append_nil]

/-- An entry more that passes no test. -/
theorem Tabulates.append (h : Tabulates store test entries)
    (hkey : ∀ other, test other entry = false) : Tabulates store test (entries ++ [entry]) := by
  intro other
  rw [h, List.findIdxs_append, List.findIdxs_singleton, hkey]
  exact (List.append_nil _).symm

/-- All places are places of entries. -/
theorem Tabulates.lt (h : Tabulates store test entries) {places : List Nat}
    (hplaces : store.get? key = some places) : ∀ place ∈ places, place < entries.length := by
  intro place hplace
  have hkey := h key
  rw [hplaces, Option.getD_some] at hkey
  rw [hkey] at hplace
  exact List.lt_add_of_mem_findIdxs place hplace

end Tabulates

/-! ### Sound registers -/

/-- The paths of the entries are distinct, and the tables belong to the entries. -/
structure Register.Sound (register : Register) : Prop where
  distinct : (register.entries.map (·.path.parts)).Nodup
  byPath : ∀ parts, register.byPath.get? parts
    = register.entries.findIdx? (·.path.parts = parts)
  byName : Tabulates register.byName (fun name entry => entry.name == name) register.entries
  byDirectory : Tabulates register.byDirectory (fun parts entry => entry.liesIn parts)
    register.entries

namespace Register

variable {register : Register}

theorem sound_empty : empty.Sound where
  distinct := .nil
  byPath _ := rfl
  byName _ := rfl
  byDirectory _ := rfl

theorem Sound.contains_eq (h : register.Sound) (path : Path) :
    register.byPath.contains path.parts = register.entries.any (·.path.same path) := by
  rw [Store.contains, h.byPath, List.findIdx?_isSome]
  rfl

/-- **One entry more keeps a register sound.** -/
theorem Sound.add (h : register.Sound) (entry : Entry) : (register.add entry).Sound := by
  by_cases hknown : register.byPath.contains entry.path.parts = true
  · rw [Register.add, if_pos hknown]
    exact h
  · have hnew : ∀ other ∈ register.entries, other.path.parts ≠ entry.path.parts := by
      rw [h.contains_eq, List.any_eq_true] at hknown
      exact fun other hother hparts => hknown ⟨other, hother, Path.same_iff.mpr hparts⟩
    rw [Register.add, if_neg hknown]
    refine ⟨?_, fun parts => ?_, ?_, ?_⟩
    · rw [List.map_append, List.nodup_append]
      refine ⟨h.distinct, List.nodup_singleton _, ?_⟩
      simpa using hnew
    · rw [Store.get?_insert, List.findIdx?_append, ← h.byPath]
      by_cases heq : parts = entry.path.parts
      · -- no earlier entry has the path, so the search ends at the new one
        have hnone : register.byPath.get? parts = none := by
          rw [h.byPath, List.findIdx?_eq_none_iff]
          intro other hother
          rw [heq]
          exact decide_eq_false (hnew other hother)
        simp [heq ▸ hnone, heq]
      · simp [heq, Ne.symm heq]
    · exact h.byName.push fun name => beq_iff_eq.trans eq_comm
    · cases hparent : entry.path.parent? with
      | some parent =>
        refine h.byDirectory.push fun parts => ?_
        simp [Entry.liesIn, hparent, eq_comm]
      | none =>
        -- a file without a directory around it gets no place in this table
        refine h.byDirectory.append fun parts => ?_
        simp [Entry.liesIn, hparent]

/-- The place of a path is the place of an entry. -/
theorem Sound.lt (h : register.Sound) {parts : List Part} {place : Nat}
    (hplace : register.byPath.get? parts = some place) : place < register.entries.length := by
  rw [h.byPath, List.findIdx?_eq_some_iff_getElem] at hplace
  exact hplace.1

/-- **Every register is sound.** -/
theorem sound_ofEntries (entries : List Entry) : (ofEntries entries).Sound := by
  suffices hfold : ∀ register : Register, register.Sound →
      (entries.foldl Register.add register).Sound from hfold empty sound_empty
  induction entries with
  | nil => exact fun _ h => h
  | cons entry rest ih => exact fun register h => ih (register.add entry) (h.add entry)

end Register

/-! ### Which entries are kept -/

/-- The entries without those for a path that an earlier entry has. -/
def firstPerPath : List Entry → List Entry
  | [] => []
  | entry :: rest =>
    entry :: (firstPerPath rest).filter fun later => !later.path.same entry.path

theorem mem_of_mem_firstPerPath {entry : Entry} {entries : List Entry}
    (h : entry ∈ firstPerPath entries) : entry ∈ entries := by
  induction entries with
  | nil => exact h
  | cons first rest ih =>
    rw [firstPerPath, List.mem_cons, List.mem_filter] at h
    rcases h with rfl | ⟨hrest, -⟩
    · exact List.mem_cons_self
    · exact List.mem_cons_of_mem first (ih hrest)

theorem firstPerPath_append (a b : List Entry) :
    firstPerPath (a ++ b) = firstPerPath a
      ++ (firstPerPath b).filter fun later => !a.any fun entry => later.path.same entry.path := by
  induction a with
  | nil => simp [firstPerPath]
  | cons entry a ih =>
    rw [List.cons_append, firstPerPath, ih, List.filter_append, List.filter_filter, firstPerPath,
      List.cons_append]
    simp only [List.any_cons, Bool.not_or]

theorem find?_firstPerPath (entries : List Entry) (path : Path) :
    (firstPerPath entries).find? (·.path.same path) = entries.find? (·.path.same path) := by
  induction entries with
  | nil => rfl
  | cons first rest ih =>
    rw [firstPerPath, List.find?_cons, List.find?_cons]
    cases hfirst : first.path.same path with
    | true => rfl
    | false =>
      -- the entries that are dropped are for the path of the first one, which is another
      have hkept : (fun later : Entry =>
          decide ((!later.path.same first.path) = true ∧ later.path.same path = true))
          = (·.path.same path) := by
        funext later
        by_cases hlater : later.path.same path = true
        · have hother : later.path.same first.path = false := by
            rw [← Bool.not_eq_true, Path.same_iff] at hfirst ⊢
            exact fun hsame => hfirst (hsame.symm.trans (Path.same_iff.mp hlater))
          simp [hlater, hother]
        · simp [hlater]
      rw [List.find?_filter, hkept]
      exact ih

theorem any_firstPerPath (entries : List Entry) (path : Path) :
    (firstPerPath entries).any (·.path.same path) = entries.any (·.path.same path) := by
  rw [Bool.eq_iff_iff, List.any_eq_true, List.any_eq_true, ← List.find?_isSome, find?_firstPerPath,
    List.find?_isSome]

/-- One entry more is kept unless its path has one. -/
theorem firstPerPath_concat (entries : List Entry) (entry : Entry) :
    firstPerPath (entries ++ [entry])
      = if entries.any (·.path.same entry.path) then firstPerPath entries
        else firstPerPath entries ++ [entry] := by
  have hsame : (entries.any fun other => entry.path.same other.path)
      = entries.any (·.path.same entry.path) := by
    simp only [Path.same, eq_comm]
  rw [firstPerPath_append, firstPerPath, firstPerPath, List.filter_nil, List.filter_singleton,
    hsame]
  cases entries.any (·.path.same entry.path) with
  | true => simp
  | false => simp

/-- A register keeps the first entry for each path. -/
theorem Register.entries_ofEntries (entries : List Entry) :
    (ofEntries entries).entries = firstPerPath entries := by
  induction entries using List.reverseRecOn with
  | nil => rfl
  | append_singleton before entry ih =>
    have hstep : ofEntries (before ++ [entry]) = (ofEntries before).add entry := by
      rw [ofEntries, List.foldl_append]
      rfl
    rw [hstep, Register.add, (sound_ofEntries before).contains_eq, ih, any_firstPerPath,
      firstPerPath_concat]
    split
    · exact ih
    · rfl

/-- The kept entries are those in front of which no entry has their path. -/
theorem firstPerPath_eq (entries : List Entry) :
    firstPerPath entries = (entries.zipIdx.filter fun found =>
      !(entries.take found.2).any (·.path.same found.1.path)).map (·.1) := by
  induction entries using List.reverseRecOn with
  | nil => rfl
  | append_singleton before entry ih =>
    have hbefore : (before.zipIdx.filter fun found =>
        !((before ++ [entry]).take found.2).any (·.path.same found.1.path))
        = before.zipIdx.filter fun found =>
          !(before.take found.2).any (·.path.same found.1.path) := by
      refine List.filter_congr fun found hfound => ?_
      have hplace : found.2 ≤ before.length := Nat.le_of_lt (List.snd_lt_of_mem_zipIdx hfound)
      rw [List.take_append_of_le_length hplace]
    rw [firstPerPath_concat, List.zipIdx_append, List.filter_append, List.map_append, hbefore, ← ih]
    cases hany : before.any (·.path.same entry.path) with
    | true => simp [hany]
    | false => simp [hany]

namespace Index

variable (index : Index)

theorem sound : index.toRegister.Sound := by
  obtain ⟨found, hfound⟩ := index.entered
  rw [hfound]
  exact Register.sound_ofEntries found

/-- Look-up by path finds what a search does. -/
theorem byPath?_eq (path : Path) : index.byPath? path = index.entries.find? (·.path.same path) := by
  rw [byPath?, index.sound.byPath]
  exact List.find?_eq_bind_findIdx?_getElem?.symm

/-- Look-up by name finds what a search does. -/
theorem find_eq (name : String) : index.find name = index.entries.filter (·.name == name) := by
  rw [find, index.sound.byName]
  exact filterMap_findIdxs _ index.entries

/-- Look-up by directory finds what a search does. -/
theorem inDirectory_eq (directory : Path) :
    index.inDirectory directory = index.entries.filter (·.isIn directory) := by
  rw [inDirectory, index.sound.byDirectory,
    List.filter_congr fun entry _ => entry.isIn_eq directory]
  exact filterMap_findIdxs _ index.entries

/-- No two entries have the same path. -/
theorem eq_of_parts_eq {index : Index} {entry other : Entry} (hentry : entry ∈ index.entries)
    (hother : other ∈ index.entries) (hparts : entry.path.parts = other.path.parts) :
    entry = other :=
  List.inj_on_of_nodup_map index.sound.distinct hentry hother hparts

theorem byPath?_eq_none_iff {index : Index} {path : Path} :
    index.byPath? path = none ↔ ∀ entry ∈ index.entries, entry.path.parts ≠ path.parts := by
  simp only [byPath?_eq, List.find?_eq_none, Path.same_iff, ne_eq]

/-- Look-up by path finds the one entry that there is. -/
theorem byPath?_eq_some_iff {index : Index} {path : Path} {entry : Entry} :
    index.byPath? path = some entry ↔ entry ∈ index.entries ∧ entry.path.same path = true := by
  constructor
  · intro hfind
    rw [byPath?_eq] at hfind
    exact ⟨List.mem_of_find?_eq_some hfind, by simpa using List.find?_some hfind⟩
  · rintro ⟨hentry, hpath⟩
    cases hfind : index.byPath? path with
    | none => exact absurd (Path.same_iff.mp hpath) (byPath?_eq_none_iff.mp hfind entry hentry)
    | some other =>
      rw [byPath?_eq] at hfind
      have hother : other ∈ index.entries := List.mem_of_find?_eq_some hfind
      have hsame : other.path.same path = true := by simpa using List.find?_some hfind
      rw [Path.same_iff] at hpath hsame
      rw [eq_of_parts_eq hother hentry (hsame.trans hpath.symm)]

theorem entries_build (root : Path) (entries : List Entry) (directories : List Path) :
    (build root entries directories).entries = firstPerPath entries :=
  Register.entries_ofEntries entries

theorem mem_of_mem_build {root : Path} {entries : List Entry} {directories : List Path}
    {entry : Entry} (h : entry ∈ (build root entries directories).entries) : entry ∈ entries := by
  rw [entries_build] at h
  exact mem_of_mem_firstPerPath h

/-- **Look-up agrees with search.**  The index of any entries, in which paths and names may repeat,
    keeps those in front of which no entry has their path, in the order of the list.  Look-up by
    path finds what a search does, which is the one entry that there is; look-up by name finds all
    entries with the name, and look-up by directory all directly in it, both in the order of the
    index.  All places in the tables are places of entries, so that none is passed over. -/
theorem lookups_agree_with_search (root : Path) (entries : List Entry) (directories : List Path) :
    let index := build root entries directories
    index.entries = (entries.zipIdx.filter fun found =>
        !(entries.take found.2).any (·.path.same found.1.path)).map (·.1)
      ∧ (index.entries.map (·.path.parts)).Nodup
      ∧ (∀ path, index.byPath? path = index.entries.find? (·.path.same path)
        ∧ ∀ entry, index.byPath? path = some entry
          ↔ entry ∈ index.entries ∧ entry.path.same path = true)
      ∧ (∀ name, index.find name = index.entries.filter (·.name == name))
      ∧ (∀ directory, index.inDirectory directory = index.entries.filter (·.isIn directory))
      ∧ (∀ parts place, index.byPath.get? parts = some place → place < index.entries.length)
      ∧ (∀ name places, index.byName.get? name = some places →
        ∀ place ∈ places, place < index.entries.length)
      ∧ ∀ parts places, index.byDirectory.get? parts = some places →
        ∀ place ∈ places, place < index.entries.length := by
  intro index
  have hsound := index.sound
  refine ⟨?_, hsound.distinct, fun path => ⟨index.byPath?_eq path, fun entry => ?_⟩, index.find_eq,
    index.inDirectory_eq, fun parts place => hsound.lt, fun name places => hsound.byName.lt,
    fun parts places => hsound.byDirectory.lt⟩
  · rw [entries_build, firstPerPath_eq]
  · exact byPath?_eq_some_iff

end Index

end ScriptServer.Library

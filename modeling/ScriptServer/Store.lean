namespace ScriptServer

/-!
# Values by key

* `Store` — a finite map.
* `Store.get?`, `Store.insert`, `Store.erase` — look-up and change, with one law each.
* `Store.push` — a further value for a key that has several.
-/

/-- Values by key; each key has at most one. -/
structure Store (κ α : Type) where
  entries : List (κ × α)
  distinct : (entries.map (·.1)).Nodup
  deriving DecidableEq, Repr

namespace Store

variable {κ α : Type} [DecidableEq κ]

/-- A store without values. -/
def empty : Store κ α := ⟨[], List.nodup_nil⟩

/-- The value of a key. -/
def get? (store : Store κ α) (key : κ) : Option α :=
  (store.entries.find? fun entry => entry.1 = key).map (·.2)

/-- The store without a key. -/
def erase (store : Store κ α) (key : κ) : Store κ α where
  entries := store.entries.filter fun entry => entry.1 ≠ key
  distinct := store.distinct.sublist (List.filter_sublist.map _)

/-- The store with a value for a key, in place of the one before. -/
def insert (store : Store κ α) (key : κ) (value : α) : Store κ α where
  entries := (store.erase key).entries ++ [(key, value)]
  distinct := by
    rw [List.map_append, List.nodup_append]
    refine ⟨(store.erase key).distinct, by simp, ?_⟩
    simp [erase]

/-- The store with a further value for a key, behind those it has. -/
def push (store : Store κ (List α)) (key : κ) (value : α) : Store κ (List α) :=
  store.insert key ((store.get? key).getD [] ++ [value])

/-- Whether a key has a value. -/
def contains (store : Store κ α) (key : κ) : Bool := (store.get? key).isSome

/-- The keys that have a value. -/
def keys (store : Store κ α) : List κ := store.entries.map (·.1)

@[simp] theorem get?_empty (key : κ) : (empty : Store κ α).get? key = none := rfl

@[simp] theorem get?_erase (store : Store κ α) (key other : κ) :
    (store.erase key).get? other = if other = key then none else store.get? other := by
  unfold get? erase
  rw [List.find?_filter]
  split
  next h =>
    subst h
    simp only [Option.map_eq_none_iff, List.find?_eq_none]
    intro entry _
    simp
  next h =>
    congr 2
    funext entry
    by_cases he : entry.1 = other <;> simp [he, h]

@[simp] theorem get?_insert (store : Store κ α) (key other : κ) (value : α) :
    (store.insert key value).get? other = if other = key then some value else store.get? other := by
  have herase := get?_erase store key other
  unfold get? at herase
  unfold insert get?
  rw [List.find?_append]
  split
  next h =>
    subst h
    simp only [↓reduceIte, Option.map_eq_none_iff] at herase
    simp [herase]
  next h =>
    rw [if_neg h] at herase
    have hne : ¬ key = other := fun he => h he.symm
    simp [hne, herase]

theorem getD_get?_push (store : Store κ (List α)) (key other : κ) (value : α) :
    ((store.push key value).get? other).getD []
      = if other = key then (store.get? key).getD [] ++ [value]
        else (store.get? other).getD [] := by
  rw [push, get?_insert]
  split <;> rfl

/-- The keys are those that have a value. -/
theorem mem_keys {store : Store κ α} {key : κ} :
    key ∈ store.keys ↔ (store.get? key).isSome := by
  simp [keys, get?]

/-- A store is searched by key, so an entry is what its key has. -/
theorem mem_entries {store : Store κ α} {key : κ} {value : α} :
    (key, value) ∈ store.entries ↔ store.get? key = some value := by
  obtain ⟨entries, hdistinct⟩ := store
  unfold get?
  induction entries with
  | nil => simp
  | cons entry rest ih =>
    rw [List.map_cons, List.nodup_cons] at hdistinct
    obtain ⟨hnotin, hrest⟩ := hdistinct
    by_cases h : entry.1 = key
    · subst h
      have hno : (entry.1, value) ∉ rest := fun hmem => hnotin (List.mem_map.mpr ⟨_, hmem, rfl⟩)
      simp only [List.mem_cons, hno, or_false, List.find?_cons, decide_true, Option.map_some,
        Option.some.injEq, Prod.ext_iff, true_and]
      exact eq_comm
    · have hne : (key, value) ≠ entry := fun he => h (by rw [← he])
      simp only [List.mem_cons, hne, false_or, List.find?_cons, h, decide_false]
      exact ih hrest

end Store

end ScriptServer

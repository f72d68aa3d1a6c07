import Mathlib.Data.List.Basic
import ScriptServer.Proofs.Declaration
import ScriptServer.Sql.Clause

namespace ScriptServer

/-!
# What a clause is read from

* `Sql.exists_suffix_of_search` — what a search finds is read at some place in the text.
* `Sql.exists_blank_of_afterPhrase?` — what follows a phrase is set off by a blank.
* `Clause.ReadFrom` — the ways in which a clause comes about, with what was read for it.
* `Clause.classify?_cases` — every clause comes about in one of them.
-/

open Text

namespace Sql

/-! ### Reading at the beginning of a word -/

/-- What is read is read at some place in the text. -/
theorem exists_suffix_of_search {α : Type} {read : Line → Option α} {text : Line} {result : α}
    (h : search read text = some result) : ∃ rest, rest <:+ text ∧ read rest = some result := by
  have hany : ∀ previous, atWordStarts read previous text = some result →
      ∃ rest, rest <:+ text ∧ read rest = some result := by
    clear h
    induction text with
    | nil => exact fun previous h => nomatch h
    | cons c text ih =>
      intro previous h
      rw [atWordStarts] at h
      split at h
      next found hfound =>
        cases h
        split at hfound
        · cases hfound
        · exact ⟨c :: text, List.suffix_rfl, hfound⟩
      next =>
        obtain ⟨rest, hrest, hread⟩ := ih _ h
        exact ⟨rest, hrest.trans (List.suffix_cons c text), hread⟩
  exact hany none h

theorem suffix_of_readKeyword? {keyword text rest : Line}
    (h : readKeyword? keyword text = some rest) : rest <:+ text := by
  induction keyword generalizing text with
  | nil =>
    cases h
    exact List.suffix_rfl
  | cons letter keyword ih =>
    cases text with
    | nil => cases h
    | cons c text =>
      rw [readKeyword?] at h
      split at h
      · exact (ih h).trans (List.suffix_cons c text)
      · cases h

theorem suffix_of_skipBlanks? {text rest : Line} (h : skipBlanks? text = some rest) :
    rest <:+ text := ⟨_, (skipBlanks?_eq_some h).symm⟩

theorem suffix_of_readPhrase? {phrase : List Line} {text rest : Line}
    (h : readPhrase? phrase text = some rest) : rest <:+ text := by
  fun_induction readPhrase? phrase text with
  | case1 text =>
    cases h
    exact List.suffix_rfl
  | case2 keyword text => exact suffix_of_readKeyword? h
  | case3 keyword phrase text _ ih =>
    simp only [Option.bind_eq_bind, Option.bind_eq_some_iff] at h
    obtain ⟨first, hkeyword, second, hblanks, hphrase⟩ := h
    exact (ih _ hphrase).trans
      ((suffix_of_skipBlanks? hblanks).trans (suffix_of_readKeyword? hkeyword))

/-- A phrase and the blanks behind it: what follows is set off by a blank. -/
theorem exists_blank_of_afterPhrase? {phrase : List Line} {text rest : Line}
    (h : afterPhrase? phrase text = some rest) :
    ∃ gap, isBlank gap = true ∧ gap :: rest <:+ text := by
  simp only [afterPhrase?, Option.bind_eq_bind, Option.bind_eq_some_iff] at h
  obtain ⟨behind, hphrase, hblanks⟩ := h
  -- the last of the blanks that are skipped
  obtain ⟨front, gap, hlast⟩ := (List.eq_nil_or_concat' _).resolve_left
    (takeWhile_ne_nil_of_skipBlanks? hblanks)
  have hgap : isBlank gap = true := by
    have hblank := isBlankLine_takeWhile behind
    rw [hlast, isBlankLine, List.all_append, Bool.and_eq_true] at hblank
    simpa using hblank.2
  refine ⟨gap, hgap, List.IsSuffix.trans ⟨front, ?_⟩ (suffix_of_readPhrase? hphrase)⟩
  rw [skipBlanks?_eq_some hblanks]
  conv_rhs => rw [hlast]
  simp

end Sql

/-! ### How clauses come about -/

namespace Clause

open Sql

/-- The ways in which a clause comes about, from the texts before the cursor and after it. -/
inductive ReadFrom (before after : Line) : Clause → Prop where
  | loadDatabase : ReadFrom before after .loadDatabase
  | loadTable {database : Line} (h : search openTable? before = some database) :
      ReadFrom before after (.loadTable (String.ofList database))
  | target {path : Line} {creating : Bool}
      (h : search changeTarget? before = some (path, creating)) :
      ReadFrom before after (.target (completeSegments path) creating)
  | source {path : Line} (h : search (pathAfter? [fromWord]) before = some path) :
      ReadFrom before after (.source (completeSegments path))
  | orderBy {table : TableHandle} (h : fromTarget? before = some table) :
      ReadFrom before after (.orderBy table)
  | filter {table : TableHandle} (h : fromTarget? before = some table) :
      ReadFrom before after (.columns table)
  /-- The table of a select list stands behind the cursor. -/
  | select {table : TableHandle} (h : fromTarget? after = some table) :
      ReadFrom before after (.columns table)

theorem ofSelect?_cases {before after : Line} {clause : Clause}
    (h : ofSelect? before after = some clause) : ReadFrom before after clause := by
  simp only [ofSelect?, Option.bind_eq_bind, Option.bind_eq_some_iff] at h
  obtain ⟨list, -, h⟩ := h
  split at h
  · cases h
  · obtain ⟨table, htable, rfl⟩ := Option.map_eq_some_iff.mp h
    exact .select htable

theorem ofColumns?_cases {before after : Line} {clause : Clause}
    (h : ofColumns? before after = some clause) : ReadFrom before after clause := by
  rw [ofColumns?] at h
  split at h
  · obtain ⟨table, htable, rfl⟩ := Option.map_eq_some_iff.mp h
    exact .orderBy htable
  · split at h
    next htable =>
      cases h
      exact .filter htable
    next => exact ofSelect?_cases h

/-- **Where clauses come from.** -/
theorem classify?_cases {before after : Line} {clause : Clause}
    (h : classify? before after = some clause) : ReadFrom before after clause := by
  rw [classify?] at h
  split at h
  next =>
    cases h
    exact .loadDatabase
  split at h
  next database hsearch =>
    cases h
    exact .loadTable hsearch
  split at h
  next path creating hsearch =>
    cases h
    exact .target hsearch
  split at h
  next path hsearch =>
    cases h
    exact .source hsearch
  next => exact ofColumns?_cases h

end Clause

end ScriptServer

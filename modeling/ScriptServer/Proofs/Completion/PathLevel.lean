import ScriptServer.Proofs.Layout
import ScriptServer.Proofs.Metadata.LeadingEdge
import ScriptServer.Proofs.Sql.Clause
import ScriptServer.Workspace.Completion

namespace ScriptServer

/-!
# The level of a dotted path

After `from`, and after the words that change or create a table, a path with dots is being typed.
The complete parts of it tell whether catalogs, schemas or tables are to be listed.

* `Sql.pathRun` — the word characters and dots that a text ends with.
* `Sql.EndsInPath` — a text ends with a blank and a path with these complete parts.
* `Sql.endsInPath_of_suffix` — this is so where a path is read behind a phrase.
* `Call.questions` — the questions that a caller may have asked for.
* `Clause.AsksOnly` — the candidates of a clause take one listing, and no other is asked for.
* `Clause.path_level_exact` — the listing is the one on the level of the path.
-/

open Text

namespace Sql

/-! ### The path before the cursor -/

/-- What a dotted path consists of. -/
def isPathChar (c : Char) : Bool := isWord c || c == '.'

/-- The word characters and dots that a text ends with, as many as there are. -/
def pathRun (text : Line) : Line := text.rtakeWhile isPathChar

theorem isPathChar_eq_false_of_isBlank {c : Char} (h : isBlank c = true) :
    isPathChar c = false := by
  have hdot : c ≠ '.' := by
    rintro rfl
    exact absurd h (by decide)
  simp [isPathChar, isWord_eq_false_of_isBlank h, hdot]

/-- A text ends with a blank and a dotted path, of which these parts are complete: they stand before
    its last dot, with dots between them. -/
def EndsInPath (text : Line) (segments : List String) : Prop :=
  ∃ front gap rest, text = front ++ gap :: pathRun text ∧ isBlank gap = true
    ∧ pathRun text = ['.'].intercalate (segments.map String.toList)
        ++ (if segments = [] then [] else ['.']) ++ rest
    ∧ (∀ segment ∈ segments, '.' ∉ segment.toList) ∧ '.' ∉ rest
    ∧ segments.length = (pathRun text).count '.'

/-- The complete parts of a path and the rest behind its last dot. -/
theorem exists_rest_of_completeSegments (path : Line) :
    ∃ rest, path = ['.'].intercalate ((completeSegments path).map String.toList)
        ++ (if completeSegments path = [] then [] else ['.']) ++ rest
      ∧ (∀ segment ∈ completeSegments path, '.' ∉ segment.toList) ∧ '.' ∉ rest
      ∧ (completeSegments path).length = path.count '.' := by
  obtain ⟨pieces, rest, hpieces⟩ :=
    (List.eq_nil_or_concat' _).resolve_left (splitAtChar_ne_nil '.' path)
  have hsegments : completeSegments path = pieces.map String.ofList := by
    simp [completeSegments, hpieces]
  have hdots : ∀ piece ∈ pieces ++ [rest], '.' ∉ piece := fun piece hpiece =>
    not_mem_of_mem_splitAtChar (by rw [hpieces]; exact hpiece)
  have hlength := length_splitAtChar '.' path
  have hjoin := intercalate_splitAtChar '.' path
  rw [hpieces] at hlength hjoin
  rw [hsegments]
  refine ⟨rest, ?_, ?_, hdots rest (by simp), by simpa using hlength⟩
  · rw [List.map_map, show String.toList ∘ String.ofList = id from funext fun _ => by simp,
      List.map_id]
    conv_lhs => rw [← hjoin]
    cases pieces using List.reverseRecOn with
    | nil => simp
    | append_singleton others last =>
      rw [List.append_assoc, List.singleton_append, intercalate_append_cons,
        intercalate_append_cons]
      simp
  · intro segment hsegment
    obtain ⟨piece, hpiece, rfl⟩ := List.mem_map.mp hsegment
    rw [String.toList_ofList]
    exact hdots piece (List.mem_append_left _ hpiece)

/-- Where a path is read behind a phrase, the text ends with it. -/
theorem exists_blank_of_pathAfter? {phrase : List Line} {text path : Line}
    (h : pathAfter? phrase text = some path) :
    (∃ gap, isBlank gap = true ∧ gap :: path <:+ text) ∧ ∀ c ∈ path, isPathChar c = true := by
  simp only [pathAfter?, Option.bind_eq_bind, Option.bind_eq_some_iff] at h
  obtain ⟨behind, hphrase, hpath⟩ := h
  rw [pathToEnd?] at hpath
  split at hpath
  next hall =>
    cases hpath
    exact ⟨exists_blank_of_afterPhrase? hphrase, List.all_eq_true.mp hall⟩
  next => cases hpath

theorem exists_blank_of_changeTarget? {text path : Line} {creating : Bool}
    (h : changeTarget? text = some (path, creating)) :
    (∃ gap, isBlank gap = true ∧ gap :: path <:+ text) ∧ ∀ c ∈ path, isPathChar c = true := by
  rw [changeTarget?] at h
  split at h
  next found hfound =>
    cases h
    obtain ⟨phrase, -, hphrase⟩ := List.exists_of_findSome?_eq_some hfound
    exact exists_blank_of_pathAfter? hphrase
  next =>
    obtain ⟨found, hfound, hpair⟩ := Option.map_eq_some_iff.mp h
    cases hpair
    exact exists_blank_of_pathAfter? hfound

/-- **A path that is read is the run at the end of the text.** -/
theorem endsInPath_of_suffix {text rest path : Line} (hrest : rest <:+ text)
    (h : (∃ gap, isBlank gap = true ∧ gap :: path <:+ rest) ∧ ∀ c ∈ path, isPathChar c = true) :
    EndsInPath text (completeSegments path) := by
  obtain ⟨⟨gap, hgap, hsuffix⟩, hpath⟩ := h
  obtain ⟨front, rfl⟩ := hsuffix.trans hrest
  have hrun : pathRun (front ++ gap :: path) = path :=
    rtakeWhile_append_cons front (isPathChar_eq_false_of_isBlank hgap) hpath
  obtain ⟨last, hjoin, hdots, hlast, hlength⟩ := exists_rest_of_completeSegments path
  exact ⟨front, gap, last, by rw [hrun], hgap, by rw [hrun]; exact hjoin, hdots, hlast,
    by rw [hrun]; exact hlength⟩

end Sql

/-! ### One caller of the cache -/

/-- The questions that a call may have to ask.  Catalogs and databases are always asked for
    together. -/
def Call.questions : Call → List Query
  | .refresh => [.catalogs, .databases]
  | .catalogs => [.catalogs, .databases]
  | .databases => [.catalogs, .databases]
  | .listing query => [query]
  | .cached _ => []

namespace Metadata

namespace Round

theorem askRefresh_adds (round : Round) (connection : Connection) :
    (round.askRefresh connection).1.outcomes = round.outcomes
      ∧ ∀ query ∈ (round.askRefresh connection).1.questions,
          query ∈ round.questions ∨ query ∈ [Query.catalogs, .databases] := by
  unfold askRefresh
  dsimp only
  generalize round.metadata.overview.ask round.free round.metadata.interval = asked
  obtain ⟨overview, turn⟩ := asked
  cases turn with
  | wait => exact ⟨rfl, fun _ => .inl⟩
  | fresh => exact ⟨rfl, fun _ => .inl⟩
  | fetch =>
    -- both questions are asked now or when the refresh before has ended
    dsimp only
    split
    · refine ⟨rfl, fun query hquery => ?_⟩
      simp only [questions, List.mem_append] at hquery ⊢
      tauto
    · refine ⟨rfl, fun query hquery => ?_⟩
      simp only [questions, List.mem_append] at hquery ⊢
      tauto

/-- A caller gets one outcome, and asks nothing but its own questions. -/
theorem ask_adds (round : Round) (connection : Connection) (call : Call) :
    (∃ outcome, (round.ask connection call).outcomes = round.outcomes ++ [outcome])
      ∧ ∀ query ∈ (round.ask connection call).questions,
          query ∈ round.questions ∨ query ∈ call.questions := by
  have hrefresh := round.askRefresh_adds connection
  -- a caller that wants something of the overview concludes behind a refresh
  have hoverview : ∀ outcome,
      (∃ outcome', ((round.askRefresh connection).1.conclude outcome).outcomes
          = round.outcomes ++ [outcome'])
        ∧ ∀ query ∈ ((round.askRefresh connection).1.conclude outcome).questions,
            query ∈ round.questions ∨ query ∈ [Query.catalogs, .databases] := by
    intro outcome
    refine ⟨⟨outcome, ?_⟩, hrefresh.2⟩
    rw [conclude, hrefresh.1]
  cases call with
  | refresh => exact hoverview _
  | catalogs => exact hoverview _
  | databases => exact hoverview _
  | listing query =>
    obtain ⟨-, -, -, houtcome, hcount⟩ := round.askListing_frame connection query
    refine ⟨houtcome, fun other hother => ?_⟩
    by_cases hne : other = query
    · exact .inr (List.mem_singleton.mpr hne)
    · have hmem := List.count_pos_iff.mpr hother
      rw [show (round.ask connection (.listing query)).questions.count other
        = round.questions.count other from hcount other hne] at hmem
      exact .inl (List.count_pos_iff.mp hmem)
  | cached query => exact ⟨⟨_, rfl⟩, fun _ => .inl⟩

end Round

/-- **One call, one reply.**  The database is asked for nothing that the call does not need. -/
theorem exists_perform_one (metadata : Metadata) (connection : Connection) (call : Call) :
    ∃ later reply asked, metadata.perform connection [call] = (later, [reply], asked)
      ∧ ∀ query ∈ asked, query ∈ call.questions := by
  obtain ⟨⟨outcome, houtcome⟩, hquestions⟩ :=
    Round.ask_adds { metadata, free := metadata.now } connection call
  have hlength : (metadata.perform connection [call]).2.1.length = 1 := by
    show (List.map _ (Round.ask connection { metadata, free := metadata.now } call).outcomes).length
      = 1
    rw [List.length_map, houtcome]
    rfl
  obtain ⟨reply, hreply⟩ := List.length_eq_one_iff.mp hlength
  refine ⟨_, reply, _, Prod.ext rfl (Prod.ext hreply rfl), fun query hquery => ?_⟩
  exact (hquestions query hquery).resolve_left List.not_mem_nil

end Metadata

/-! ### The listing for a path -/

namespace Clause

/-- The candidates of a clause are made of what one call gives, and the database is asked for
    nothing that this call does not need. -/
def AsksOnly (clause : Clause) (call : Call) : Prop :=
  ∀ (workspace : Workspace) (connection : Connection), ∃ metadata reply asked,
    workspace.metadata.perform connection [call] = (metadata, [reply], asked)
      ∧ (∀ query ∈ asked, query ∈ call.questions)
      ∧ workspace.clauseCandidates connection clause
        = ({ workspace with metadata }, clause.candidates reply.toListing, asked)

/-- A clause has no candidates, and nothing is asked for. -/
def AsksNothing (clause : Clause) : Prop :=
  ∀ (workspace : Workspace) (connection : Connection),
    workspace.clauseCandidates connection clause = (workspace, [], [])

theorem asksOnly_of_call? {clause : Clause} {call : Call} (h : clause.call? = some call) :
    clause.AsksOnly call := by
  intro workspace connection
  obtain ⟨metadata, reply, asked, hperform, hasked⟩ :=
    workspace.metadata.exists_perform_one connection call
  refine ⟨metadata, reply, asked, hperform, hasked, ?_⟩
  simp only [Workspace.clauseCandidates, h, hperform, List.flatMap_cons, List.flatMap_nil,
    List.append_nil]

theorem asksNothing_of_call? {clause : Clause} (h : clause.call? = none) : clause.AsksNothing := by
  intro workspace connection
  simp only [Workspace.clauseCandidates, h]

/-- The complete parts of the path in a clause, and whether a table is being created there. -/
def path? : Clause → Option (List String × Bool)
  | .source segments => some (segments, false)
  | .target segments creating => some (segments, creating)
  | _ => none

theorem call?_of_path? {clause : Clause} {segments : List String} {creating : Bool}
    (h : clause.path? = some (segments, creating)) :
    clause.call? = pathCall? creating segments := by
  cases clause <;> cases h <;> rfl

/-- What is listed for a path: catalogs at first, then the schemas of a catalog, then the tables of
    a schema unless a table is being created, and nothing further down. -/
structure ListsLevel (clause : Clause) (segments : List String) (creating : Bool) : Prop where
  catalogs : segments = [] → clause.AsksOnly .catalogs
  schemas : ∀ catalog, segments = [catalog] → clause.AsksOnly (.listing (.schemas catalog))
  tables : ∀ catalog schema, segments = [catalog, schema] → creating = false →
    clause.AsksOnly (.listing (.tablesIn catalog schema))
  created : segments.length = 2 → creating = true → clause.AsksNothing
  deeper : 2 < segments.length → clause.AsksNothing

theorem listsLevel_of_path? {clause : Clause} {segments : List String} {creating : Bool}
    (h : clause.path? = some (segments, creating)) : clause.ListsLevel segments creating where
  catalogs := by
    rintro rfl
    exact asksOnly_of_call? (call?_of_path? h)
  schemas := by
    rintro catalog rfl
    exact asksOnly_of_call? (call?_of_path? h)
  tables := by
    rintro catalog schema rfl rfl
    exact asksOnly_of_call? (call?_of_path? h)
  created := by
    intro hlength hcreating
    obtain ⟨catalog, schema, rfl⟩ := List.length_eq_two.mp hlength
    apply asksNothing_of_call?
    rw [call?_of_path? h, hcreating]
    rfl
  deeper := by
    intro hlength
    apply asksNothing_of_call?
    rw [call?_of_path? h]
    rcases segments with _ | ⟨catalog, _ | ⟨schema, _ | ⟨table, rest⟩⟩⟩
    · simp at hlength
    · simp at hlength
    · simp at hlength
    · rfl

open Sql

/-- A clause with a path is read at the end of the text. -/
theorem endsInPath_of_classify? {before after : Line} {clause : Clause} {segments : List String}
    {creating : Bool} (h : classify? before after = some clause)
    (hpath : clause.path? = some (segments, creating)) : EndsInPath before segments := by
  cases classify?_cases h with
  | loadDatabase => cases hpath
  | loadTable => cases hpath
  | target hsearch =>
    cases hpath
    obtain ⟨rest, hrest, hread⟩ := exists_suffix_of_search hsearch
    exact endsInPath_of_suffix hrest (exists_blank_of_changeTarget? hread)
  | source hsearch =>
    cases hpath
    obtain ⟨rest, hrest, hread⟩ := exists_suffix_of_search hsearch
    exact endsInPath_of_suffix hrest (exists_blank_of_pathAfter? hread)
  | orderBy => cases hpath
  | filter => cases hpath
  | select => cases hpath

/-- **The level of a path.**  Where a path is being typed after `from` or as the target of a
    statement, the text before the cursor ends with a blank and the path, its complete parts are
    those before its last dot, and their number decides what is listed. -/
theorem path_level_exact {before after : Line} {clause : Clause} {segments : List String}
    {creating : Bool} (h : classify? before after = some clause)
    (hpath : clause.path? = some (segments, creating)) :
    EndsInPath before segments ∧ clause.ListsLevel segments creating :=
  ⟨endsInPath_of_classify? h hpath, listsLevel_of_path? hpath⟩

/-- A table that is being created gets no names, but the schemas above it are listed. -/
theorem path_level_of_created_table :
    classify? "x = 1 CREATE  table cat.".toList [] = some (.target ["cat"] true)
      ∧ path? (.target ["cat"] true) = some (["cat"], true)
      ∧ EndsInPath "x = 1 CREATE  table cat.".toList ["cat"]
      ∧ ListsLevel (.target ["cat"] true) ["cat"] true := by
  have h : classify? "x = 1 CREATE  table cat.".toList [] = some (.target ["cat"] true) := by decide
  exact ⟨h, rfl, path_level_exact h rfl⟩

end Clause

end ScriptServer

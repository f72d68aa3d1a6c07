import ScriptServer.Proofs.Assignment
import ScriptServer.Outline

namespace ScriptServer

/-!
# The variables of a text

Assignments are looked for on the lines that are neither imports nor part of a declaration header.
Headers may go over several lines, so the search carries along where the last header ends.

* `Declaration.CoveredByHeader` — a line up to which a header that begins further up was read.
* `Declaration.filterMap_bodyFindings` — what is found on one line, whatever stands above it.
* `Declaration.exists_seen_on` — the same from the first line on, with the assignments said without the
  search.
* `Outline.variables_exactly_assignments` — the variables on a line are its assignments, less those
  that touch another one.
-/

open Text

namespace Declaration

/-! ### Lines of headers -/

/-- A line, given by its number, up to which a header was read that begins further up.  Reading ends
    where the parameter list closes, or where it gives up. -/
def CoveredByHeader (syn : ModuleSyntax) (first : Nat) (lines : List Line) (n : Nat) : Prop :=
  ∃ above text below head, lines = above ++ text :: below ∧ first + above.length < n
    ∧ syn.useStatement? text = none ∧ head ∈ headStarts none 0 text
    ∧ n < lineAfter (readHeader (first + above.length) head below)

/-- With one more line above, the headers that begin there count as well. -/
theorem coveredByHeader_cons {syn : ModuleSyntax} {first n : Nat} {text : Line}
    {below : List Line} :
    CoveredByHeader syn first (text :: below) n
      ↔ (first < n ∧ syn.useStatement? text = none
          ∧ ∃ head ∈ headStarts none 0 text, n < lineAfter (readHeader first head below))
        ∨ CoveredByHeader syn (first + 1) below n := by
  constructor
  · rintro ⟨above, text', below', head, hlines, hlt, huse, hhead, hafter⟩
    cases above with
    | nil =>
      cases hlines
      exact .inl ⟨hlt, huse, head, hhead, hafter⟩
    | cons line above =>
      cases hlines
      rw [List.length_cons, Nat.add_comm above.length, ← Nat.add_assoc] at hlt hafter
      exact .inr ⟨above, text', below', head, rfl, hlt, huse, hhead, hafter⟩
  · rintro (⟨hlt, huse, head, hhead, hafter⟩ | ⟨above, text', below', head, rfl, hlt, huse, hhead, hafter⟩)
    · exact ⟨[], text, below, head, rfl, hlt, huse, hhead, hafter⟩
    · rw [Nat.add_assoc, Nat.add_comm 1] at hlt hafter
      exact ⟨text :: above, text', below', head, rfl, hlt, huse, hhead, hafter⟩

/-- Nothing above the first line covers it. -/
theorem not_coveredByHeader_first {syn : ModuleSyntax} {first : Nat} {lines : List Line} :
    ¬ CoveredByHeader syn first lines first := by
  rintro ⟨above, text, below, head, -, hlt, -⟩
  omega

/-- The line after all headers of a line. -/
theorem foldl_lineAfter_le_iff {headers : List (Except Nat Header)} {free n : Nat} :
    headers.foldl (fun free header => max free (lineAfter header)) free ≤ n
      ↔ free ≤ n ∧ ∀ header ∈ headers, lineAfter header ≤ n := by
  induction headers generalizing free with
  | nil => simp
  | cons header headers ih =>
    rw [List.foldl_cons, ih, Nat.max_le, List.forall_mem_cons, and_assoc]

/-! ### What is found on one line -/

/-- The name that a finding assigns on a line, with its place. -/
def assignedOn? (n : Nat) : Finding → Option (String × Span)
  | .assigns name span => if span.line = n then some (name, span) else none
  | _ => none

/-- The place of an assigned name on a line. -/
def assignedAt (n : Nat) (found : Assigned) : String × Span :=
  (String.ofList found.name, ⟨n, found.offset, found.offset + size found.name⟩)

theorem filterMap_variableFindings (line n : Nat) (text : Line) :
    (variableFindings line text).filterMap (assignedOn? n)
      = if line = n then (assignments text).map (assignedAt n) else [] := by
  rw [variableFindings, List.filterMap_map]
  split
  next h =>
    subst h
    rw [← List.filterMap_eq_map]
    congr 1
    funext found
    simp [assignedOn?, assignedAt]
  next h =>
    rw [List.filterMap_eq_nil_iff]
    intro found _
    simp [assignedOn?, h]

theorem filterMap_functions (headers : List (Except Nat Header)) (n : Nat) :
    (headers.filterMap functionFinding?).filterMap (assignedOn? n) = [] := by
  rw [List.filterMap_filterMap, List.filterMap_eq_nil_iff]
  intro result _
  cases result with
  | error => rfl
  | ok => rfl

/-- Nothing is found on a line that is not among the lines. -/
theorem filterMap_bodyFindings_of_outside {syn : ModuleSyntax} {free line n : Nat}
    {lines : List Line} (h : n < line ∨ line + lines.length ≤ n) :
    (bodyFindings syn free line lines).filterMap (assignedOn? n) = [] := by
  rw [List.filterMap_eq_nil_iff]
  intro found hfound
  obtain ⟨above, text, below, rfl, hdeclared⟩ := exists_line_of_mem_bodyFindings hfound
  cases hdeclared with
  | imports => rfl
  | function => rfl
  | assigns =>
    refine if_neg fun hline => ?_
    simp only [List.length_append, List.length_cons] at hline h
    omega

/-- Whether assignments are looked for on a line: it imports nothing, no header begins on it, and it
    belongs to no header, neither to one that ends before `free` nor to one that begins further up. -/
def IsSearched (syn : ModuleSyntax) (free first : Nat) (lines : List Line) (n : Nat) (text : Line) :
    Prop :=
  syn.useStatement? text = none ∧ headStarts none 0 text = [] ∧ free ≤ n
    ∧ ¬ CoveredByHeader syn first lines n

/-- A line above that imports a module changes nothing. -/
theorem isSearched_cons_use {syn : ModuleSyntax} {free first n : Nat} {line text : Line}
    {lines : List Line} {statement : ModuleSyntax.Statement}
    (h : syn.useStatement? line = some statement) :
    IsSearched syn free first (line :: lines) n text
      ↔ IsSearched syn free (first + 1) lines n text := by
  simp [IsSearched, coveredByHeader_cons, h]

/-- The headers that begin on a line above move the place where headers end. -/
theorem isSearched_cons {syn : ModuleSyntax} {free first n : Nat} {line text : Line}
    {lines : List Line} (h : syn.useStatement? line = none) (hlt : first < n) :
    IsSearched syn free first (line :: lines) n text
      ↔ IsSearched syn (((headStarts none 0 line).map fun head =>
            readHeader first head lines).foldl (fun free header => max free (lineAfter header)) free)
          (first + 1) lines n text := by
  simp only [IsSearched, coveredByHeader_cons, foldl_lineAfter_le_iff, h, hlt, true_and, not_or,
    not_exists, not_and, Nat.not_lt, List.forall_mem_map, and_assoc]

open scoped Classical in
/-- **What is found on one line.**  The induction is on the lines above it. -/
theorem filterMap_bodyFindings (syn : ModuleSyntax) (free line : Nat) (above : List Line)
    (text : Line) (below : List Line) :
    (bodyFindings syn free line (above ++ text :: below)).filterMap
        (assignedOn? (line + above.length))
      = if IsSearched syn free line (above ++ text :: below) (line + above.length) text
        then (assignments text).map (assignedAt (line + above.length)) else [] := by
  induction above generalizing free line with
  | nil =>
    rw [List.nil_append, List.length_nil, Nat.add_zero, bodyFindings]
    split
    next statement huse =>
      rw [List.filterMap_cons_none rfl, filterMap_bodyFindings_of_outside (.inl (Nat.lt_succ_self line)),
        if_neg fun hsearched => by rw [hsearched.1] at huse; cases huse]
    next huse =>
      dsimp only
      rw [List.filterMap_append, List.filterMap_append, filterMap_functions,
        filterMap_bodyFindings_of_outside (.inl (Nat.lt_succ_self line)), List.nil_append, List.append_nil]
      have hsearched : IsSearched syn free line (text :: below) line text
          ↔ headStarts none 0 text = [] ∧ free ≤ line := by
        simp [IsSearched, huse, not_coveredByHeader_first]
      by_cases hheads : headStarts none 0 text = []
      · by_cases hfree : free ≤ line
        · simp [hheads, hfree, hsearched, filterMap_variableFindings]
        · simp [hheads, hfree, hsearched]
      · simp [hheads, hsearched]
  | cons first above ih =>
    have hlength : line + (first :: above).length = line + 1 + above.length := by
      rw [List.length_cons]
      omega
    have hne : line ≠ line + 1 + above.length := by omega
    rw [List.cons_append, hlength, bodyFindings]
    split
    next statement huse =>
      rw [List.filterMap_cons_none rfl, ih, isSearched_cons_use huse]
    next huse =>
      dsimp only
      have hhere : ∀ free', (if (headStarts none 0 first).isEmpty ∧ free' ≤ line
          then variableFindings line first else []).filterMap
            (assignedOn? (line + 1 + above.length)) = [] := by
        intro free'
        split
        · rw [filterMap_variableFindings, if_neg hne]
        · rfl
      rw [List.filterMap_append, List.filterMap_append, filterMap_functions, hhere, ih,
        isSearched_cons huse (by omega)]
      rfl

/-- The module of the script is no variable. -/
theorem filterMap_moduleFinding? (syn : ModuleSyntax) (code : List Line) (n : Nat) :
    (moduleFinding? syn code).toList.filterMap (assignedOn? n) = [] := by
  rw [List.filterMap_eq_nil_iff]
  intro found hfound
  rw [Option.mem_toList] at hfound
  simp only [moduleFinding?, Option.bind_eq_bind, Option.bind_eq_some_iff, Option.pure_def,
    Option.some.injEq] at hfound
  obtain ⟨_, -, _, -, rfl⟩ := hfound
  rfl

open scoped Classical in
theorem filterMap_findings {syn : ModuleSyntax} {code : List Line} {n : Nat} {line : Line}
    (h : code[n]? = some line) :
    (findings syn code).filterMap (assignedOn? n)
      = if IsSearched syn 0 0 code n line then (assignments line).map (assignedAt n) else [] := by
  obtain ⟨hlt, rfl⟩ := List.getElem?_eq_some_iff.mp h
  have hcode : code = code.take n ++ code[n] :: code.drop (n + 1) := by simp
  have hlength : 0 + (code.take n).length = n := by
    rw [List.length_take_of_le hlt.le, Nat.zero_add]
  have hfound := filterMap_bodyFindings syn 0 0 (code.take n) code[n] (code.drop (n + 1))
  rw [← hcode, hlength] at hfound
  rw [findings, List.filterMap_append, filterMap_moduleFinding?, List.nil_append, hfound]

/-- **What is found on a line of code:** its assignments, if it is searched for them, less those that
    touch one that is found. -/
theorem exists_seen_on (syn : ModuleSyntax) (code : List Line) (n : Nat) :
    ∃ seen : List Binding,
      seen.Pairwise (fun a b => a.offset < b.offset)
        ∧ (∀ b, b ∈ seen ↔ code[n]? = some b.line
            ∧ syn.useStatement? b.line = none ∧ headStarts none 0 b.line = []
            ∧ ¬ CoveredByHeader syn 0 code n ∧ b.IsAssignment ∧ ¬ ∃ a ∈ seen, a.Touches b)
        ∧ (findings syn code).filterMap (assignedOn? n)
          = seen.map fun b => assignedAt n b.assigned := by
  cases hline : code[n]? with
  | none =>
    refine ⟨[], .nil, fun b => ⟨nofun, fun h => nomatch h.1⟩, ?_⟩
    have hlength := List.getElem?_eq_none_iff.mp hline
    rw [findings, List.filterMap_append, filterMap_moduleFinding?,
      filterMap_bodyFindings_of_outside (.inr (by omega))]
    rfl
  | some line =>
    rw [filterMap_findings hline]
    by_cases hsearched : IsSearched syn 0 0 code n line
    · obtain ⟨seen, hseen, heq⟩ := exists_seen line
      refine ⟨seen, hseen.pairwise_offset, fun b => ?_, ?_⟩
      · obtain ⟨huse, hheads, -, hcovered⟩ := hsearched
        rw [hseen.mem_iff]
        constructor
        · rintro ⟨rfl, hb, -, htouch⟩
          exact ⟨rfl, huse, hheads, hcovered, hb, htouch⟩
        · rintro ⟨heq, -, -, -, hb, htouch⟩
          exact ⟨(Option.some.inj heq).symm, hb, Nat.zero_le _, htouch⟩
      · rw [if_pos hsearched, heq, List.map_map]
        rfl
    · refine ⟨[], .nil, fun b => ⟨nofun, ?_⟩, by rw [if_neg hsearched]; rfl⟩
      rintro ⟨heq, huse, hheads, hcovered, -⟩
      cases heq
      exact absurd ⟨huse, hheads, Nat.zero_le n, hcovered⟩ hsearched

end Declaration

namespace Outline

open Declaration

/-! ### Variables as symbols -/

/-- The variables on a line of a table are those that are found there. -/
theorem filter_variables (syn : ModuleSyntax) (uri : Uri) (text : String) (n : Nat) :
    (table syn uri text).symbols.filter (fun s => s.kind = .var ∧ s.position.line = n)
      = ((findings syn (Source.ofText text).code).filterMap (assignedOn? n)).map fun found =>
          variableSymbol (.ofText uri text) found.1 found.2 := by
  show ((findings syn (Source.ofText text).code).flatMap (symbols (.ofText uri text))).filter _ = _
  induction findings syn (Source.ofText text).code with
  | nil => rfl
  | cons found rest ih =>
    rw [List.flatMap_cons, List.filter_append, ih]
    cases found with
    | function header =>
      have hnone : (symbols (.ofText uri text) (.function header)).filter
          (fun s => s.kind = .var ∧ s.position.line = n) = [] := by
        rw [List.filter_eq_nil_iff]
        intro s hs
        rcases List.mem_cons.mp hs with rfl | hparameter
        · simp [Symbol.kind, functionSymbol]
        · obtain ⟨parameter, -, rfl⟩ := List.mem_map.mp hparameter
          simp [Symbol.kind, parameterSymbol]
      rw [hnone]
      rfl
    | assigns name span =>
      have hkind : (variableSymbol (.ofText uri text) name span).kind = .var := rfl
      have hline : (variableSymbol (.ofText uri text) name span).position.line = span.line := rfl
      by_cases h : span.line = n
      · simp [symbols, assignedOn?, hkind, hline, h]
      · simp [symbols, assignedOn?, hline, h]
    | _ => rfl

/-- **The variables on a line** are the assignments in its code, from left to right, as long as the
    line is no import, no header begins on it and no header reaches over it.  A statement that begins
    with the character behind the equals sign of a variable that is seen is passed over. -/
theorem variables_exactly_assignments (syn : ModuleSyntax) (uri : Uri) (text : String) (n : Nat) :
    ∃ seen : List Binding,
      seen.Pairwise (fun a b => a.offset < b.offset)
        ∧ (∀ b, b ∈ seen ↔ (Source.ofText text).code[n]? = some b.line
            ∧ syn.useStatement? b.line = none ∧ headStarts none 0 b.line = []
            ∧ ¬ CoveredByHeader syn 0 (Source.ofText text).code n
            ∧ b.IsAssignment ∧ ¬ ∃ a ∈ seen, a.Touches b)
        ∧ (table syn uri text).symbols.filter (fun s => s.kind = .var ∧ s.position.line = n)
          = seen.map fun b => variableSymbol (.ofText uri text) (String.ofList b.name)
              ⟨n, b.offset, b.offset + size b.name⟩ := by
  obtain ⟨seen, hsorted, hmem, hfound⟩ := exists_seen_on syn (Source.ofText text).code n
  refine ⟨seen, hsorted, hmem, ?_⟩
  rw [filter_variables, hfound, List.map_map]
  rfl

/-- A statement right behind the equals sign of another one assigns, and its variable is not seen. -/
theorem assignment_behind_equals_not_seen :
    ∃ b : Binding, (Source.ofText "x =;y = 1").code[0]? = some b.line
      ∧ ModuleSyntax.standard.useStatement? b.line = none ∧ headStarts none 0 b.line = []
      ∧ ¬ CoveredByHeader .standard 0 (Source.ofText "x =;y = 1").code 0
      ∧ b.IsAssignment
      ∧ ∀ s ∈ (table .standard ⟨"file:///f"⟩ "x =;y = 1").symbols, s.name ≠ String.ofList b.name := by
  refine ⟨⟨['x', ' ', '=', ';'], [], ['y'], [' '], [' ', '1']⟩, by decide, by decide, rfl,
    not_coveredByHeader_first, ⟨.inr (.inl rfl), rfl, by decide, rfl, by decide⟩, by decide⟩

end Outline

end ScriptServer

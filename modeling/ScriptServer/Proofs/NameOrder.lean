import ScriptServer.Proofs.Assignment

namespace ScriptServer.Declaration

/-!
# Names are found in order

Functions and variables are found line by line, and on each line from left to right.  So no name is
found twice.

* `Finding.spot`, `Finding.nameSpot?` — where a finding stands, and the same for functions and
  variables only.
* `pairwise_headStarts` — the names of functions on one line.
* `pairwise_bodyFindings` — imports, functions and variables: each stands behind the one before it.
* `pairwise_findings` — the same for the names of functions and variables among all findings.
-/

open Text

/-! ### Headers on one line -/

/-- A header begins with the first letter of its keyword. -/
theorem headAt?_eq_none {c : Char} (hc : c ≠ 'd') (offset : Nat) (rest : Line) :
    headAt? offset (c :: rest) = none := by
  simp [headAt?, after?, hc.symm]

/-- Where this letter does not stand, no header begins. -/
theorem exists_headStarts_append {front : Line} (h : 'd' ∉ front) (previous : Option Char)
    (offset : Nat) (rest : Line) :
    ∃ previous', headStarts previous offset (front ++ rest)
      = headStarts previous' (offset + size front) rest := by
  induction front generalizing previous offset with
  | nil => exact ⟨previous, rfl⟩
  | cons c front ih =>
    rw [List.mem_cons, not_or] at h
    obtain ⟨previous', heq⟩ := ih h.2 (some c) (offset + c.utf8Size)
    refine ⟨previous', ?_⟩
    rw [List.cons_append, headStarts, headAt?_eq_none (Ne.symm h.1), size, ← Nat.add_assoc, ← heq]
    split <;> rfl

/-- The keyword stands before the name, and neither before the text that is searched. -/
theorem keyword_of_mem_headStarts {previous : Option Char} {offset : Nat} {line : Line}
    {head : HeadStart} (h : head ∈ headStarts previous offset line) :
    offset ≤ head.keyword ∧ head.keyword < head.nameStart := by
  obtain ⟨before, text, -, hhead⟩ := exists_headAt?_of_mem_headStarts h
  obtain ⟨gap, parenGap, -, hkeyword, hname, -⟩ := headAt?_eq_some hhead
  omega

/-- **The names of functions on a line** come from left to right. -/
theorem pairwise_headStarts (previous : Option Char) (offset : Nat) (line : Line) :
    (headStarts previous offset line).Pairwise fun a b => a.nameStart < b.nameStart := by
  induction line generalizing previous offset with
  | nil => exact .nil
  | cons c rest ih =>
    rw [headStarts]
    split
    · exact ih _ _
    · split
      next head hhead =>
        refine List.pairwise_cons.mpr ⟨fun later hlater => ?_, ih _ _⟩
        -- the next header begins behind the blanks in front of this one's name
        obtain ⟨gap, parenGap, htext, -, hname, -, -, hgap, -⟩ := headAt?_eq_some hhead
        have hletter : 'd' ∉ ['e', 'f'] ++ gap := by
          rw [List.mem_append, not_or]
          exact ⟨by decide, not_mem_of_isBlankLine hgap (by decide)⟩
        obtain ⟨rfl, rfl⟩ : c = 'd'
            ∧ rest = ['e', 'f'] ++ gap ++ (head.name ++ parenGap ++ '(' :: head.rest) := by
          simpa using htext
        obtain ⟨previous', heq⟩ := exists_headStarts_append hletter (some 'd')
          (offset + 'd'.utf8Size) (head.name ++ parenGap ++ '(' :: head.rest)
        rw [heq] at hlater
        obtain ⟨hle, hlt⟩ := keyword_of_mem_headStarts hlater
        have hsizes : 'd'.utf8Size = 1 ∧ size ['e', 'f'] = 2 := by decide
        rw [size_append] at hle
        omega
      next => exact ih _ _

/-! ### All findings -/

/-- Where a finding stands: its name begins there. -/
def Finding.spot : Finding → Spot
  | .declares _ span => ⟨span.line, span.start⟩
  | .imports _ span => ⟨span.line, span.start⟩
  | .function header => ⟨header.span.line, header.span.start⟩
  | .assigns _ span => ⟨span.line, span.start⟩

/-- Where the name of a function or a variable begins. -/
def Finding.nameSpot? : Finding → Option Spot
  | .declares .. => none
  | .imports .. => none
  | .function header => some ⟨header.span.line, header.span.start⟩
  | .assigns _ span => some ⟨span.line, span.start⟩

/-- The name of the first finding stands before the name of the second. -/
def Finding.Precedes (a b : Finding) : Prop :=
  ∀ s ∈ a.nameSpot?, ∀ t ∈ b.nameSpot?, s < t

theorem Finding.spot_of_nameSpot? {found : Finding} {spot : Spot}
    (h : found.nameSpot? = some spot) : found.spot = spot := by
  cases found <;> cases h <;> rfl

/-- A name stands on the line that declares it. -/
theorem DeclaredOn.line_eq {syn : ModuleSyntax} {line : Nat} {text : Line} {below : List Line}
    {found : Finding} (h : DeclaredOn syn line text below found) : found.spot.line = line := by
  cases h with
  | imports => rfl
  | function hhead hread =>
    obtain ⟨list, body, closes, -, -, -, rfl⟩ := readHeader_eq_ok hread
    rfl
  | assigns => rfl

theorem functionFinding?_eq_some {result : Except Nat Header} {found : Finding}
    (h : functionFinding? result = some found) :
    ∃ header, result = .ok header ∧ found = .function header := by
  cases result with
  | error => cases h
  | ok header =>
    cases h
    exact ⟨header, rfl, rfl⟩

/-- The functions of a line are those whose headers are read to their end. -/
theorem exists_readHeader_of_mem_functions {line : Nat} {text : Line} {below : List Line}
    {found : Finding}
    (h : found ∈ ((headStarts none 0 text).map fun head => readHeader line head below).filterMap
      functionFinding?) :
    ∃ head header, head ∈ headStarts none 0 text ∧ readHeader line head below = .ok header
      ∧ found = .function header := by
  obtain ⟨result, hresult, hfinding⟩ := List.mem_filterMap.mp h
  obtain ⟨head, hhead, rfl⟩ := List.mem_map.mp hresult
  obtain ⟨header, hread, rfl⟩ := functionFinding?_eq_some hfinding
  exact ⟨head, header, hhead, hread, rfl⟩

/-- The functions that begin on a line are found from left to right. -/
theorem pairwise_functions (line : Nat) (text : Line) (below : List Line) :
    (((headStarts none 0 text).map fun head => readHeader line head below).filterMap
      functionFinding?).Pairwise fun a b => a.spot < b.spot := by
  rw [List.pairwise_filterMap, List.pairwise_map]
  refine (pairwise_headStarts none 0 text).imp ?_
  intro a b hlt found hfound found' hfound'
  obtain ⟨header, hread, rfl⟩ := functionFinding?_eq_some hfound
  obtain ⟨header', hread', rfl⟩ := functionFinding?_eq_some hfound'
  obtain ⟨_, _, _, -, -, -, rfl⟩ := readHeader_eq_ok hread
  obtain ⟨_, _, _, -, -, -, rfl⟩ := readHeader_eq_ok hread'
  exact .inr ⟨rfl, hlt⟩

theorem pairwise_variableFindings (line : Nat) (text : Line) :
    (variableFindings line text).Pairwise fun a b => a.spot < b.spot := by
  rw [variableFindings, List.pairwise_map]
  exact (pairwise_assignments text).imp fun hlt => .inr ⟨rfl, hlt⟩

/-- What is found on a line stands before what is found on the lines below it. -/
theorem Finding.spot_lt_of_mem_below {syn : ModuleSyntax} {found later : Finding} {free line : Nat}
    {lines : List Line} (hfound : found.spot.line = line)
    (hlater : later ∈ bodyFindings syn free (line + 1) lines) : found.spot < later.spot := by
  obtain ⟨above, text, below, -, hdeclared⟩ := exists_line_of_mem_bodyFindings hlater
  have hline := hdeclared.line_eq
  exact .inl (by omega)

/-- **Imports, functions and variables are found in order:** each stands behind the one before
    it. -/
theorem pairwise_bodyFindings (syn : ModuleSyntax) (free line : Nat) (lines : List Line) :
    (bodyFindings syn free line lines).Pairwise fun a b => a.spot < b.spot := by
  induction lines generalizing free line with
  | nil => exact .nil
  | cons text below ih =>
    rw [bodyFindings]
    split
    · refine List.pairwise_cons.mpr ⟨?_, ih _ _⟩
      exact fun later hlater => Finding.spot_lt_of_mem_below rfl hlater
    · dsimp only
      rw [List.append_assoc, List.pairwise_append, List.pairwise_append]
      refine ⟨pairwise_functions line text below, ⟨?_, ih _ _, ?_⟩, ?_⟩
      · split
        · exact pairwise_variableFindings line text
        · exact .nil
      · intro found hfound later hlater
        refine Finding.spot_lt_of_mem_below ?_ hlater
        split at hfound
        · obtain ⟨assigned, hassigned, rfl⟩ := List.mem_map.mp hfound
          rfl
        · cases hfound
      · -- a line with a function assigns nothing
        intro found hfound later hlater
        obtain ⟨head, header, hhead, hread, rfl⟩ := exists_readHeader_of_mem_functions hfound
        have hempty : (headStarts none 0 text).isEmpty = false := by
          cases hheads : headStarts none 0 text with
          | nil => rw [hheads] at hhead; cases hhead
          | cons => rfl
        rw [if_neg (by simp [hempty]), List.nil_append] at hlater
        have hdeclared : DeclaredOn syn line text below (.function header) := .function hhead hread
        exact Finding.spot_lt_of_mem_below hdeclared.line_eq hlater

/-- **Names are found in order:** the name of every function and every variable begins behind the
    names found before it. -/
theorem pairwise_findings (syn : ModuleSyntax) (code : List Line) :
    (findings syn code).Pairwise Finding.Precedes := by
  refine List.pairwise_append.mpr ⟨?_, (pairwise_bodyFindings syn 0 0 code).imp ?_, ?_⟩
  · cases moduleFinding? syn code with
    | none => exact .nil
    | some => exact List.pairwise_singleton _ _
  · intro found later hlt s hs t ht
    rwa [Finding.spot_of_nameSpot? hs, Finding.spot_of_nameSpot? ht] at hlt
  · -- the module of the script has no place among the names
    intro found hfound later _ s hs
    rw [Option.mem_toList] at hfound
    simp only [moduleFinding?, Option.bind_eq_bind, Option.bind_eq_some_iff, Option.pure_def,
      Option.some.injEq] at hfound
    obtain ⟨_, -, _, -, rfl⟩ := hfound
    cases hs

end ScriptServer.Declaration

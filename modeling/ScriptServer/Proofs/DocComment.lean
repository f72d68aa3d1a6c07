import ScriptServer.DocComment
import ScriptServer.Proofs.ModulePath
import ScriptServer.Proofs.Text.Comment

namespace ScriptServer

/-!
# Code in documentation

Documentation is read upwards from the lines as they are written, without knowing what is a comment
in them.  So code can be taken for documentation, and here is when.

* `Text.exists_closed_of_code` — where a line with code has a comment in front of it, this comment
  is closed before the code.
* `DocComment.mem_collect_some_iff` — a block comment is read up to the nearest line with an opening
  marker, which must begin with it.
* `DocComment.above?_ne_none_iff` — documentation is found when a line of the comment has any text.
* `DocComment.code_documents_iff` — which lines with code are taken for documentation.
-/

open Text

namespace Text

/-! ### Comments in front of code -/

/-- What is left of a line without its comments. -/
def uncommented (zone : Zone) (line : Line) : Line :=
  render (· == .comment) (markLine zone line).chars

theorem isBlankLine_render_comment (c : Char) (rest : List (Char × Mark)) :
    isBlankLine (render (· == .comment) ((c, .comment) :: rest))
      = isBlankLine (render (· == .comment) rest) := by
  have hblank := isBlankLine_blank c
  rw [render_cons, if_pos (by rfl)]
  simp only [isBlankLine, List.all_append] at hblank ⊢
  rw [hblank, Bool.true_and]

/-- A comment to the end of the line leaves no code. -/
theorem isBlankLine_uncommented_remark (rest : Line) :
    isBlankLine (uncommented .code ('/' :: '/' :: rest)) = true := by
  rw [uncommented, markLine]
  generalize '/' :: '/' :: rest = hidden
  induction hidden with
  | nil => rfl
  | cons c hidden ih => exact (isBlankLine_render_comment c _).trans ih

/-- What is code in a block comment is code behind its beginning. -/
theorem isBlankLine_uncommented_opening (rest : Line) :
    isBlankLine (uncommented .code ('/' :: '*' :: rest))
      = isBlankLine (uncommented .comment rest) :=
  (isBlankLine_render_comment _ _).trans (isBlankLine_render_comment _ _)

/-- Blanks in front of code are code. -/
theorem uncommented_append {lead : Line} (h : isBlankLine lead = true) (rest : Line) :
    uncommented .code (lead ++ rest) = lead ++ uncommented .code rest := by
  induction lead with
  | nil => rfl
  | cons c lead ih =>
    obtain ⟨hc, hlead⟩ : isBlank c = true ∧ isBlankLine lead = true := by
      simpa [isBlankLine] using h
    have hslash : c ≠ '/' := fun heq => absurd hc (by rw [heq]; decide)
    have hquote : ¬ (c = '"' ∨ c = '\x27') := by
      rintro (rfl | rfl) <;> exact absurd hc (by decide)
    have hmark : markLine .code (c :: (lead ++ rest))
        = (markLine .code (lead ++ rest)).cons c .code := by
      rw [markLine, if_neg hquote] <;> simp [hslash]
    rw [List.cons_append, uncommented, hmark, Marked.cons, render_cons, List.cons_append,
      ← ih hlead]
    rfl

/-- **Code inside a block comment** stands behind the end of the comment. -/
theorem exists_end_of_uncommented {line : Line}
    (h : isBlankLine (uncommented .comment line) = false) :
    ∃ inside behind, line = inside ++ '*' :: '/' :: behind ∧ isBlankLine behind = false := by
  induction line with
  | nil => cases h
  | cons c rest ih =>
    by_cases hends : c = '*' ∧ ∃ behind, rest = '/' :: behind
    · obtain ⟨rfl, behind, rfl⟩ := hends
      refine ⟨[], behind, rfl, ?_⟩
      rw [uncommented, markLine, Marked.cons, Marked.cons, isBlankLine_render_comment,
        isBlankLine_render_comment] at h
      cases hblank : isBlankLine behind with
      | false => rfl
      | true =>
        have hcode := isBlankLine_render (· == .comment)
          ((congrArg isBlankLine (map_fst_markLine .code behind)).trans hblank)
        cases h.symm.trans hcode
    · have hmark : markLine .comment (c :: rest) = (markLine .comment rest).cons c .comment := by
        rw [markLine]
        exact fun behind hc hrest => hends ⟨hc, behind, hrest⟩
      rw [uncommented, hmark, Marked.cons, isBlankLine_render_comment] at h
      obtain ⟨inside, behind, rfl, hbehind⟩ := ih h
      exact ⟨c :: inside, behind, rfl, hbehind⟩

/-- **A comment in front of code is closed.**  A line with code that begins inside a block comment,
    or with the opening of one, has the end of a comment in it, and something behind. -/
theorem exists_closed_of_code {zone : Zone} {line : Line} (hzone : zone = .code ∨ zone = .comment)
    (hcode : isBlankLine (uncommented zone line) = false)
    (h : zone = .comment ∨ ['/', '*'] <+: trim line) :
    ∃ inside behind, trim line = inside ++ '*' :: '/' :: behind ∧ behind ≠ [] := by
  have hends : ∃ inside behind, line = inside ++ '*' :: '/' :: behind
      ∧ isBlankLine behind = false := by
    rcases hzone with rfl | rfl
    · obtain ⟨rest, hrest⟩ := h.resolve_left (by simp)
      obtain ⟨lead, tail, hline, hlead, -⟩ := exists_eq_append_trim line
      have hopening : line = lead ++ '/' :: '*' :: (rest ++ tail) := by
        rw [hline, ← hrest]
        simp
      rw [hopening, uncommented_append hlead, isBlankLine, List.all_append, ← isBlankLine, hlead,
        Bool.true_and, ← isBlankLine, isBlankLine_uncommented_opening] at hcode
      obtain ⟨inside, behind, hinside, hbehind⟩ := exists_end_of_uncommented hcode
      refine ⟨lead ++ '/' :: '*' :: inside, behind, ?_, hbehind⟩
      rw [hopening, hinside]
      simp
    · exact exists_end_of_uncommented hcode
  obtain ⟨inside, behind, rfl, hbehind⟩ := hends
  refine ⟨trimStart inside, trimEnd behind, ?_, fun hnil => ?_⟩
  · have hslash : trimEnd ('/' :: behind) = '/' :: trimEnd behind :=
      trimEnd_append_cons [] (by decide) behind
    rw [trim_append_cons inside (by decide), hslash]
  · obtain ⟨gap, hgap, hblank⟩ := exists_eq_trimEnd_append behind
    rw [hnil, List.nil_append] at hgap
    rw [hgap, hblank] at hbehind
    cases hbehind

/-- A line with code that begins with two slashes begins inside a block comment. -/
theorem eq_comment_of_slashes {zone : Zone} {line : Line} (hzone : zone = .code ∨ zone = .comment)
    (hcode : isBlankLine (uncommented zone line) = false) (h : ['/', '/'] <+: trim line) :
    zone = .comment := by
  refine hzone.resolve_left ?_
  rintro rfl
  obtain ⟨rest, hrest⟩ := h
  obtain ⟨lead, tail, hline, hlead, -⟩ := exists_eq_append_trim line
  have hremark : line = lead ++ '/' :: '/' :: (rest ++ tail) := by
    rw [hline, ← hrest]
    simp
  rw [hremark, uncommented_append hlead,
    isBlankLine_append hlead (isBlankLine_uncommented_remark _)] at hcode
  cases hcode

/-! ### Looking for a pattern -/

theorem cutFirst?_eq_none_iff {p : Char} {pattern line : Line} :
    cutFirst? (p :: pattern) line = none ↔ ¬ (p :: pattern) <:+: line := by
  induction line with
  | nil => simp [cutFirst?]
  | cons c rest ih =>
    rw [List.infix_cons_iff, not_or, ← ih, cutFirst?]
    cases hafter : after? (p :: pattern) (c :: rest) with
    | some after =>
      have hfront : (p :: pattern) <+: c :: rest := ⟨after, (after?_eq_some_iff.mp hafter).symm⟩
      simp [hfront]
    | none =>
      have hfront : ¬ (p :: pattern) <+: c :: rest := by
        rintro ⟨after, heq⟩
        cases hafter.symm.trans (after?_eq_some_iff.mpr heq.symm)
      simp [hfront]

/-- The first occurrence has nothing before it exactly when the line begins with the pattern. -/
theorem eq_nil_iff_of_cutFirst? {p : Char} {pattern line before after : Line}
    (h : cutFirst? (p :: pattern) line = some (before, after)) :
    before = [] ↔ (p :: pattern) <+: line := by
  cases line with
  | nil => cases h
  | cons c rest =>
    rw [cutFirst?] at h
    cases hafter : after? (p :: pattern) (c :: rest) with
    | some after' =>
      rw [hafter] at h
      obtain ⟨rfl, rfl⟩ : [] = before ∧ after' = after := by simpa using h
      exact iff_of_true rfl ⟨after', (after?_eq_some_iff.mp hafter).symm⟩
    | none =>
      rw [hafter] at h
      obtain ⟨parts, -, hparts⟩ := Option.map_eq_some_iff.mp h
      obtain ⟨rfl, rfl⟩ := Prod.mk.inj hparts
      refine iff_of_false (by simp) ?_
      rintro ⟨after, heq⟩
      cases hafter.symm.trans (after?_eq_some_iff.mpr heq.symm)

end Text

namespace DocComment

/-! ### Cleaning a line -/

theorem dropEnd_append (pattern text : Line) : dropEnd pattern (text ++ pattern) = text := by
  have hafter : after? pattern.reverse (text ++ pattern).reverse = some text.reverse := by
    rw [after?_eq_some_iff, List.reverse_append]
  rw [dropEnd, hafter]
  exact List.reverse_reverse text

theorem mem_dropStart {c : Char} {pattern text : Line} (h : c ∈ text) (hc : c ∉ pattern) :
    c ∈ dropStart pattern text := by
  rw [dropStart]
  cases hafter : after? pattern text with
  | none => exact h
  | some rest =>
    rw [after?_eq_some_iff.mp hafter, List.mem_append] at h
    exact h.resolve_left hc

/-- A cleaned line is empty if it is blank. -/
theorem isBlankLine_cleanBlockLine {line : Line} :
    isBlankLine (cleanBlockLine line) = false ↔ cleanBlockLine line ≠ [] := by
  generalize htext : cleanBlockLine line = text
  rw [cleanBlockLine] at htext
  rw [← htext, isBlankLine_trim, Ne, trim_eq_nil_iff, Bool.not_eq_true]

/-- What is cleaned of a block comment stands behind its opening marker. -/
theorem exists_body {line : Line} (h : ['/', '*'] <+: line) :
    ∃ marker body, line = marker ++ body ∧ (marker = ['/', '*'] ∨ marker = ['/', '*', '*'])
      ∧ cleanBlockLine line = trim (dropStart ['*'] (trim (dropEnd ['*', '/'] body))) := by
  obtain ⟨rest, rfl⟩ := h
  rw [cleanBlockLine]
  cases hafter : after? ['/', '*', '*'] (['/', '*'] ++ rest) with
  | some body => exact ⟨_, body, after?_eq_some_iff.mp hafter, .inr rfl, rfl⟩
  | none => exact ⟨_, rest, rfl, .inl rfl, rfl⟩

/-- **The end of a comment inside a line** survives cleaning: its slash is neither in the opening
    marker of the line nor in the closing one. -/
theorem cleanBlockLine_ne_nil {line inside behind : Line} (hopens : ['/', '*'] <+: line)
    (hcloses : ['*', '/'] <:+ line) (hline : line = inside ++ '*' :: '/' :: behind)
    (hbehind : behind ≠ []) : cleanBlockLine line ≠ [] := by
  obtain ⟨rest, rfl⟩ : ∃ rest, behind = rest ++ ['*', '/'] := by
    obtain ⟨front, hfront⟩ := hcloses
    have heq : front ++ ['*', '/'] = (inside ++ ['*', '/']) ++ behind := by simp [hfront, hline]
    rcases List.append_eq_append_iff.mp heq with ⟨gap, hgap, hmarker⟩ | ⟨gap, -, hgap⟩
    · rcases gap with _ | ⟨c, _ | ⟨d, gap⟩⟩
      · exact ⟨[], hmarker.symm⟩
      · -- the two markers cannot share a character
        obtain ⟨rfl, -⟩ : '*' = c ∧ behind = ['/'] := by simpa [eq_comm] using hmarker
        have hlast := congrArg List.getLast? hgap
        simp at hlast
      · have hlength := congrArg List.length hmarker
        have hpos := List.length_pos_iff.mpr hbehind
        simp only [List.length_append, List.length_cons, List.length_nil] at hlength
        omega
    · exact ⟨gap, hgap⟩
  obtain ⟨marker, body, hbody, hmarker, hclean⟩ := exists_body hopens
  obtain ⟨middle, hmiddle⟩ : ∃ middle, body = (middle ++ '/' :: rest) ++ ['*', '/'] := by
    have heq : marker ++ body = (inside ++ ['*']) ++ ('/' :: rest ++ ['*', '/']) := by
      simp [← hbody, hline]
    rcases List.append_eq_append_iff.mp heq with ⟨middle, -, hmiddle⟩ | ⟨gap, hgap, hslash⟩
    · exact ⟨middle, by simp [hmiddle]⟩
    · cases gap with
      | nil => exact ⟨[], by simpa using hslash.symm⟩
      | cons c gap =>
        obtain ⟨rfl, -⟩ : '/' = c ∧ rest ++ ['*', '/'] = gap ++ body := by simpa using hslash
        -- no opening marker has a slash behind a star
        have hinfix : ['*', '/'] <:+: marker := ⟨inside, gap, by simp [hgap]⟩
        rcases hmarker with rfl | rfl <;> exact absurd hinfix (by decide)
  have hslash : '/' ∈ cleanBlockLine line := by
    rw [hclean, hmiddle, dropEnd_append]
    have hmem : '/' ∈ middle ++ '/' :: rest := by simp
    exact (mem_trim (by decide)).mpr
      (mem_dropStart ((mem_trim (by decide)).mpr hmem) (by decide))
  exact List.ne_nil_of_mem hslash

theorem star_mem_cleanLine {rest inside behind : Line}
    (h : '/' :: '/' :: rest = inside ++ '*' :: '/' :: behind) : '*' ∈ cleanLine rest := by
  have hmem : '*' ∈ rest := by
    have hline : '*' ∈ '/' :: '/' :: rest := by
      rw [h]
      simp
    simpa using hline
  have hsplit : '*' ∈ rest.takeWhile (· == '/') ++ rest.dropWhile (· == '/') := by
    rwa [List.takeWhile_append_dropWhile]
  refine (mem_trim (by decide)).mpr ((List.mem_append.mp hsplit).resolve_left fun htaken => ?_)
  exact absurd (List.mem_takeWhile_imp htaken) (by decide)

/-! ### Reading upwards -/

/-- The opening marker of a block comment is in a line. -/
def HasOpening (line : Line) : Prop := ['/', '*'] <:+: line

/-- A line begins with the opening marker of a block comment. -/
def Opens (line : Line) : Prop := ['/', '*'] <+: trim line

/-- A line ends with the closing marker of a block comment. -/
def Closes (line : Line) : Prop := ['*', '/'] <:+ trim line

instance (line : Line) : Decidable (Closes line) := inferInstanceAs (Decidable (_ <:+ _))

theorem Opens.hasOpening {line : Line} (h : Opens line) : HasOpening line :=
  (isInfix_trim_iff (by decide) (by decide)).mp h.isInfix

theorem blockStep_of_opens {line : Line} (h : Opens line) :
    blockStep (trim line) = .take (cleanBlockLine (trim line)) := by
  cases hcut : cutFirst? ['/', '*'] (trim line) with
  | none => exact absurd h.isInfix (cutFirst?_eq_none_iff.mp hcut)
  | some parts =>
    obtain ⟨before, after⟩ := parts
    obtain rfl : before = [] := (eq_nil_iff_of_cutFirst? hcut).mpr h
    rw [blockStep, hcut]

theorem blockStep_of_not_hasOpening {line : Line} (h : ¬ HasOpening line) :
    blockStep (trim line) = .enter (cleanBlockLine (trim line)) := by
  have hcut : cutFirst? ['/', '*'] (trim line) = none :=
    cutFirst?_eq_none_iff.mpr fun hin => h ((isInfix_trim_iff (by decide) (by decide)).mp hin)
  rw [blockStep, hcut]

theorem blockStep_eq_stop {line : Line} (h : HasOpening line) (hopens : ¬ Opens line) :
    blockStep (trim line) = .stop := by
  cases hcut : cutFirst? ['/', '*'] (trim line) with
  | none =>
    exact absurd ((isInfix_trim_iff (by decide) (by decide)).mpr h)
      (cutFirst?_eq_none_iff.mp hcut)
  | some parts =>
    obtain ⟨before, after⟩ := parts
    cases before with
    | nil => exact absurd ((eq_nil_iff_of_cutFirst? hcut).mp rfl) hopens
    | cons c before => rw [blockStep, hcut]

/-- **A block comment is read** up to the nearest line with an opening marker, which must begin with
    it. -/
theorem mem_collect_some_iff {pending rest : List Line} {text : Line} :
    text ∈ collect (some pending) rest ↔ ∃ inner top others, rest = inner ++ top :: others
      ∧ (∀ line ∈ inner, ¬ HasOpening line) ∧ Opens top
      ∧ (text ∈ pending ∨ (∃ line ∈ inner ++ [top], text = cleanBlockLine (trim line))
        ∨ text ∈ collect none others) := by
  induction rest generalizing pending with
  | nil => simp [collect]
  | cons line rest ih =>
    by_cases hopening : HasOpening line
    · by_cases hopens : Opens line
      · rw [collect, blockStep_of_opens hopens]
        constructor
        · intro htext
          refine ⟨[], line, rest, rfl, by simp, hopens, ?_⟩
          simpa using htext
        · rintro ⟨inner, top, others, heq, hinner, -, htext⟩
          rcases List.cons_eq_append_iff.mp heq with ⟨rfl, heq⟩ | ⟨inner, rfl, -⟩
          · obtain ⟨rfl, rfl⟩ := List.cons.inj heq
            simpa using htext
          · exact absurd hopening (hinner _ List.mem_cons_self)
      · rw [collect, blockStep_eq_stop hopening hopens]
        refine iff_of_false List.not_mem_nil ?_
        rintro ⟨inner, top, others, heq, hinner, htop, -⟩
        rcases List.cons_eq_append_iff.mp heq with ⟨rfl, heq⟩ | ⟨inner, rfl, -⟩
        · exact hopens ((List.cons.inj heq).1 ▸ htop)
        · exact hinner _ List.mem_cons_self hopening
    · rw [collect, blockStep_of_not_hasOpening hopening]
      -- the text of the line is pending after the step, and that of an inner line before it
      have hmove : ∀ inner top others,
          (text ∈ pending ++ [cleanBlockLine (trim line)]
            ∨ (∃ other ∈ inner ++ [top], text = cleanBlockLine (trim other))
            ∨ text ∈ collect none others)
          ↔ (text ∈ pending
            ∨ (∃ other ∈ line :: inner ++ [top], text = cleanBlockLine (trim other))
            ∨ text ∈ collect none others) := by
        intro inner top others
        simp [or_assoc]
      simp only [ih]
      constructor
      · rintro ⟨inner, top, others, rfl, hinner, htop, htext⟩
        exact ⟨line :: inner, top, others, rfl, List.forall_mem_cons.mpr ⟨hopening, hinner⟩, htop,
          (hmove inner top others).mp htext⟩
      · rintro ⟨inner, top, others, heq, hinner, htop, htext⟩
        rcases List.cons_eq_append_iff.mp heq with ⟨rfl, heq⟩ | ⟨inner, rfl, rfl⟩
        · exact absurd ((List.cons.inj heq).1 ▸ htop.hasOpening) hopening
        · exact ⟨inner, top, others, rfl, (List.forall_mem_cons.mp hinner).2, htop,
            (hmove inner top others).mpr htext⟩

theorem mem_intercalate_of_mem {separator text : Line} {texts : List Line} {c : Char}
    (h : text ∈ texts) (hc : c ∈ text) : c ∈ separator.intercalate texts := by
  induction texts with
  | nil => cases h
  | cons first texts ih =>
    cases texts with
    | nil => simp_all
    | cons next texts =>
      rw [List.intercalate_cons_cons, List.mem_append]
      rcases List.mem_cons.mp h with rfl | h
      · exact .inl (List.mem_append_left _ hc)
      · exact .inr (ih h)

/-- **Documentation is found** when a line of the comment has any text. -/
theorem above?_ne_none_iff {lines : List Line} {number : Nat} :
    above? lines number ≠ none
      ↔ ∃ text ∈ collect none (lines.take number).reverse, isBlankLine text = false := by
  generalize htexts : collect none (lines.take number).reverse = texts
  have hdoc : above? lines number ≠ none
      ↔ isBlankLine (['\n'].intercalate texts.reverse) = false := by
    rw [above?, htexts, ← Bool.not_eq_true, ← trim_eq_nil_iff]
    split <;> simp_all
  rw [hdoc]
  simp only [isBlankLine, List.all_eq_false, Bool.not_eq_true]
  constructor
  · rintro ⟨c, hc, hblank⟩
    rcases ModuleSyntax.mem_intercalate hc with hbreak | ⟨text, htext, hc⟩
    · obtain rfl : c = '\n' := by simpa using hbreak
      exact absurd hblank (by decide)
    · exact ⟨text, List.mem_reverse.mp htext, c, hc, hblank⟩
  · rintro ⟨text, htext, c, hc, hblank⟩
    exact ⟨c, mem_intercalate_of_mem (List.mem_reverse.mpr htext) hc, hblank⟩

/-! ### The lowest line -/

theorem collect_of_slashes {line rest : Line} (h : trim line = '/' :: '/' :: rest)
    (above : List Line) : collect none (line :: above) = cleanLine rest :: collect none above := by
  rw [collect, lineStep, h]
  rfl

/-- Without the marker of a line comment, a line has to end a block comment, and is then read like
    a line inside of one. -/
theorem lineStep_eq {line : Line} (h : ¬ ['/', '/'] <+: trim line) :
    lineStep (trim line) = if Closes line then blockStep (trim line) else .stop := by
  have hafter : after? ['/', '/'] (trim line) = none := by
    cases hafter : after? ['/', '/'] (trim line) with
    | none => rfl
    | some rest => exact absurd ⟨rest, (after?_eq_some_iff.mp hafter).symm⟩ h
  have hcloses : (after? ['/', '*'] (trim line).reverse).isSome = true ↔ Closes line := by
    rw [Option.isSome_iff_exists, Closes, ← List.reverse_prefix]
    exact exists_congr fun rest => after?_eq_some_iff.trans eq_comm
  rw [lineStep, hafter]
  by_cases h : Closes line
  · rw [if_pos h]
    exact if_pos (hcloses.mpr h)
  · rw [if_neg h]
    exact if_neg (mt hcloses.mp h)

theorem collect_of_not_closes {line : Line} (h : ¬ ['/', '/'] <+: trim line)
    (hcloses : ¬ Closes line) (above : List Line) : collect none (line :: above) = [] := by
  rw [collect, lineStep_eq h, if_neg hcloses]

theorem collect_of_closes {line : Line} (h : ¬ ['/', '/'] <+: trim line) (hcloses : Closes line)
    (above : List Line) : collect none (line :: above) = collect (some []) (line :: above) := by
  rw [collect, lineStep_eq h, if_pos hcloses]
  rfl

section Lowest

variable {lines : List Line} {n : Nat} {line : Line}

theorem reverse_take_succ (hline : lines[n]? = some line) :
    (lines.take (n + 1)).reverse = line :: (lines.take n).reverse := by
  rw [List.take_add_one, hline, Option.toList_some, List.reverse_append, List.reverse_singleton,
    List.singleton_append]

theorem above?_eq_none (hline : lines[n]? = some line) (h : ¬ ['/', '/'] <+: trim line)
    (hcloses : ¬ Closes line) : above? lines (n + 1) = none := by
  rw [← not_ne_iff, above?_ne_none_iff, reverse_take_succ hline, collect_of_not_closes h hcloses]
  simp

/-- **A block comment documents** when a line of it has any text, or a comment above it has. -/
theorem above?_of_closes (hline : lines[n]? = some line) (h : ¬ ['/', '/'] <+: trim line)
    (hcloses : Closes line) :
    above? lines (n + 1) ≠ none
      ↔ ∃ before top inner, lines.take (n + 1) = before ++ top :: inner ∧ Opens top
        ∧ (∀ other ∈ inner, ¬ HasOpening other)
        ∧ ((∃ other ∈ top :: inner, cleanBlockLine (trim other) ≠ [])
          ∨ above? lines before.length ≠ none) := by
  have hbefore : ∀ {before top inner}, lines.take (n + 1) = before ++ top :: inner →
      lines.take before.length = before := by
    intro before top inner heq
    have hfront : before <+: lines := (heq ▸ List.prefix_append ..).trans (List.take_prefix ..)
    exact (List.prefix_iff_eq_take.mp hfront).symm
  rw [above?_ne_none_iff, reverse_take_succ hline, collect_of_closes h hcloses,
    ← reverse_take_succ hline]
  simp only [mem_collect_some_iff]
  constructor
  · rintro ⟨text, ⟨inner, top, others, heq, hinner, htop, htext⟩, hblank⟩
    have hlines : lines.take (n + 1) = others.reverse ++ top :: inner.reverse := by
      rw [List.reverse_eq_iff.mp heq]
      simp
    refine ⟨others.reverse, top, inner.reverse, hlines, htop,
      fun other hother => hinner other (List.mem_reverse.mp hother), ?_⟩
    rcases htext with hnil | ⟨other, hother, rfl⟩ | htext
    · cases hnil
    · exact .inl ⟨other, by simpa [or_comm] using hother, isBlankLine_cleanBlockLine.mp hblank⟩
    · refine .inr (above?_ne_none_iff.mpr ⟨text, ?_, hblank⟩)
      rwa [hbefore hlines, List.reverse_reverse]
  · rintro ⟨before, top, inner, hlines, htop, hinner, htext⟩
    have heq : (lines.take (n + 1)).reverse = inner.reverse ++ top :: before.reverse := by
      rw [hlines]
      simp
    have hinner : ∀ other ∈ inner.reverse, ¬ HasOpening other :=
      fun other hother => hinner other (List.mem_reverse.mp hother)
    rcases htext with ⟨other, hother, htext⟩ | habove
    · refine ⟨_, ⟨_, _, _, heq, hinner, htop, .inr (.inl ⟨other, ?_, rfl⟩)⟩,
        isBlankLine_cleanBlockLine.mpr htext⟩
      simpa [or_comm] using hother
    · obtain ⟨text, htext, hblank⟩ := above?_ne_none_iff.mp habove
      rw [hbefore hlines] at htext
      exact ⟨text, ⟨_, _, _, heq, hinner, htop, .inr (.inr htext)⟩, hblank⟩

/-! ### Lines with code -/

theorem getElem?_maskComments (hline : lines[n]? = some line) :
    (maskComments lines)[n]?
      = some (uncommented (if commentBelow false (lines.take n) then .comment else .code)
        line) := by
  obtain ⟨hn, rfl⟩ := List.getElem?_eq_some_iff.mp hline
  have hsplit : lines.take n ++ lines[n] :: lines.drop (n + 1) = lines := by
    rw [← List.drop_eq_getElem_cons hn, List.take_append_drop]
  have hmarks := markLines_append false (lines.take n) (lines[n] :: lines.drop (n + 1))
  rw [hsplit, markLines] at hmarks
  have hlength : (markLines false (lines.take n)).length = n := by
    have htaken := length_maskComments (lines.take n)
    rwa [maskComments, List.length_map, List.length_take, Nat.min_eq_left hn.le] at htaken
  rw [maskComments, List.getElem?_map, hmarks, List.getElem?_append_right (Nat.le_of_eq hlength),
    hlength, Nat.sub_self]
  rfl

variable {zone : Zone} (hzone : zone = .code ∨ zone = .comment)
  (hcode : isBlankLine (uncommented zone line) = false)

include hzone hcode

/-- Code on a line that begins with two slashes is taken: it stands behind the end of a comment. -/
theorem above?_of_slashes (hline : lines[n]? = some line) (h : ['/', '/'] <+: trim line) :
    above? lines (n + 1) ≠ none := by
  obtain ⟨inside, behind, heq, -⟩ :=
    exists_closed_of_code hzone hcode (.inl (eq_comment_of_slashes hzone hcode h))
  obtain ⟨rest, hrest⟩ := h
  have hstar : '*' ∈ cleanLine rest := star_mem_cleanLine (hrest.trans heq)
  rw [above?_ne_none_iff, reverse_take_succ hline, collect_of_slashes hrest.symm]
  refine ⟨_, List.mem_cons_self, List.all_eq_false.mpr ⟨'*', hstar, by decide⟩⟩

/-- Code between the markers of block comments is taken. -/
theorem above?_of_opens (hline : lines[n]? = some line) (hopens : Opens line)
    (hcloses : Closes line) : above? lines (n + 1) ≠ none := by
  obtain ⟨inside, behind, heq, hbehind⟩ := exists_closed_of_code hzone hcode (.inr hopens)
  have hslashes : ¬ ['/', '/'] <+: trim line := by
    obtain ⟨rest, hrest⟩ := hopens
    rintro ⟨rest', hrest'⟩
    simpa using hrest'.trans hrest.symm
  refine (above?_of_closes hline hslashes hcloses).mpr ⟨lines.take n, line, [], ?_, hopens, by simp,
    .inl ⟨line, List.mem_cons_self, cleanBlockLine_ne_nil hopens hcloses heq hbehind⟩⟩
  rw [List.take_add_one, hline, Option.toList_some]

end Lowest

/-- **Which code is taken for documentation.**  A line with code is taken exactly when it begins
    with two slashes, or when it ends with a closing marker, the nearest line from it upwards that
    has an opening marker begins with it, and there is any text from this line on or above it.
    Between the two markers, code is always taken.  Two slashes stand before code only where the
    line begins inside a block comment; so a line that does not, and does not end with a closing
    marker, is never taken. -/
theorem code_documents_iff (lines : List Line) (n : Nat) {line code : Line}
    (hline : lines[n]? = some line) (hmask : (maskComments lines)[n]? = some code)
    (hcode : isBlankLine code = false) :
    (above? lines (n + 1) ≠ none
        ↔ ['/', '/'] <+: trim line
          ∨ (Closes line ∧ ∃ before top inner, lines.take (n + 1) = before ++ top :: inner
            ∧ Opens top ∧ (∀ other ∈ inner, ¬ HasOpening other)
            ∧ ((∃ other ∈ top :: inner, cleanBlockLine (trim other) ≠ [])
              ∨ above? lines before.length ≠ none)))
      ∧ (Opens line → Closes line → above? lines (n + 1) ≠ none)
      ∧ (['/', '/'] <+: trim line → commentBelow false (lines.take n) = true)
      ∧ (commentBelow false (lines.take n) = false → ¬ Closes line →
          above? lines (n + 1) = none) := by
  obtain rfl := Option.some.inj ((getElem?_maskComments hline).symm.trans hmask)
  have hzone : (if commentBelow false (lines.take n) then Zone.comment else .code) = .code
      ∨ (if commentBelow false (lines.take n) then Zone.comment else .code) = .comment := by
    split <;> simp
  have hinside : ['/', '/'] <+: trim line → commentBelow false (lines.take n) = true := by
    intro h
    have hcomment := eq_comment_of_slashes hzone hcode h
    split at hcomment
    · assumption
    · cases hcomment
  refine ⟨?_, above?_of_opens hzone hcode hline, hinside, fun houtside hcloses => ?_⟩
  · by_cases hslashes : ['/', '/'] <+: trim line
    · exact iff_of_true (above?_of_slashes hzone hcode hline hslashes) (.inl hslashes)
    · by_cases hcloses : Closes line
      · rw [above?_of_closes hline hslashes hcloses, or_iff_right hslashes, and_iff_right hcloses]
      · refine iff_of_false (not_ne_iff.mpr (above?_eq_none hline hslashes hcloses)) ?_
        rintro (h | ⟨h, -⟩)
        · exact hslashes h
        · exact hcloses h
  · refine above?_eq_none hline (fun h => ?_) hcloses
    cases houtside.symm.trans (hinside h)

/-- Code behind the end of a comment is not taken. -/
theorem code_behind_comment :
    (maskComments ["/* a".toList, "*/ x = 1".toList])[1]? = some "   x = 1".toList
      ∧ isBlankLine "   x = 1".toList = false
      ∧ above? ["/* a".toList, "*/ x = 1".toList] 2 = none := by
  have hmask : (maskComments ["/* a".toList, "*/ x = 1".toList])[1]? = some "   x = 1".toList := by
    decide
  have hcode : isBlankLine "   x = 1".toList = false := by decide
  have htaken := (code_documents_iff _ 1 rfl hmask hcode).1
  have hslashes : ¬ ['/', '/'] <+: trim "*/ x = 1".toList := by decide
  have hcloses : ¬ Closes "*/ x = 1".toList := by decide
  exact ⟨hmask, hcode, not_ne_iff.mp fun h => (htaken.mp h).elim hslashes fun h => hcloses h.1⟩

/-- Code between two comments is taken, and so are code behind a comment that begins with slashes
    and code before a comment that ends with a closing marker. -/
theorem code_taken :
    ((maskComments ["/* a */ x = 1 /* b */".toList])[0]?
          = some "        x = 1        ".toList
        ∧ above? ["/* a */ x = 1 /* b */".toList] 1 = some "a */ x = 1 /* b")
      ∧ ((maskComments ["/*".toList, "// */ x = 1".toList])[1]? = some "      x = 1".toList
        ∧ above? ["/*".toList, "// */ x = 1".toList] 2 = some "*/ x = 1")
      ∧ (maskComments ["/* a */".toList, "x = 1 // */".toList])[1]? = some "x = 1      ".toList
        ∧ above? ["/* a */".toList, "x = 1 // */".toList] 2 = some "a\nx = 1 //" := by
  refine ⟨⟨?_, ?_⟩, ⟨?_, ?_⟩, ?_, ?_⟩ <;> decide

end DocComment

end ScriptServer

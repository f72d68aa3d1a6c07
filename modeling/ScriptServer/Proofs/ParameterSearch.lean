import ScriptServer.Proofs.ParameterList
import ScriptServer.Proofs.Text.Adjacent

namespace ScriptServer

/-!
# The search for parameters

The names of a list are taken from its text, their places from its code: each name is looked for
behind the one before it.  What stands between the two, such as a default value, is searched as well.

* `StandsIn` — a word occurs in a text, and not as part of a longer one.
* `exists_finds` — what is found is an occurrence, and none is passed over.
* `Misled` — on the way to some parameter its name occurs in another role.
* `locateParameters_of_not_misled`, `exists_before_of_misled` — a search that is not misled finds all
  identifiers, one that is misled does not.
-/

open Text

/-- The span of a word that begins at a spot. -/
def Spot.span (spot : Spot) (word : Line) : Span :=
  ⟨spot.line, spot.offset, spot.offset + size word⟩

namespace Declaration

/-! ### Words in a line -/

/-- A word between these two texts is not part of a longer identifier. -/
def Whole (before after : List Char) : Prop :=
  (∀ c ∈ before.getLast?, isIdent c = false) ∧ ∀ c ∈ after.head?, isIdent c = false

/-- A word occurs somewhere in a text, and not as part of a longer identifier. -/
def StandsIn (word text : List Char) : Prop :=
  ∃ before after, text = before ++ word ++ after ∧ Whole before after

instance (before after : List Char) : Decidable (Whole before after) :=
  decidable_of_iff (before.getLast?.any isIdent = false ∧ after.head?.any isIdent = false)
    (by rw [Option.any_eq_false, Option.any_eq_false]; rfl)

theorem standsIn_iff {word text : List Char} :
    StandsIn word text ↔ ∃ i ∈ List.range (text.length + 1),
      (text.drop i).take word.length = word ∧ Whole (text.take i) (text.drop (i + word.length)) := by
  constructor
  · rintro ⟨before, after, rfl, hwhole⟩
    have hlength : before.length < (before ++ word ++ after).length + 1 := by
      simp only [List.length_append]
      omega
    refine ⟨before.length, List.mem_range.mpr hlength, ?_, ?_⟩
    · rw [List.append_assoc, List.drop_left, List.take_left]
    · rw [← List.length_append, List.drop_left, List.append_assoc, List.take_left]
      exact hwhole
  · rintro ⟨i, -, hword, hwhole⟩
    refine ⟨_, _, ?_, hwhole⟩
    calc text = text.take i ++ text.drop i := (List.take_append_drop i text).symm
      _ = text.take i ++ ((text.drop i).take word.length ++ (text.drop i).drop word.length) := by
        rw [List.take_append_drop word.length]
      _ = text.take i ++ word ++ text.drop (i + word.length) := by
        rw [hword, List.drop_drop, List.append_assoc]

instance (word text : List Char) : Decidable (StandsIn word text) :=
  decidable_of_iff ((List.range (text.length + 1)).any (fun i =>
      decide ((text.drop i).take word.length = word
        ∧ Whole (text.take i) (text.drop (i + word.length)))) = true)
    (by simp only [standsIn_iff, List.any_eq_true, decide_eq_true_eq])

theorem Whole.of_append_left {front before after : List Char} (h : Whole (front ++ before) after) :
    Whole before after :=
  ⟨fun c hc => h.1 c (List.mem_getLast?_append_of_mem_getLast? hc), h.2⟩

theorem Whole.of_append_right {before after rest : List Char} (h : Whole before (after ++ rest)) :
    Whole before after :=
  ⟨h.1, fun c hc => h.2 c (List.mem_head?_append_of_mem_head? hc)⟩

/-- The test that an occurrence has to pass. -/
theorem not_any_isIdent_iff {previous : Option Char} {after : Line} :
    ¬ (previous.any isIdent || after.head?.any isIdent) = true
      ↔ Whole previous.toList after := by
  rw [Bool.or_eq_true, not_or, Bool.not_eq_true, Bool.not_eq_true, Option.any_eq_false,
    Option.any_eq_false]
  refine and_congr_left fun _ => ?_
  cases previous <;> simp

/-- What is found in a line is the word. -/
theorem findWhole?_eq_some {word line before after : Line} {skip : Nat} {previous : Option Char}
    (h : findWhole? word skip previous line = some (before, after)) :
    line = before ++ word ++ after ∧ Whole (previous.toList ++ before) after := by
  induction line generalizing skip previous before with
  | nil => cases skip <;> cases h
  | cons c rest ih =>
    -- one character is passed over
    have hpast : ∀ {skip}, (findWhole? word skip (some c) rest).map
          (fun parts => (c :: parts.1, parts.2)) = some (before, after) →
        c :: rest = before ++ word ++ after ∧ Whole (previous.toList ++ before) after := by
      intro skip hmap
      obtain ⟨⟨before', after'⟩, hfound, heq⟩ := Option.map_eq_some_iff.mp hmap
      obtain ⟨rfl, rfl⟩ := Prod.mk.inj heq
      obtain ⟨rfl, hwhole⟩ := ih hfound
      refine ⟨rfl, ?_, hwhole.2⟩
      rw [List.getLast?_append_of_ne_nil _ (by simp)]
      exact hwhole.1
    cases skip with
    | succ skip => exact hpast h
    | zero =>
      rw [findWhole?] at h
      split at h
      next after' hafter =>
        split at h
        next => exact hpast h
        next hwhole =>
          cases h
          rw [List.append_nil]
          exact ⟨after?_eq_some_iff.mp hafter, not_any_isIdent_iff.mp hwhole⟩
      next => exact hpast h

/-- A word at the beginning of a text does not go beyond a character that is no part of it. -/
theorem exists_append_of_getLast? {word rest front behind : List Char} (hne : front ≠ [])
    (hlast : ∀ c ∈ front.getLast?, c ∉ word) (h : word ++ rest = front ++ behind) :
    ∃ more, front = word ++ more ∧ rest = more ++ behind := by
  rcases List.append_eq_append_iff.mp h with ⟨more, hfront, hrest⟩ | ⟨more, hword, -⟩
  · exact ⟨more, hfront, hrest⟩
  · have hmem : front.getLast hne ∈ word := by
      rw [hword]
      exact List.mem_append_left _ (List.getLast_mem hne)
    exact absurd hmem (hlast _ (List.getLast?_eq_getLast_of_ne_nil hne))

/-- An occurrence is found, unless another one before it is.  The character before it must not belong
    to the word, or an occurrence that is refused could reach into this one. -/
theorem exists_findWhole? {word : Line} (hne : word ≠ []) {before after : Line}
    (hword : ∀ c ∈ before.getLast?, c ∉ word) {skip : Nat} (hskip : skip ≤ before.length)
    (previous : Option Char) (hwhole : Whole (previous.toList ++ before) after) :
    ∃ found rest, findWhole? word skip previous (before ++ word ++ after) = some (found, rest)
      ∧ found <+: before := by
  induction before generalizing skip previous with
  | nil =>
    obtain rfl : skip = 0 := Nat.le_zero.mp hskip
    obtain ⟨c, rest, rfl⟩ := List.exists_cons_of_ne_nil hne
    have hafter : after? (c :: rest) (c :: (rest ++ after)) = some after :=
      after?_eq_some_iff.mpr rfl
    rw [List.append_nil] at hwhole
    refine ⟨[], after, ?_, List.prefix_rfl⟩
    rw [List.nil_append, List.cons_append, findWhole?, hafter]
    exact if_neg (not_any_isIdent_iff.mpr hwhole)
  | cons c before ih =>
    have hrest : Whole ((some c).toList ++ before) after := by
      refine ⟨?_, hwhole.2⟩
      have h := hwhole.1
      rwa [List.getLast?_append_of_ne_nil _ (by simp)] at h
    have hlast : ∀ d ∈ before.getLast?, d ∉ word := by
      intro d hd
      refine hword d ?_
      cases before with
      | nil => cases hd
      | cons => exact hd
    -- the search goes on behind this character
    have hpast : ∀ {skip}, skip ≤ before.length → ∃ found rest,
        (findWhole? word skip (some c) (before ++ word ++ after)).map
            (fun parts => (c :: parts.1, parts.2)) = some (found, rest)
          ∧ found <+: c :: before := by
      intro skip hskip
      obtain ⟨found, rest, hfound, hbegins⟩ := ih hlast hskip (some c) hrest
      exact ⟨c :: found, rest, by rw [hfound]; rfl, (List.prefix_cons_inj c).mpr hbegins⟩
    cases skip with
    | succ skip => exact hpast (Nat.le_of_succ_le_succ hskip)
    | zero =>
      rw [List.cons_append, List.cons_append, findWhole?]
      split
      next rest hafter =>
        split
        next =>
          -- an occurrence that is refused ends before the one that is looked for
          have heq : word ++ rest = (c :: before) ++ (word ++ after) := by
            rw [← after?_eq_some_iff.mp hafter]
            simp
          obtain ⟨more, hmore, -⟩ := exists_append_of_getLast? (by simp) hword heq
          have hlength := congrArg List.length hmore
          rw [List.length_cons, List.length_append] at hlength
          exact hpast (by omega)
        next => exact ⟨[], rest, rfl, List.nil_prefix⟩
      next => exact hpast (Nat.zero_le _)

/-! ### Words in the code of a list -/

theorem Whole.append_newline {before after rest : List Char} (h : Whole before after)
    (hrest : ∀ c ∈ rest.head?, c = '\n') : Whole before (after ++ rest) := by
  refine ⟨h.1, fun c hc => ?_⟩
  cases after with
  | nil =>
    rw [hrest c hc]
    decide
  | cons => exact h.2 c hc

/-- Blanks, of which there is one, may stand before. -/
theorem Whole.append_blank {space before after : List Char} (h : Whole before after)
    (hspace : Blank space) (hne : space ≠ []) (front : List Char) :
    Whole (front ++ (space ++ before)) after := by
  refine ⟨fun c hc => ?_, h.2⟩
  by_cases hbefore : before = []
  · rw [hbefore, List.append_nil, List.getLast?_append_of_ne_nil _ hne] at hc
    exact isIdent_eq_false_of_isBlank
      (List.all_eq_true.mp hspace c (List.mem_of_mem_getLast? hc))
  · rw [List.getLast?_append_of_ne_nil _ (by simp [hbefore]),
      List.getLast?_append_of_ne_nil _ hbefore] at hc
    exact h.1 c hc

/-- A first line of the code, and what follows it. -/
theorem Tiles.exists_eq_append {spot : Spot} {text : List Char} {line offset : Nat} {here : Line}
    {segments : List Segment} (h : Tiles spot text (⟨line, offset, here⟩ :: segments)) :
    ∃ rest, text = here ++ rest ∧ ∀ c ∈ rest.head?, c = '\n' := by
  cases h with
  | last hhere => exact ⟨[], by simp, nofun⟩
  | more hhere hindent h => exact ⟨_, rfl, by simp⟩

/-- The code behind the beginning of its first line. -/
theorem Tiles.drop {spot : Spot} {front here : Line} {text : List Char} {segments : List Segment}
    (h : Tiles spot (front ++ text) (⟨spot.line, spot.offset, front ++ here⟩ :: segments)) :
    Tiles (spot.after front) text (⟨spot.line, spot.offset + size front, here⟩ :: segments) := by
  generalize hfront : front ++ text = whole at h
  generalize hline : front ++ here = line at h
  cases h with
  | last hhere =>
    subst hline
    obtain rfl := List.append_cancel_left hfront
    rw [List.mem_append, not_or] at hhere
    rw [Spot.after_of_not_mem _ hhere.1]
    exact .last hhere.2
  | more hhere hindent h =>
    subst hline
    rw [List.append_assoc] at hfront
    obtain rfl := List.append_cancel_left hfront
    rw [List.mem_append, not_or] at hhere
    rw [List.append_assoc, Spot.after_append] at h
    rw [Spot.after_of_not_mem _ hhere.1] at h ⊢
    exact .more hhere.2 hindent h

/-- In the code of a text, the word is found behind this beginning of the text. -/
def Finds (word : Line) (spot : Spot) (text : List Char) (segments : List Segment)
    (found : List Char) : Prop :=
  ∃ behind rest, locate? word segments = some ((spot.after found).span word, rest)
    ∧ text = found ++ word ++ behind ∧ Whole found behind
    ∧ Tiles (spot.after (found ++ word)) behind rest

/-- A word that is found on the first line. -/
theorem finds_of_findWhole? {word here found after : Line} {spot : Spot} {text : List Char}
    {segments : List Segment} (h : findWhole? word 0 none here = some (found, after))
    (hhere : '\n' ∉ here) (htiles : Tiles spot text (⟨spot.line, spot.offset, here⟩ :: segments)) :
    Finds word spot text (⟨spot.line, spot.offset, here⟩ :: segments) found := by
  obtain ⟨rfl, hwhole⟩ := findWhole?_eq_some h
  obtain ⟨below, rfl, hbelow⟩ := htiles.exists_eq_append
  have hfound : spot.after found = ⟨spot.line, spot.offset + size found⟩ := by
    refine Spot.after_of_not_mem _ fun hmem => hhere ?_
    simp [hmem]
  refine ⟨after ++ below, ⟨spot.line, spot.offset + size found + size word, after⟩ :: segments, ?_,
    List.append_assoc _ _ _, hwhole.append_newline hbelow, ?_⟩
  · rw [locate?, h, hfound]
    rfl
  · rw [List.append_assoc] at htiles
    have hdrop := htiles.drop
    rw [size_append, ← Nat.add_assoc] at hdrop
    exact hdrop

/-- A word that is found on a line below. -/
theorem Finds.below {word here indent : Line} {spot : Spot} {text found : List Char}
    {segments : List Segment} (hnone : findWhole? word 0 none here = none) (hindent : Blank indent)
    (h : Finds word (spot.after (here ++ '\n' :: indent)) text segments found) :
    Finds word spot (here ++ '\n' :: (indent ++ text))
      (⟨spot.line, spot.offset, here⟩ :: segments) (here ++ '\n' :: indent ++ found) := by
  have hbreak : Blank ('\n' :: indent) := isBlankLine_append (a := ['\n']) rfl hindent
  obtain ⟨behind, rest, hlocate, rfl, hwhole, htiles⟩ := h
  refine ⟨behind, rest, ?_, by simp, ?_, ?_⟩
  · rw [locate?, hnone, hlocate, Spot.after_append _ _ found]
  · have hfront := hwhole.append_blank hbreak (by simp) here
    rwa [← List.append_assoc] at hfront
  · rw [List.append_assoc _ found, Spot.after_append]
    exact htiles

/-- What stands on a line below begins behind the indent of the next line. -/
theorem exists_append_of_mem_newline {here indent : Line} {before text behind : List Char}
    (hhere : '\n' ∉ here) (hindent : Blank indent) (hline : '\n' ∈ before)
    (hbehind : ∀ c ∈ behind.head?, isBlank c = false)
    (h : here ++ '\n' :: (indent ++ text) = before ++ behind) :
    ∃ more, before = here ++ '\n' :: indent ++ more ∧ text = more ++ behind := by
  obtain ⟨front, tail, rfl, hfront⟩ := List.eq_append_cons_of_mem hline
  rw [List.append_assoc, List.cons_append] at h
  obtain ⟨more, hmore, hrest⟩ := exists_append_of_not_mem hhere h
  cases more with
  | nil =>
    rw [List.append_nil] at hmore
    obtain ⟨more, rfl, htext⟩ := exists_eq_append_of_blank hindent hbehind (List.cons.inj hrest).2
    exact ⟨more, by simp [hmore], htext⟩
  | cons c more =>
    obtain ⟨rfl, -⟩ := List.cons.inj hrest
    simp [hmore] at hfront

/-- **A word is found** in the code of a text, at an occurrence of it.  It is not passed over for a
    later one. -/
theorem exists_finds {word : Line} (hne : word ≠ []) (hword : ∀ c ∈ word, isBlank c = false)
    {spot : Spot} {text : List Char} {segments : List Segment} (htiles : Tiles spot text segments)
    {before after : List Char} (htext : text = before ++ word ++ after)
    (hlast : ∀ c ∈ before.getLast?, c ∉ word) (hwhole : Whole before after) :
    ∃ found, found <+: before ∧ Finds word spot text segments found := by
  induction htiles generalizing before with
  | @last spot here hhere =>
    subst htext
    obtain ⟨found, rest, hfound, hbegins⟩ :=
      exists_findWhole? hne hlast (Nat.zero_le _) none hwhole
    exact ⟨found, hbegins, finds_of_findWhole? hfound hhere (.last hhere)⟩
  | @more spot here indent text segments hhere hindent h ih =>
    have htiles := Tiles.more hhere hindent h
    by_cases hline : '\n' ∈ before
    · have hhead : ∀ c ∈ (word ++ after).head?, isBlank c = false := by
        obtain ⟨c, rest, rfl⟩ := List.exists_cons_of_ne_nil hne
        simpa using hword c List.mem_cons_self
      rw [List.append_assoc] at htext
      obtain ⟨more, rfl, rfl⟩ := exists_append_of_mem_newline hhere hindent hline hhead htext
      cases hfirst : findWhole? word 0 none here with
      | some parts =>
        refine ⟨parts.1, ?_, finds_of_findWhole? hfirst hhere htiles⟩
        rw [(findWhole?_eq_some hfirst).1]
        simp only [List.append_assoc]
        exact List.prefix_append _ _
      | none =>
        obtain ⟨found, hbegins, hfinds⟩ := ih (List.append_assoc _ _ _).symm
          (fun c hc => hlast c (List.mem_getLast?_append_of_mem_getLast? hc)) hwhole.of_append_left
        exact ⟨_, (List.prefix_append_right_inj _).mpr hbegins, hfinds.below hfirst hindent⟩
    · -- the occurrence stands on the first line
      have hpiece : '\n' ∉ before ++ word := by
        rw [List.mem_append, not_or]
        exact ⟨hline, fun hmem => absurd (hword _ hmem) (by decide)⟩
      obtain ⟨right, rfl, rfl⟩ := exists_append_of_not_mem hpiece htext.symm
      obtain ⟨found, _, hfound, hbegins⟩ :=
        exists_findWhole? hne hlast (Nat.zero_le _) none hwhole.of_append_right
      exact ⟨found, hbegins, finds_of_findWhole? hfound hhere htiles⟩

/-! ### The search for all parameters -/

theorem Leads.isBlank_getLast? {before : List Char} (h : Leads before) :
    ∀ c ∈ before.getLast?, isBlank c = true := by
  intro c hc
  cases h with
  | blank h => exact List.all_eq_true.mp h c (List.mem_of_mem_getLast? hc)
  | @mutable gap space d hgap hd hspace =>
    have hblank : Blank (d :: space) := by
      refine isBlankLine_append (a := [d]) ?_ hspace
      rcases hd with rfl | rfl <;> rfl
    rw [List.getLast?_append_of_ne_nil _ (by simp), List.getLast?_append_of_ne_nil _ (by simp)] at hc
    exact List.all_eq_true.mp hblank c (List.mem_of_mem_getLast? hc)

theorem Trails.head?_cases {after : List Char} (h : Trails after) :
    ∀ c ∈ after.head?, isBlank c = true ∨ c = '=' := by
  intro c hc
  cases h with
  | blank h => exact .inl (List.all_eq_true.mp h c (List.mem_of_mem_head? hc))
  | @default gap hgap value =>
    cases gap with
    | nil => exact .inr (by simpa using hc.symm)
    | cons d gap =>
      obtain rfl : d = c := by simpa using hc
      exact .inl (List.all_eq_true.mp hgap d List.mem_cons_self)

namespace Piece

variable (piece : Piece) {spot : Spot} {between tail : List Char} {segments : List Segment}

/-- What stands before an identifier ends with a character that is no part of it. -/
theorem getLast?_before (hbetween : ∀ c ∈ between.getLast?, c = ',') :
    ∀ c ∈ (between ++ piece.before).getLast?, isIdent c = false ∧ c ∉ piece.name := by
  intro c hc
  have hcases : isBlank c = true ∨ c = ',' := by
    by_cases hbefore : piece.before = []
    · rw [hbefore, List.append_nil] at hc
      exact .inr (hbetween c hc)
    · rw [List.getLast?_append_of_ne_nil _ hbefore] at hc
      exact .inl (piece.leads.isBlank_getLast? c hc)
  rcases hcases with hblank | rfl
  · exact ⟨isIdent_eq_false_of_isBlank hblank,
      piece.isName.not_mem (isWord_eq_false_of_isBlank hblank)⟩
  · exact ⟨by decide, piece.isName.not_mem (by decide)⟩

/-- What stands behind it begins with a character that does not go on with it. -/
theorem head?_after (htail : ∀ c ∈ tail.head?, c = ',' ∨ c = ')') :
    ∀ c ∈ (piece.after ++ tail).head?, isIdent c = false := by
  intro c hc
  by_cases hafter : piece.after = []
  · rw [hafter, List.nil_append] at hc
    rcases htail c hc with rfl | rfl <;> decide
  · rw [List.head?_append_of_ne_nil _ hafter] at hc
    rcases piece.trails.head?_cases c hc with hblank | rfl
    · exact isIdent_eq_false_of_isBlank hblank
    · decide

theorem isBlank_name : ∀ c ∈ piece.name, isBlank c = false :=
  fun c hc => isBlank_eq_false_of_isWord (piece.isName.isWord c hc)

theorem text_eq_append (between tail : List Char) :
    between ++ piece.text ++ tail
      = between ++ piece.before ++ piece.name ++ (piece.after ++ tail) := by
  simp [Piece.text]

/-- **A parameter is found at its identifier**, unless its name occurs on the way there. -/
theorem exists_locate?_name (htiles : Tiles spot (between ++ piece.text ++ tail) segments)
    (hbetween : ∀ c ∈ between.getLast?, c = ',') (htail : ∀ c ∈ tail.head?, c = ',' ∨ c = ')')
    (hnone : ¬ StandsIn piece.name (between ++ piece.before)) :
    ∃ rest, locate? piece.name segments
        = some ((spot.after (between ++ piece.before)).span piece.name, rest)
      ∧ Tiles (spot.after (between ++ piece.before ++ piece.name)) (piece.after ++ tail) rest := by
  have hlast := piece.getLast?_before hbetween
  have hwhole : Whole (between ++ piece.before) (piece.after ++ tail) :=
    ⟨fun c hc => (hlast c hc).1, piece.head?_after htail⟩
  obtain ⟨found, ⟨gap, hgap⟩, behind, rest, hlocate, heq, hfoundWhole, hrest⟩ :=
    exists_finds piece.isName.ne_nil piece.isBlank_name htiles
      (piece.text_eq_append between tail) (fun c hc => (hlast c hc).2) hwhole
  rw [piece.text_eq_append, ← hgap, List.append_assoc, List.append_assoc, List.append_assoc,
    List.append_cancel_left_eq] at heq
  by_cases hempty : gap = []
  · subst hempty
    obtain rfl : piece.after ++ tail = behind := List.append_cancel_left heq
    rw [List.append_nil] at hgap
    subst hgap
    exact ⟨rest, hlocate, hrest⟩
  · -- the name would stand before its own place
    obtain ⟨more, rfl, rfl⟩ := exists_append_of_getLast? hempty
      (fun c hc => (hlast c (by rw [← hgap]; exact List.mem_getLast?_append_of_mem_getLast? hc)).2)
      heq.symm
    refine absurd ⟨found, more, ?_, hfoundWhole.of_append_right⟩ hnone
    rw [← hgap, List.append_assoc]

/-- **A parameter is found before its identifier** if its name occurs on the way there.  The name is
    one that is told apart from longer words. -/
theorem exists_locate?_before (htiles : Tiles spot (between ++ piece.text ++ tail) segments)
    (hbetween : ∀ c ∈ between.getLast?, c = ',') (hident : ∀ c ∈ piece.name, isIdent c = true)
    (hstands : StandsIn piece.name (between ++ piece.before)) :
    ∃ found behind rest,
      locate? piece.name segments = some ((spot.after found).span piece.name, rest)
        ∧ between ++ piece.text ++ tail = found ++ piece.name ++ behind
        ∧ found.length < (between ++ piece.before).length := by
  obtain ⟨before, after, heq, hwhole⟩ := hstands
  have hlast := piece.getLast?_before hbetween
  rw [heq] at hlast
  -- the occurrence does not reach up to the identifier
  have hafter : after ≠ [] := by
    rintro rfl
    rw [List.append_nil, List.getLast?_append_of_ne_nil _ piece.isName.ne_nil] at hlast
    have hmem := List.getLast_mem piece.isName.ne_nil
    exact (hlast _ (List.getLast?_eq_getLast_of_ne_nil piece.isName.ne_nil)).2 hmem
  have htext : between ++ piece.text ++ tail
      = before ++ piece.name ++ (after ++ (piece.name ++ (piece.after ++ tail))) := by
    rw [piece.text_eq_append, heq]
    simp
  have hwhole' : Whole before (after ++ (piece.name ++ (piece.after ++ tail))) := by
    refine ⟨hwhole.1, fun c hc => hwhole.2 c ?_⟩
    rwa [List.head?_append_of_ne_nil _ hafter] at hc
  have hapart : ∀ c ∈ before.getLast?, c ∉ piece.name := by
    intro c hc hmem
    have hno := hwhole.1 c hc
    rw [hident c hmem] at hno
    cases hno
  obtain ⟨found, hbegins, behind, rest, hlocate, hfound, -, -⟩ :=
    exists_finds piece.isName.ne_nil piece.isBlank_name htiles htext hapart hwhole'
  refine ⟨found, behind, rest, hlocate, hfound, ?_⟩
  have hle := hbegins.length_le
  have hpos := List.length_pos_of_ne_nil piece.isName.ne_nil
  rw [heq]
  simp only [List.length_append]
  omega

/-- The spans of the identifiers in pieces that stand one behind the other, with commas between
    them. -/
def spans : Spot → List Piece → List Span
  | _, [] => []
  | spot, piece :: pieces =>
    (spot.after piece.before).span piece.name :: spans (spot.after (piece.text ++ [','])) pieces

end Piece

/-- On the way to some parameter its name occurs in another role, where `between` is what the search
    passes over before the first piece.  The search for a parameter begins behind the identifier of
    the one before it. -/
def Misled : List Char → List Piece → Prop
  | _, [] => False
  | between, piece :: pieces =>
    StandsIn piece.name (between ++ piece.before) ∨ Misled (piece.after ++ [',']) pieces

instance decidableMisled : (between : List Char) → (pieces : List Piece) →
    Decidable (Misled between pieces)
  | _, [] => inferInstanceAs (Decidable False)
  | between, piece :: pieces =>
    have := decidableMisled (piece.after ++ [',']) pieces
    inferInstanceAs (Decidable (StandsIn piece.name (between ++ piece.before) ∨ _))

/-- Pieces up to the parenthesis that closes their list. -/
def Piece.closed (pieces : List Piece) : List Char :=
  [','].intercalate (pieces.map Piece.text) ++ [')']

theorem Piece.exists_closed_cons (piece : Piece) (pieces : List Piece) :
    ∃ tail, closed (piece :: pieces) = piece.text ++ tail
      ∧ (∀ c ∈ tail.head?, c = ',' ∨ c = ')')
      ∧ (pieces ≠ [] → tail = ',' :: closed pieces) := by
  cases pieces with
  | nil => exact ⟨[')'], by simp [closed], by simp, fun h => absurd rfl h⟩
  | cons next pieces =>
    refine ⟨',' :: closed (next :: pieces), ?_, by simp, fun _ => rfl⟩
    rw [closed, List.map_cons, List.map_cons, List.intercalate_cons_cons]
    simp [closed]

/-- **A search that is not misled** finds every parameter at its identifier. -/
theorem locateParameters_of_not_misled {pieces : List Piece} {spot : Spot} {between : List Char}
    {segments : List Segment} (htiles : Tiles spot (between ++ Piece.closed pieces) segments)
    (hbetween : ∀ c ∈ between.getLast?, c = ',') (h : ¬ Misled between pieces) :
    (locateParameters segments (pieces.map Piece.name)).map (·.2)
      = (Piece.spans (spot.after between) pieces).map some := by
  induction pieces generalizing spot between segments with
  | nil => rfl
  | cons piece pieces ih =>
    rw [Misled, not_or] at h
    obtain ⟨tail, htail, hhead, hmore⟩ := piece.exists_closed_cons pieces
    rw [htail, ← List.append_assoc] at htiles
    obtain ⟨rest, hlocate, hrest⟩ := piece.exists_locate?_name htiles hbetween hhead h.1
    rw [List.map_cons, locateParameters, hlocate]
    rw [Piece.spans, List.map_cons, List.map_cons, ← Spot.after_append]
    refine congrArg _ ?_
    cases pieces with
    | nil => rfl
    | cons next pieces =>
      rw [hmore (by simp), List.append_cons] at hrest
      rw [ih hrest (by simp) h.2]
      simp only [← Spot.after_append, Piece.text, List.append_assoc]

/-- **A search that is misled** finds some parameter before its identifier. -/
theorem exists_before_of_misled {pieces : List Piece}
    (hident : ∀ piece ∈ pieces, ∀ c ∈ piece.name, isIdent c = true) {spot : Spot}
    {between : List Char} {segments : List Segment}
    (htiles : Tiles spot (between ++ Piece.closed pieces) segments)
    (hbetween : ∀ c ∈ between.getLast?, c = ',') (h : Misled between pieces) :
    ∃ (i : Nat) (name : Line) (found own behind behind' : List Char), IsName name
      ∧ ((locateParameters segments (pieces.map Piece.name)).map (·.2))[i]?
        = some (some ((spot.after found).span name))
      ∧ (Piece.spans (spot.after between) pieces)[i]? = some ((spot.after own).span name)
      ∧ between ++ Piece.closed pieces = found ++ name ++ behind
      ∧ between ++ Piece.closed pieces = own ++ name ++ behind'
      ∧ found.length < own.length := by
  induction pieces generalizing spot between segments with
  | nil => cases h
  | cons piece pieces ih =>
    obtain ⟨hident, hidents⟩ := List.forall_mem_cons.mp hident
    obtain ⟨tail, htail, hhead, hmore⟩ := piece.exists_closed_cons pieces
    rw [htail, ← List.append_assoc] at htiles ⊢
    rw [Piece.spans, ← Spot.after_append, List.map_cons, locateParameters]
    by_cases hstands : StandsIn piece.name (between ++ piece.before)
    · obtain ⟨found, behind, rest, hlocate, heq, hlt⟩ :=
        piece.exists_locate?_before htiles hbetween hident hstands
      refine ⟨0, piece.name, found, between ++ piece.before, behind, piece.after ++ tail,
        piece.isName, ?_, rfl, heq, piece.text_eq_append between tail, hlt⟩
      rw [hlocate]
      rfl
    · obtain ⟨rest, hlocate, hrest⟩ := piece.exists_locate?_name htiles hbetween hhead hstands
      cases pieces with
      | nil => exact absurd h (not_or.mpr ⟨hstands, id⟩)
      | cons next pieces =>
        rw [hmore (by simp), List.append_cons] at hrest
        obtain ⟨i, name, found, own, behind, behind', hname, hfound, hown, heq, heq', hlt⟩ :=
          ih hidents hrest (by simp) (h.resolve_left hstands)
        -- seen from the beginning of the list
        have hfront : between ++ piece.text ++ tail = between ++ piece.before ++ piece.name
            ++ (piece.after ++ [','] ++ Piece.closed (next :: pieces)) := by
          rw [hmore (by simp)]
          simp [Piece.text]
        refine ⟨i + 1, name, between ++ piece.before ++ piece.name ++ found,
          between ++ piece.before ++ piece.name ++ own, behind, behind', hname, ?_, ?_, ?_, ?_, ?_⟩
        · rw [hlocate, Spot.after_append _ _ found]
          exact hfound
        · rw [Spot.after_append _ _ own, List.getElem?_cons_succ, ← hown]
          simp only [← Spot.after_append, Piece.text, List.append_assoc]
        · rw [hfront, heq]
          simp
        · rw [hfront, heq']
          simp
        · simp only [List.length_append]
          omega


end Declaration

end ScriptServer

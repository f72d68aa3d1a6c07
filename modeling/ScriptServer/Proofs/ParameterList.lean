import Mathlib.Data.List.Forall2
import ScriptServer.Proofs.Header

namespace ScriptServer.Declaration

/-!
# Reading a parameter list

A parameter list is read line by line up to the parenthesis that closes it.  Two things are kept:
its text with the lines joined, from which the names are taken, and its lines with their places, in
which the names are looked for.

* `parenDepth`, `ParensMatch` — how many parentheses are open behind a text, and whether each has its
  partner in it.
* `Joined` — a text with its line breaks, and the blanks around them, replaced by blanks.
* `Tiles` — a text cut into its lines.
* `exists_readFrom` — a list that is read stands in the text, up to the parenthesis that closes it.
* `Piece` — one parameter: perhaps marked as mutable, an identifier, perhaps a default value.
* `splitParameters_of_captures` — the names that are read are the identifiers of the pieces.
-/

open Text

/-! ### Parentheses -/

/-- The number of parentheses that are open behind a text, of which some were open before it.  There
    is none when the text closes one that is not open. -/
def parenDepth : Nat → List Char → Option Nat
  | depth, [] => some depth
  | depth, c :: rest =>
    if c = '(' then parenDepth (depth + 1) rest
    else if c = ')' then
      if depth = 0 then none else parenDepth (depth - 1) rest
    else parenDepth depth rest

/-- Every parenthesis in a text has its partner there. -/
def ParensMatch (text : List Char) : Prop := parenDepth 0 text = some 0

instance (text : List Char) : Decidable (ParensMatch text) :=
  inferInstanceAs (Decidable (parenDepth 0 text = some 0))

theorem parenDepth_append (depth : Nat) (a b : List Char) :
    parenDepth depth (a ++ b) = (parenDepth depth a).bind (parenDepth · b) := by
  induction a generalizing depth with
  | nil => rfl
  | cons c a ih =>
    rw [List.cons_append, parenDepth, parenDepth]
    split
    · exact ih _
    · split
      · split
        · rfl
        · exact ih _
      · exact ih _

theorem parenDepth_blank {space : List Char} (h : Blank space) (depth : Nat) (text : List Char) :
    parenDepth depth (space ++ text) = parenDepth depth text := by
  induction space with
  | nil => rfl
  | cons c space ih =>
    obtain ⟨hc, hspace⟩ : isBlank c = true ∧ Blank space := by
      simpa [Blank, isBlankLine] using h
    have hopens : c ≠ '(' := by rintro rfl; exact absurd hc (by decide)
    have hcloses : c ≠ ')' := by rintro rfl; exact absurd hc (by decide)
    rw [List.cons_append, parenDepth, if_neg hopens, if_neg hcloses, ih hspace]

/-- The parenthesis that closes a list is told by the text. -/
theorem ParensMatch.eq_of_append {inside inside' rest rest' : List Char} (h : ParensMatch inside)
    (h' : ParensMatch inside') (heq : inside ++ ')' :: rest = inside' ++ ')' :: rest') :
    inside = inside' := by
  -- a longer text would close a parenthesis that is not open
  have hshort : ∀ {a b more : List Char}, ParensMatch a → ParensMatch b → b ≠ a ++ ')' :: more := by
    rintro a b more ha hb rfl
    rw [ParensMatch, parenDepth_append, ha] at hb
    cases hb
  rcases List.append_eq_append_iff.mp heq with ⟨gap, hgap, hrest⟩ | ⟨gap, hgap, hrest⟩
  · cases gap with
    | nil => rw [hgap, List.append_nil]
    | cons c gap =>
      obtain ⟨rfl, -⟩ := List.cons.inj hrest
      exact absurd hgap (hshort h h')
  · cases gap with
    | nil => rw [hgap, List.append_nil]
    | cons c gap =>
      obtain ⟨rfl, -⟩ := List.cons.inj hrest
      exact absurd hgap (hshort h' h)

/-- What a scan for the closing parenthesis has passed over: no brace, and as many parentheses as
    the depth behind it tells. -/
def ParenScan.Passes (depth : Nat) (line : Line) : ParenScan → Prop
  | .closed inside _ => parenDepth depth inside = some 0 ∧ '{' ∉ inside
  | .broken => True
  | .unclosed depth' => parenDepth depth line = some depth' ∧ '{' ∉ line

theorem ParenScan.Passes.cons {c : Char} (hc : c ≠ '{') {depth depth' : Nat}
    (hdepth : ∀ text, parenDepth depth (c :: text) = parenDepth depth' text) {line : Line}
    {scan : ParenScan} (h : scan.Passes depth' line) : (scan.cons c).Passes depth (c :: line) := by
  cases scan with
  | closed inside after =>
    exact ⟨(hdepth inside).trans h.1, List.not_mem_cons_of_ne_of_not_mem hc.symm h.2⟩
  | broken => trivial
  | unclosed =>
    exact ⟨(hdepth line).trans h.1, List.not_mem_cons_of_ne_of_not_mem hc.symm h.2⟩

theorem passes_scanParens (depth : Nat) (line : Line) :
    (scanParens depth line).Passes depth line := by
  fun_induction scanParens depth line with
  | case1 => exact ⟨rfl, List.not_mem_nil⟩
  | case2 depth rest ih => exact ih.cons (by decide) fun _ => rfl
  | case3 rest => exact ⟨rfl, List.not_mem_nil⟩
  | case4 depth rest ih => exact ih.cons (by decide) fun _ => rfl
  | case5 => trivial
  | case6 depth c rest hopen hclose hclose' hstop ih =>
    refine ih.cons (fun hc => hstop (.inl hc)) fun text => ?_
    have hcloses : c ≠ ')' := by
      rintro rfl
      cases depth with
      | zero => exact hclose rfl rfl
      | succ depth => exact hclose' depth rfl rfl
    rw [parenDepth, if_neg hopen, if_neg hcloses]

/-! ### Lines that are joined -/

/-- The second text is the first one on one line: each line break becomes a blank, together with the
    blanks around it. -/
inductive Joined : List Char → List Char → Prop where
  | nil : Joined [] []
  | keep {c : Char} (hc : c ≠ '\n') {a b : List Char} (h : Joined a b) : Joined (c :: a) (c :: b)
  | fold {space : List Char} (hne : space ≠ []) (hspace : Blank space) {a b : List Char}
      (h : Joined a b) : Joined (space ++ a) (' ' :: b)

/-- Blanks at the beginning of a text end before its first word. -/
theorem exists_eq_append_of_blank {front space a rest : List Char} (hfront : Blank front)
    (ha : ∀ c ∈ a.head?, isBlank c = false) (h : front ++ rest = space ++ a) :
    ∃ more, space = front ++ more ∧ rest = more ++ a := by
  rcases List.append_eq_append_iff.mp h with ⟨more, rfl, rfl⟩ | ⟨beyond, rfl, rfl⟩
  · exact ⟨more, rfl, rfl⟩
  · cases beyond with
    | nil => exact ⟨[], by simp, rfl⟩
    | cons c beyond =>
      have hc := List.all_eq_true.mp hfront c (by simp)
      rw [ha c rfl] at hc
      cases hc

namespace Joined

theorem append_of_not_mem {line : Line} (hline : '\n' ∉ line) {a b : List Char} (h : Joined a b) :
    Joined (line ++ a) (line ++ b) := by
  induction line with
  | nil => exact h
  | cons c line ih =>
    rw [List.mem_cons, not_or] at hline
    exact .keep (Ne.symm hline.1) (ih hline.2)

theorem refl_of_not_mem {line : Line} (hline : '\n' ∉ line) : Joined line line := by
  have h := append_of_not_mem hline .nil
  rwa [List.append_nil] at h

theorem eq_nil {text : List Char} (h : Joined [] text) : text = [] := by
  generalize hfront : [] = front at h
  cases h with
  | nil => rfl
  | keep => cases hfront
  | fold hne => exact absurd (List.append_eq_nil_iff.mp hfront.symm).1 hne

/-- A word is kept. -/
theorem exists_word {word a text : List Char} (hword : ∀ c ∈ word, isBlank c = false)
    (h : Joined (word ++ a) text) : ∃ rest, text = word ++ rest ∧ Joined a rest := by
  induction word generalizing text with
  | nil => exact ⟨text, rfl, h⟩
  | cons c word ih =>
    obtain ⟨hc, hrest⟩ := List.forall_mem_cons.mp hword
    generalize hfront : c :: word ++ a = front at h
    cases h with
    | nil => cases hfront
    | keep _ h =>
      obtain ⟨rfl, rfl⟩ := List.cons.inj hfront
      obtain ⟨rest, rfl, hjoined⟩ := ih hrest h
      exact ⟨rest, rfl, hjoined⟩
    | @fold space hne hspace =>
      cases space with
      | nil => exact absurd rfl hne
      | cons d space =>
        obtain ⟨rfl, -⟩ := List.cons.inj hfront
        rw [List.all_eq_true.mp hspace c List.mem_cons_self] at hc
        cases hc

/-- Blanks before something else stay blanks. -/
theorem exists_blank {space a text : List Char} (hspace : Blank space)
    (ha : ∀ c ∈ a.head?, isBlank c = false) (h : Joined (space ++ a) text) :
    ∃ space' rest, text = space' ++ rest ∧ Blank space' ∧ Joined a rest := by
  generalize hfront : space ++ a = front at h
  induction h generalizing space with
  | nil =>
    obtain ⟨rfl, rfl⟩ := List.append_eq_nil_iff.mp hfront
    exact ⟨[], [], rfl, rfl, .nil⟩
  | @keep c hc rest text h ih =>
    cases space with
    | nil =>
      rw [List.nil_append] at hfront
      subst hfront
      exact ⟨[], c :: text, rfl, rfl, .keep hc h⟩
    | cons d space =>
      obtain ⟨rfl, hrest⟩ := List.cons.inj hfront
      obtain ⟨hd, hspace⟩ : isBlank d = true ∧ Blank space := by
        simpa [Blank, isBlankLine] using hspace
      obtain ⟨space', text, rfl, hblank, hjoined⟩ := ih hspace hrest
      exact ⟨d :: space', text, rfl, by simpa [Blank, isBlankLine, hd] using hblank, hjoined⟩
  | @fold folded hne hfolded rest text h ih =>
    obtain ⟨space, rfl, rfl⟩ := exists_eq_append_of_blank hfolded ha hfront.symm
    rw [Blank, isBlankLine, List.all_append, Bool.and_eq_true] at hspace
    obtain ⟨space', text, rfl, hblank, hjoined⟩ := ih hspace.2 rfl
    exact ⟨' ' :: space', text, rfl, isBlankLine_append (a := [' ']) rfl hblank, hjoined⟩

theorem blank_of_blank {space text : List Char} (h : Joined space text) (hspace : Blank space) :
    Blank text := by
  rw [← List.append_nil space] at h
  obtain ⟨space', rest, rfl, hblank, hrest⟩ := h.exists_blank hspace (by simp)
  rw [hrest.eq_nil, List.append_nil]
  exact hblank

/-- A blank or a line break before something else becomes a blank. -/
theorem exists_cons_blank {c : Char} (hc : c = ' ' ∨ c = '\n') {space a text : List Char}
    (hspace : Blank space) (ha : ∀ c ∈ a.head?, isBlank c = false)
    (h : Joined (c :: (space ++ a)) text) :
    ∃ space' rest, text = ' ' :: (space' ++ rest) ∧ Blank space' ∧ Joined a rest := by
  generalize hfront : c :: (space ++ a) = front at h
  cases h with
  | nil => cases hfront
  | keep hline h =>
    obtain ⟨rfl, rfl⟩ := List.cons.inj hfront
    obtain rfl := hc.resolve_right hline
    obtain ⟨space', rest, rfl, hblank, hjoined⟩ := exists_blank hspace ha h
    exact ⟨space', rest, rfl, hblank, hjoined⟩
  | @fold folded hne hfolded a' b h =>
    cases folded with
    | nil => exact absurd rfl hne
    | cons d folded =>
      obtain ⟨rfl, hrest⟩ := List.cons.inj hfront
      obtain ⟨-, hfolded⟩ : isBlank c = true ∧ Blank folded := by
        simpa [Blank, isBlankLine] using hfolded
      obtain ⟨space, rfl, rfl⟩ := exists_eq_append_of_blank hfolded ha hrest.symm
      rw [Blank, isBlankLine, List.all_append, Bool.and_eq_true] at hspace
      obtain ⟨space', rest, rfl, hblank, hjoined⟩ := exists_blank hspace.2 ha h
      exact ⟨space', rest, rfl, hblank, hjoined⟩

/-- The pieces between commas are joined one by one. -/
theorem forall₂_splitAtChar {a b : List Char} (h : Joined a b) :
    List.Forall₂ Joined (splitAtChar ',' a) (splitAtChar ',' b) := by
  induction h with
  | nil => exact .cons .nil .nil
  | @keep c hc a b h ih =>
    obtain ⟨first, others, hfirst⟩ := List.exists_cons_of_ne_nil (splitAtChar_ne_nil ',' a)
    obtain ⟨first', others', hfirst'⟩ := List.exists_cons_of_ne_nil (splitAtChar_ne_nil ',' b)
    rw [splitAtChar, splitAtChar]
    split
    · exact .cons .nil ih
    · rw [hfirst, hfirst'] at ih ⊢
      cases ih with
      | cons hpiece hrest => exact .cons (.keep hc hpiece) hrest
  | @fold space hne hspace a b h ih =>
    obtain ⟨first, others, hfirst⟩ := List.exists_cons_of_ne_nil (splitAtChar_ne_nil ',' a)
    obtain ⟨first', others', hfirst'⟩ := List.exists_cons_of_ne_nil (splitAtChar_ne_nil ',' b)
    rw [splitAtChar_append_of_not_mem (not_mem_of_isBlankLine hspace (by decide)) hfirst,
      splitAtChar, if_neg (by decide), hfirst']
    rw [hfirst, hfirst'] at ih
    cases ih with
    | cons hpiece hrest => exact .cons (.fold hne hspace hpiece) hrest

end Joined

/-- The text of a list is what was captured before, followed by the list on one line.  Blanks at its
    beginning are not captured. -/
def Captures (captured : Line) (inside : List Char) (text : Line) : Prop :=
  ∃ lead added, text = captured ++ added ∧ Joined inside (lead ++ added) ∧ Blank lead
    ∧ (captured ≠ [] → lead = [])

theorem captures_line (captured : Line) {line : Line} (h : '\n' ∉ line) :
    Captures captured line (captured ++ line) :=
  ⟨[], line, rfl, .refl_of_not_mem h, rfl, fun _ => rfl⟩

/-- A line that does not close the list, and the indent of the next. -/
theorem Captures.of_capture {captured here text : Line} {indent inside : List Char}
    (h : Captures (capture captured here) inside text) (hhere : '\n' ∉ here)
    (hindent : Blank indent) : Captures captured (here ++ '\n' :: (indent ++ inside)) text := by
  obtain ⟨lead, added, htext, hjoined, hlead, hnone⟩ := h
  obtain ⟨gap, hgap, hblank⟩ := exists_eq_trimEnd_append here
  have hspace : Blank (gap ++ '\n' :: indent) :=
    isBlankLine_append hblank (isBlankLine_append (a := ['\n']) rfl hindent)
  have hfold : Joined (gap ++ '\n' :: (indent ++ inside)) (' ' :: (lead ++ added)) := by
    have h := Joined.fold (by simp) hspace hjoined
    rwa [List.append_assoc, List.cons_append] at h
  rw [capture] at htext hnone
  split at htext
  next hnil =>
    -- nothing but blanks so far
    obtain ⟨rfl, htrim⟩ := List.append_eq_nil_iff.mp hnil
    rw [htrim, List.nil_append] at hgap
    refine ⟨' ' :: lead, added, htext, ?_, isBlankLine_append (a := [' ']) rfl hlead,
      fun hne => absurd rfl hne⟩
    rw [hgap]
    exact hfold
  next hcaptured =>
    rw [hnone (by simp)] at hfold
    refine ⟨[], trimEnd here ++ ' ' :: added, by rw [htext]; simp, ?_, rfl, fun _ => rfl⟩
    have htrim : '\n' ∉ trimEnd here := by
      rw [hgap, List.mem_append, not_or] at hhere
      exact hhere.1
    have h := Joined.append_of_not_mem htrim hfold
    rwa [← List.append_assoc, ← hgap] at h

/-! ### The code of a list -/

/-- The segments are the lines of a text that begins at a spot, with the indents of its further lines
    left out. -/
inductive Tiles : Spot → List Char → List Segment → Prop where
  | last {spot : Spot} {here : Line} (hhere : '\n' ∉ here) :
      Tiles spot here [⟨spot.line, spot.offset, here⟩]
  | more {spot : Spot} {here indent : Line} {text : List Char} {segments : List Segment}
      (hhere : '\n' ∉ here) (hindent : Blank indent)
      (h : Tiles (spot.after (here ++ '\n' :: indent)) text segments) :
      Tiles spot (here ++ '\n' :: (indent ++ text)) (⟨spot.line, spot.offset, here⟩ :: segments)

theorem intercalate_append_first (separator front first : Line) (others : List Line) :
    separator.intercalate ((front ++ first) :: others)
      = front ++ separator.intercalate (first :: others) := by
  cases others with
  | nil => simp
  | cons second others =>
    rw [List.intercalate_cons_cons, List.intercalate_cons_cons]
    simp

/-- The text that a list was read from: the parentheses that are open in front of it are closed at
    its end, and both what is captured of it and the code to be searched are the whole text. -/
structure ParameterList.ReadFrom (list : ParameterList) (depth : Nat) (captured : Line)
    (spot : Spot) (inside : List Char) : Prop where
  closes : parenDepth depth inside = some 0
  captures : Captures captured inside list.text
  tiles : Tiles spot (inside ++ [')']) list.segments

/-- **A list that is read** stands in the text from there on, up to the parenthesis that closes
    it. -/
theorem exists_readFrom {below : List Line} {depth line offset : Nat} {captured here : Line}
    {list : ParameterList} (h : readParameters depth captured line offset here below = .ok list)
    (hlines : ∀ line ∈ here :: below, '\n' ∉ line) :
    ∃ inside rest, ['\n'].intercalate (here :: below) = inside ++ ')' :: rest
      ∧ list.ReadFrom depth captured ⟨line, offset⟩ inside := by
  replace h := readsList_of_readParameters h
  induction h with
  | @closed depth line offset captured here inside after below hscan =>
    have hpasses := passes_scanParens depth here
    rw [hscan] at hpasses
    have hhere := hlines here List.mem_cons_self
    rw [eq_append_of_scanParens hscan, List.mem_append, not_or] at hhere
    refine ⟨inside, after ++ below.flatMap ('\n' :: ·), ?_, hpasses.1,
      captures_line captured hhere.1, .last (by simpa using hhere.1)⟩
    have hjoin := intercalate_append_cons '\n' [] here below
    rw [List.nil_append] at hjoin
    rw [hjoin, eq_append_of_scanParens hscan]
    simp
  | @next depth depth' line offset captured here next below list hscan hrest ih =>
    have hpasses := passes_scanParens depth here
    rw [hscan] at hpasses
    have hhere := hlines here List.mem_cons_self
    -- the next line is read behind its indent
    have hindent : Blank (next.takeWhile isBlank) := isBlankLine_takeWhile next
    obtain ⟨hline, htrim⟩ : '\n' ∉ next.takeWhile isBlank ∧ '\n' ∉ trimStart next := by
      have hnext := hlines next (by simp)
      rwa [← takeWhile_append_trimStart next, List.mem_append, not_or] at hnext
    obtain ⟨inside, rest, htext, hread⟩ :=
      ih (List.forall_mem_cons.mpr ⟨htrim, fun l hl => hlines l (by simp [hl])⟩)
    refine ⟨here ++ '\n' :: (next.takeWhile isBlank ++ inside), rest, ?_, ?_, ?_, ?_⟩
    · rw [List.intercalate_cons_cons, ← takeWhile_append_trimStart next,
        intercalate_append_first, htext, takeWhile_append_trimStart]
      simp
    · rw [parenDepth_append, hpasses.1]
      exact (parenDepth_blank (isBlankLine_append (a := ['\n']) rfl hindent) depth' inside).trans
        hread.closes
    · exact hread.captures.of_capture hhere hindent
    · rw [List.append_assoc, List.cons_append, List.append_assoc]
      refine .more hhere hindent ?_
      rw [Spot.after_append, Spot.after_of_not_mem _ hhere]
      show Tiles (Spot.after ⟨line + 1, 0⟩ (next.takeWhile isBlank)) _ _
      rw [Spot.after_of_not_mem _ hline, Nat.zero_add]
      exact hread.tiles

/-! ### The names of a list -/

/-- What may stand before the identifier of a parameter: blanks, and the word that marks it as
    mutable. -/
inductive Leads : List Char → Prop where
  | blank {space : List Char} (h : Blank space) : Leads space
  | mutable {gap space : List Char} {c : Char} (hgap : Blank gap) (hc : c = ' ' ∨ c = '\n')
      (hspace : Blank space) : Leads (gap ++ (['m', 'u', 't', 'a', 'b', 'l', 'e'] ++ c :: space))

/-- What may stand behind it: blanks, and a default value. -/
inductive Trails : List Char → Prop where
  | blank {space : List Char} (h : Blank space) : Trails space
  | default {gap : List Char} (hgap : Blank gap) (value : List Char) : Trails (gap ++ '=' :: value)

/-- A piece of a list between commas, with one parameter in it. -/
structure Piece where
  before : List Char
  name : Line
  after : List Char
  leads : Leads before
  isName : IsName name
  trails : Trails after

def Piece.text (piece : Piece) : List Char := piece.before ++ piece.name ++ piece.after

theorem parameterName_append_blank {lead : Line} (h : Blank lead) (piece : Line) :
    parameterName (lead ++ piece) = parameterName piece := by
  have htake : (lead ++ piece).takeWhile (· != '=') = lead ++ piece.takeWhile (· != '=') := by
    refine List.takeWhile_append_of_pos fun c hc => ?_
    rw [bne_iff_ne]
    rintro rfl
    exact not_mem_of_isBlankLine h (by decide) hc
  simp only [parameterName, htake, trim, trimStart_append h]

/-- A default value is no part of the name. -/
theorem Trails.exists_parameterName {front after : Line} (h : Trails after)
    (hfront : '=' ∉ front) :
    ∃ gap, Blank gap ∧ parameterName (front ++ after) = parameterName (front ++ gap) := by
  cases h with
  | blank h => exact ⟨after, h, rfl⟩
  | @default gap hgap value =>
    have hequals : '=' ∉ front ++ gap := by
      rw [List.mem_append, not_or]
      exact ⟨hfront, not_mem_of_isBlankLine hgap (by decide)⟩
    refine ⟨gap, hgap, ?_⟩
    have htake : (front ++ gap ++ '=' :: value).takeWhile (· != '=') = front ++ gap := by
      have hpass := List.takeWhile_eq_self_iff.mp (takeWhile_bne_eq_self hequals)
      rw [List.takeWhile_append_of_pos hpass, List.takeWhile_cons_of_neg (by simp),
        List.append_nil]
    rw [← List.append_assoc]
    simp only [parameterName, htake, takeWhile_bne_eq_self hequals]

/-- The word that marks a parameter as mutable is no part of its name. -/
theorem parameterName_mutable {space name gap : Line} (hspace : Blank space) (hname : IsName name)
    (hgap : Blank gap) :
    parameterName (['m', 'u', 't', 'a', 'b', 'l', 'e', ' '] ++ space ++ name ++ gap) = name := by
  have hequals : '=' ∉ ['m', 'u', 't', 'a', 'b', 'l', 'e', ' '] ++ (space ++ name ++ gap) := by
    rw [List.mem_append, not_or]
    exact ⟨by decide, not_mem_piece hspace hname hgap (by decide) (by decide)⟩
  have hend : trimEnd (name ++ gap) = name :=
    trimEnd_append (fun c hc => isBlank_eq_false_of_isWord (hname.isWord c hc)) hgap
  have htrim : trim (['m', 'u', 't', 'a', 'b', 'l', 'e', ' '] ++ (space ++ name ++ gap))
      = ['m', 'u', 't', 'a', 'b', 'l', 'e', ' '] ++ (space ++ name) := by
    have hstart : trimStart (['m', 'u', 't', 'a', 'b', 'l', 'e', ' '] ++ (space ++ name ++ gap))
        = ['m', 'u', 't', 'a', 'b', 'l', 'e', ' '] ++ space ++ (name ++ gap) := by
      simpa using trimStart_of_head (show isBlank 'm' = false by decide) _
    rw [trim, hstart, trimEnd_append_of_ne_nil _ (by rw [hend]; exact hname.ne_nil), hend,
      List.append_assoc]
  have hafter : after? ['m', 'u', 't', 'a', 'b', 'l', 'e', ' ']
      (['m', 'u', 't', 'a', 'b', 'l', 'e', ' '] ++ (space ++ name)) = some (space ++ name) :=
    after?_eq_some_iff.mpr rfl
  have hrest : trim (space ++ name) = name := by
    simpa using hname.trim_eq hspace (show Blank [] from rfl)
  rw [List.append_assoc, List.append_assoc, ← List.append_assoc space]
  simp only [parameterName, takeWhile_bne_eq_self hequals, htrim, hafter, hrest]

theorem Trails.of_joined {after text : List Char} (h : Trails after) (hjoined : Joined after text) :
    Trails text := by
  cases h with
  | blank h => exact .blank (hjoined.blank_of_blank h)
  | @default gap hgap value =>
    obtain ⟨space, rest, rfl, hblank, hrest⟩ := hjoined.exists_blank hgap (by rintro _ ⟨⟩; decide)
    have hequals : Joined (['='] ++ value) rest := hrest
    obtain ⟨value', rfl, -⟩ := hequals.exists_word (List.forall_mem_singleton.mpr (by decide))
    exact .default hblank value'

/-- **The name in a piece** is read also where the piece goes over several lines. -/
theorem parameterName_of_joined (piece : Piece) {text : Line} (h : Joined piece.text text) :
    parameterName text = piece.name := by
  obtain ⟨before, name, after, hleads, hname, htrails⟩ := piece
  have hword : ∀ c ∈ name, isBlank c = false :=
    fun c hc => isBlank_eq_false_of_isWord (hname.isWord c hc)
  have hhead : ∀ c ∈ (name ++ after).head?, isBlank c = false := by
    obtain ⟨c, word, rfl, -⟩ := hname
    simpa using hword c List.mem_cons_self
  have hequals : '=' ∉ name := hname.not_mem (by decide)
  replace h : Joined (before ++ (name ++ after)) text := by rwa [← List.append_assoc]
  cases hleads with
  | blank hspace =>
    obtain ⟨space', rest, rfl, hspace', hrest⟩ := h.exists_blank hspace hhead
    obtain ⟨after', rfl, hafter⟩ := hrest.exists_word hword
    obtain ⟨gap, hgap, heq⟩ := (htrails.of_joined hafter).exists_parameterName hequals
    rw [parameterName_append_blank hspace', heq, ← parameterName_append_blank hspace',
      ← List.append_assoc]
    exact parameterName_eq hspace' hname hgap
  | @mutable gap space c hgap hc hspace =>
    rw [List.append_assoc, List.append_assoc] at h
    obtain ⟨gap', _, rfl, hgap', hmarked⟩ := h.exists_blank hgap (by rintro _ ⟨⟩; decide)
    have hmark : ['m', 'u', 't', 'a', 'b', 'l', 'e'].all (!isBlank ·) = true := by decide
    obtain ⟨_, rfl, hspaced⟩ := hmarked.exists_word (by simpa using List.all_eq_true.mp hmark)
    obtain ⟨space', _, rfl, hspace', hnamed⟩ := hspaced.exists_cons_blank hc hspace hhead
    obtain ⟨after', rfl, hafter⟩ := hnamed.exists_word hword
    have hfront : '=' ∉ ['m', 'u', 't', 'a', 'b', 'l', 'e', ' '] ++ space' ++ name := by
      simp only [List.mem_append, not_or]
      exact ⟨⟨by decide, not_mem_of_isBlankLine hspace' (by decide)⟩, hequals⟩
    obtain ⟨trail, htrail, heq⟩ := (htrails.of_joined hafter).exists_parameterName hfront
    rw [parameterName_append_blank hgap']
    simp only [List.append_assoc, List.cons_append, List.nil_append] at heq ⊢
    rw [heq]
    simpa using parameterName_mutable hspace' hname htrail

/-- The pieces are those of a list, in order.  A list without a piece is blank. -/
def Piece.MakeUp (pieces : List Piece) (list : List Char) : Prop :=
  splitAtChar ',' list = pieces.map Piece.text ∨ pieces = [] ∧ Blank list

/-- **The names of a list** are those of its pieces. -/
theorem splitParameters_of_captures {pieces : List Piece} {inside : List Char} {text : Line}
    (hpieces : Piece.MakeUp pieces inside) (h : Captures [] inside text) :
    splitParameters text = pieces.map Piece.name := by
  obtain ⟨lead, added, htext, hjoined, hlead, -⟩ := h
  obtain rfl : text = added := htext
  -- blanks in front of the first piece do not count
  obtain ⟨first, others, hfirst⟩ := List.exists_cons_of_ne_nil (splitAtChar_ne_nil ',' text)
  have hnames : (splitAtChar ',' (lead ++ text)).map parameterName
      = (splitAtChar ',' text).map parameterName := by
    rw [splitAtChar_append_of_not_mem (not_mem_of_isBlankLine hlead (by decide)) hfirst, hfirst,
      List.map_cons, List.map_cons, parameterName_append_blank hlead]
  rw [splitParameters, ← hnames]
  rcases hpieces with hpieces | ⟨rfl, hblank⟩
  · have hpair := hjoined.forall₂_splitAtChar
    rw [hpieces, List.forall₂_map_left_iff] at hpair
    have hread : (splitAtChar ',' (lead ++ text)).map parameterName = pieces.map Piece.name := by
      have hsame : List.Forall₂ (fun piece read => parameterName read = Piece.name piece) pieces
          (splitAtChar ',' (lead ++ text)) :=
        hpair.imp fun piece read => parameterName_of_joined piece
      rw [← List.forall₂_eq_eq_eq, List.forall₂_map_left_iff, List.forall₂_map_right_iff]
      exact hsame.flip
    rw [hread, List.filter_eq_self]
    intro name hname
    obtain ⟨piece, -, rfl⟩ := List.mem_map.mp hname
    simpa using piece.isName.ne_nil
  · have hspace := hjoined.blank_of_blank hblank
    rw [splitAtChar_of_not_mem (not_mem_of_isBlankLine hspace (by decide)), List.map_singleton,
      parameterName_of_blank hspace]
    rfl

end ScriptServer.Declaration

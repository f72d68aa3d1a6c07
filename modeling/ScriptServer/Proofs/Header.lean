import ScriptServer.Proofs.Body
import ScriptServer.Proofs.Layout
import ScriptServer.Proofs.Place

namespace ScriptServer.Declaration

/-!
# Reading a header in any layout

What a header is made of may be spread over lines in any way.  Each step of reading it is followed
on the text as a whole, so that line breaks are blanks like all others.

* `Cursor.At` — a cursor stands at a spot, with a text in front of it.
* `headStarts_eq` — the beginning of a header at the beginning of a line is found there.
* `exists_readParameters` — a parameter list is read to its end.  What is captured differs from the
  text in blanks only.
* `exists_findBody` — the brace behind blanks is found.
* `exists_readHeader` — a header in any layout is read, with its names and the braces of its body.
-/

open Text

/-- The cursor stands at a spot, and this text is what follows. -/
def Cursor.At (cursor : Cursor) (spot : Spot) (text : List Char) : Prop :=
  (⟨cursor.line, cursor.offset⟩ : Spot) = spot
    ∧ splitAtChar '\n' text = cursor.here :: cursor.below

/-- The braces from a cursor on are those of the text in front of it. -/
theorem Cursor.At.braces_eq {cursor : Cursor} {spot : Spot} {text : List Char}
    (h : cursor.At spot text) : cursor.braces = bracesAfter spot text := by
  obtain ⟨rfl, htext⟩ := h
  exact (bracesAfter_eq ⟨cursor.line, cursor.offset⟩ htext).symm

/-! ### The beginning -/

theorem takeWhile_isBlank_append {gap : Line} (hgap : Blank gap) {c : Char}
    (hc : isBlank c = false) (rest : Line) : (gap ++ c :: rest).takeWhile isBlank = gap := by
  rw [List.takeWhile_append_of_pos (List.all_eq_true.mp hgap),
    List.takeWhile_cons_of_neg (by simp [hc]), List.append_nil]

theorem skipBlanks?_append {gap : Line} (hne : gap ≠ []) (hgap : Blank gap) {c : Char}
    (hc : isBlank c = false) (rest : Line) :
    skipBlanks? (gap ++ c :: rest) = some (c :: rest) := by
  cases gap with
  | nil => exact absurd rfl hne
  | cons d gap =>
    obtain ⟨hd, hgap⟩ : isBlank d = true ∧ Blank gap := by simpa [Blank, isBlankLine] using hgap
    rw [List.cons_append, skipBlanks?, if_pos hd, trimStart_append hgap, trimStart_of_head hc]

/-- A name is read up to the first character that is no part of it. -/
theorem readName?_append {name : Line} (h : IsName name) {c : Char} (hc : isWord c = false)
    (rest : Line) : readName? (name ++ c :: rest) = some (name, c :: rest) := by
  obtain ⟨d, word, rfl, hd, hword⟩ := h
  have htake : (word ++ c :: rest).takeWhile isWord = word := by
    rw [List.takeWhile_append_of_pos hword, List.takeWhile_cons_of_neg (by simp [hc]),
      List.append_nil]
  have hdrop : (word ++ c :: rest).dropWhile isWord = c :: rest := by
    rw [List.dropWhile_append_of_pos hword, List.dropWhile_cons_of_neg (by simp [hc])]
  rw [List.cons_append, readName?, if_pos hd, htake, hdrop]

/-- A name is read where no word goes on behind it. -/
theorem readName?_append_stop {name rest : Line} (h : IsName name)
    (hrest : ∀ c ∈ rest.head?, isWord c = false) :
    readName? (name ++ rest) = some (name, rest) := by
  cases rest with
  | cons c rest => exact readName?_append h (hrest c rfl) rest
  | nil =>
    obtain ⟨c, word, rfl, hc, hword⟩ := h
    have htake : word.takeWhile isWord = word := List.takeWhile_eq_self_iff.mpr hword
    have hdrop : word.dropWhile isWord = [] := List.dropWhile_eq_nil_iff.mpr hword
    rw [List.append_nil, readName?, if_pos hc, htake, hdrop]

/-- No word goes on behind blanks, nor where there are none behind a character that is no part of a
    word. -/
theorem isWord_head_append {gap : Line} (hgap : Blank gap) {d : Char} (hd : isWord d = false)
    (rest : Line) : ∀ c ∈ (gap ++ d :: rest).head?, isWord c = false := by
  intro c hc
  cases gap with
  | nil =>
    obtain rfl : d = c := by simpa using hc
    exact hd
  | cons e gap =>
    obtain rfl : e = c := by simpa using hc
    exact isWord_eq_false_of_isBlank (List.all_eq_true.mp hgap e List.mem_cons_self)

theorem isName_of_readName? {text name rest : Line} (h : readName? text = some (name, rest)) :
    IsName name := by
  cases text with
  | nil => cases h
  | cons c text =>
    simp only [readName?] at h
    split at h
    next hc =>
      cases h
      exact ⟨c, _, rfl, hc, fun d hd => List.mem_takeWhile_imp hd⟩
    next => cases h

theorem isName_of_headAt? {offset : Nat} {text : Line} {head : HeadStart}
    (h : headAt? offset text = some head) : IsName head.name := by
  simp only [headAt?, Option.bind_eq_bind, Option.bind_eq_some_iff, Option.pure_def,
    Option.some.injEq, Prod.exists] at h
  obtain ⟨_, -, _, -, _, _, hname, _, -, rfl⟩ := h
  exact isName_of_readName? hname

/-- The blanks before a name end with the name. -/
theorem takeWhile_isBlank_name {gap name : Line} (hgap : Blank gap) (h : IsName name)
    (rest : Line) : (gap ++ (name ++ rest)).takeWhile isBlank = gap := by
  obtain ⟨c, word, rfl, hc, -⟩ := h
  exact takeWhile_isBlank_append hgap (isBlank_eq_false_of_isWord (isWord_of_startsName hc)) _

theorem trimStart_name {gap name : Line} (hgap : Blank gap) (h : IsName name) (rest : Line) :
    trimStart (gap ++ (name ++ rest)) = name ++ rest := by
  obtain ⟨c, word, rfl, hc, -⟩ := h
  rw [trimStart_append hgap]
  exact trimStart_of_head (isBlank_eq_false_of_isWord (isWord_of_startsName hc)) _

/-- **The beginning of a header** is found at the beginning of its line. -/
theorem headStarts_eq {gap name parenGap : Line} (hne : gap ≠ []) (hgap : Blank gap)
    (hname : IsName name) (hparen : Blank parenGap) (rest : Line) :
    ∃ later, headStarts none 0 (['d', 'e', 'f'] ++ gap ++ name ++ parenGap ++ '(' :: rest)
      = ⟨0, 3 + size gap, name, 3 + size gap + size name + size parenGap, rest⟩ :: later := by
  -- the name ends where the blanks before the parenthesis begin
  have hread : readName? (name ++ (parenGap ++ '(' :: rest))
      = some (name, parenGap ++ '(' :: rest) :=
    readName?_append_stop hname (isWord_head_append hparen (by decide) rest)
  have htake : (gap ++ (name ++ (parenGap ++ '(' :: rest))).takeWhile isBlank = gap :=
    takeWhile_isBlank_name hgap hname _
  have hskip : skipBlanks? (gap ++ (name ++ (parenGap ++ '(' :: rest)))
      = some (name ++ (parenGap ++ '(' :: rest)) := by
    obtain ⟨c, word, rfl, hc, -⟩ := hname
    exact skipBlanks?_append hne hgap (isBlank_eq_false_of_isWord (isWord_of_startsName hc)) _
  have hhead : headAt? 0 (['d', 'e', 'f'] ++ gap ++ name ++ parenGap ++ '(' :: rest)
      = some ⟨0, 3 + size gap, name, 3 + size gap + size name + size parenGap, rest⟩ := by
    have hafter : after? ['d', 'e', 'f'] (['d', 'e', 'f'] ++ gap ++ name ++ parenGap ++ '(' :: rest)
        = some (gap ++ (name ++ (parenGap ++ '(' :: rest))) := by
      rw [after?_eq_some_iff]
      simp
    have hopen : after? ['('] (trimStart (parenGap ++ '(' :: rest)) = some rest := by
      rw [trimStart_append hparen, trimStart_of_head (by decide)]
      rfl
    simp only [headAt?, hafter, hskip, hread, hopen, htake, Option.bind_eq_bind, Option.bind_some,
      takeWhile_isBlank_append hparen (show isBlank '(' = false by decide), Option.pure_def,
      Nat.zero_add]
  simp only [List.cons_append, List.nil_append] at hhead ⊢
  rw [headStarts, hhead]
  exact ⟨_, rfl⟩

/-! ### The parameter list -/

/-- A character that the search for the closing parenthesis passes over. -/
def IsInert (c : Char) : Prop := ¬ (c = '(' ∨ c = ')' ∨ c = '{' ∨ c = ';')

theorem scanParens_cons {c : Char} (hc : IsInert c) (rest : Line) :
    scanParens 0 (c :: rest) = (scanParens 0 rest).cons c := by
  simp only [IsInert, not_or] at hc
  obtain ⟨hopens, hcloses, hbrace, hsemicolon⟩ := hc
  rw [scanParens]
  · rw [if_neg (by simp [hbrace, hsemicolon])]
  · exact hopens
  · exact fun _ => hcloses
  · intro depth hdepth
    cases hdepth

theorem scanParens_closed {text : Line} (h : ∀ c ∈ text, IsInert c) (rest : Line) :
    scanParens 0 (text ++ ')' :: rest) = .closed text rest := by
  induction text with
  | nil => rfl
  | cons c text ih =>
    obtain ⟨hc, htext⟩ := List.forall_mem_cons.mp h
    rw [List.cons_append, scanParens_cons hc, ih htext]
    rfl

theorem scanParens_unclosed {text : Line} (h : ∀ c ∈ text, IsInert c) :
    scanParens 0 text = .unclosed 0 := by
  induction text with
  | nil => rfl
  | cons c text ih =>
    obtain ⟨hc, htext⟩ := List.forall_mem_cons.mp h
    rw [scanParens_cons hc, ih htext]
    rfl

/-- What a line adds to the text of a list: its own text, less the blanks at its end. -/
theorem exists_capture (captured here : Line) :
    ∃ space, Blank space ∧ capture captured here = captured ++ trimEnd here ++ space := by
  rw [capture]
  split
  · rename_i hnil
    exact ⟨[], rfl, by rw [hnil]; rfl⟩
  · exact ⟨[' '], rfl, rfl⟩

/-- Where a line ends, its last blanks, the line break and the indent of the next line become one
    blank or none. -/
theorem respaced_capture (captured front : Line) {indent : Line} (hindent : Blank indent)
    (text : List Char) :
    Respaced (captured ++ (front ++ '\n' :: (indent ++ text)))
      (capture captured front ++ text) := by
  obtain ⟨space, hblank, hcapture⟩ := exists_capture captured front
  obtain ⟨gap, hgap, hgapBlank⟩ := exists_eq_trimEnd_append front
  have hreplaced : Respaced (gap ++ '\n' :: indent) space := by
    refine .of_blank (by simp) ?_ hblank
    exact isBlankLine_append hgapBlank (isBlankLine_append (a := ['\n']) rfl hindent)
  have heq : captured ++ (front ++ '\n' :: (indent ++ text))
      = captured ++ trimEnd front ++ (gap ++ '\n' :: indent) ++ text := by
    conv_lhs => rw [hgap]
    simp
  rw [heq, hcapture]
  exact ((Respaced.refl _).append hreplaced).append (.refl text)

/-- The blanks at the beginning of the first line of a text. -/
theorem exists_indent (text : List Char) :
    ∃ indent rest, text = indent ++ rest ∧ Blank indent ∧ '\n' ∉ indent
      ∧ ∀ c ∈ rest.head?, c = '\n' ∨ isBlank c = false := by
  induction text with
  | nil => exact ⟨[], [], rfl, rfl, List.not_mem_nil, by simp⟩
  | cons c text ih =>
    by_cases hc : c ≠ '\n' ∧ isBlank c = true
    · obtain ⟨indent, rest, rfl, hblank, hline, hrest⟩ := ih
      refine ⟨c :: indent, rest, rfl, ?_, ?_, hrest⟩
      · simpa [Blank, isBlankLine, hc.2] using hblank
      · simpa [Ne.symm hc.1] using hline
    · refine ⟨[], c :: text, rfl, rfl, List.not_mem_nil, ?_⟩
      intro d hd
      obtain rfl : c = d := by simpa using hd
      by_cases hline : c = '\n'
      · exact .inl hline
      · exact .inr (by simpa [hline] using hc)

/-- The first line of a text that does not begin with a blank has none to trim. -/
theorem head_of_splitAtChar {text first : Line} {others : List Line}
    (hsplit : splitAtChar '\n' text = first :: others)
    (hhead : ∀ c ∈ text.head?, c = '\n' ∨ isBlank c = false) :
    ∀ c ∈ first.head?, isBlank c = false := by
  cases text with
  | nil =>
    obtain ⟨rfl, -⟩ : first = [] ∧ others = [] := by simpa [splitAtChar, eq_comm] using hsplit
    simp
  | cons c text =>
    rcases hhead c rfl with rfl | hc
    · rw [splitAtChar, if_pos rfl] at hsplit
      obtain ⟨rfl, -⟩ : [] = first ∧ splitAtChar '\n' text = others := by simpa using hsplit
      simp
    · have hline : c ≠ '\n' := by rintro rfl; exact absurd hc (by decide)
      obtain ⟨next, below, hnext⟩ := List.exists_cons_of_ne_nil (splitAtChar_ne_nil '\n' text)
      rw [splitAtChar, if_neg hline, hnext] at hsplit
      obtain ⟨rfl, -⟩ : c :: next = first ∧ below = others := by simpa using hsplit
      simpa using hc

theorem readParameters_closed {depth line offset : Nat} {captured here inside after : Line}
    (h : scanParens depth here = .closed inside after) (below : List Line) :
    readParameters depth captured line offset here below
      = .ok (.ending captured line offset inside after below) := by
  cases below <;> simp [readParameters, h]

/-- **A parameter list in any layout** is read to the parenthesis that closes it.  The text that is
    captured has the same words as the list, with other blanks between them. -/
theorem exists_readParameters {text : List Char} (htext : ∀ c ∈ text, IsInert c)
    (rest : List Char) (captured : Line) (line offset : Nat) {here : Line} {below : List Line}
    (hsplit : splitAtChar '\n' (text ++ ')' :: rest) = here :: below) :
    ∃ list, readParameters 0 captured line offset here below = .ok list
      ∧ Respaced (captured ++ text) list.text
      ∧ list.cursor.At (Spot.after ⟨line, offset⟩ (text ++ [')'])) rest := by
  -- a line that does not close the list leaves a shorter text
  induction hlength : text.length using Nat.strongRecOn
    generalizing text captured line offset here below with
  | ind length ih =>
  obtain ⟨first, others, hrest⟩ := List.exists_cons_of_ne_nil (splitAtChar_ne_nil '\n' rest)
  by_cases hmem : '\n' ∈ text
  · obtain ⟨front, tail, rfl, hfront⟩ := List.eq_append_cons_of_mem hmem
    obtain ⟨indent, text, rfl, hindent, hline, hhead⟩ := exists_indent tail
    have hinert : ∀ c ∈ text, IsInert c := fun c hc => htext c (by simp [hc])
    -- the next line is indented, and trimming takes away just that
    obtain ⟨next, below', hnext⟩ :=
      List.exists_cons_of_ne_nil (splitAtChar_ne_nil '\n' (text ++ ')' :: rest))
    have hunindented : ∀ c ∈ next.head?, isBlank c = false := by
      refine head_of_splitAtChar hnext fun c hc => ?_
      cases text with
      | nil => exact .inr (by simp at hc; rw [← hc]; decide)
      | cons d text => exact hhead c hc
    have htake : (indent ++ next).takeWhile isBlank = indent := by
      rw [List.takeWhile_append_of_pos (List.all_eq_true.mp hindent)]
      cases next <;> simp_all
    have htrim : trimStart (indent ++ next) = next := by
      rw [trimStart_append hindent]
      cases next with
      | nil => rfl
      | cons c next => exact trimStart_of_head (hunindented c rfl) next
    obtain ⟨rfl, rfl⟩ : front = here ∧ (indent ++ next) :: below' = below := by
      have hsplit' := hsplit
      rw [List.append_assoc, List.cons_append, splitAtChar_append, splitAtChar_of_not_mem hfront,
        List.append_assoc, splitAtChar_append_of_not_mem hline hnext] at hsplit'
      simpa using hsplit'
    have hscan : scanParens 0 front = .unclosed 0 :=
      scanParens_unclosed fun c hc => htext c (by simp [hc])
    obtain ⟨list, hread, hspace, hcursor⟩ :=
      ih text.length (by rw [← hlength]; simp; omega) hinert (capture captured front)
        (line + 1) (size indent) hnext rfl
    refine ⟨list.prepend ⟨line, offset, front⟩, ?_, ?_, ?_⟩
    · rw [readParameters, hscan, htake, htrim]
      simp only [hread, Except.map]
    · exact (respaced_capture captured front hindent text).trans hspace
    · have hspot : Spot.after ⟨line, offset⟩ (front ++ '\n' :: (indent ++ text) ++ [')'])
          = Spot.after ⟨line + 1, size indent⟩ (text ++ [')']) := by
        rw [List.append_assoc, Spot.after_append, Spot.after_of_not_mem _ hfront,
          List.cons_append, List.append_assoc]
        show Spot.after ⟨line + 1, 0⟩ (indent ++ (text ++ [')'])) = _
        rw [Spot.after_append, Spot.after_of_not_mem _ hline, Nat.zero_add]
      rw [hspot]
      exact hcursor
  · have hlast : splitAtChar '\n' (')' :: rest) = (')' :: first) :: others := by
      rw [splitAtChar, if_neg (by decide), hrest]
    obtain ⟨rfl, rfl⟩ : text ++ ')' :: first = here ∧ others = below := by
      have hsplit' := hsplit
      rw [splitAtChar_append_of_not_mem hmem hlast] at hsplit'
      simpa using hsplit'
    refine ⟨_, readParameters_closed (scanParens_closed htext first) others, .refl _, ?_, hrest⟩
    have hline : '\n' ∉ text ++ [')'] := by simp [hmem]
    rw [Spot.after_of_not_mem _ hline, size_append]
    rfl

/-! ### The body -/

/-- **The brace behind blanks** is found, on whichever line it stands. -/
theorem exists_findBody {gap : List Char} (hgap : Blank gap) (rest : List Char)
    (line offset : Nat) {here : Line} {below : List Line}
    (hsplit : splitAtChar '\n' (gap ++ '{' :: rest) = here :: below) :
    ∃ cursor, findBody line offset here below = .ok cursor
      ∧ cursor.At (Spot.after ⟨line, offset⟩ gap) ('{' :: rest) := by
  induction hlength : gap.length using Nat.strongRecOn
    generalizing gap line offset here below with
  | ind length ih =>
  have hbraces : ∀ {front : Line}, Blank front → '{' ∉ front :=
    fun hfront => not_mem_of_isBlankLine hfront (by decide)
  by_cases hmem : '\n' ∈ gap
  · obtain ⟨front, tail, rfl, hfront⟩ := List.eq_append_cons_of_mem hmem
    obtain ⟨hblank, htail⟩ : Blank front ∧ Blank tail := by
      simp only [Blank, isBlankLine, List.all_append, List.all_cons, Bool.and_eq_true] at hgap
      exact ⟨hgap.1, hgap.2.2⟩
    obtain ⟨next, below', hnext⟩ :=
      List.exists_cons_of_ne_nil (splitAtChar_ne_nil '\n' (tail ++ '{' :: rest))
    obtain ⟨rfl, rfl⟩ : front = here ∧ next :: below' = below := by
      have hsplit' := hsplit
      rw [List.append_assoc, List.cons_append, splitAtChar_append, splitAtChar_of_not_mem hfront,
        hnext] at hsplit'
      simpa using hsplit'
    obtain ⟨cursor, hfind, hcursor⟩ :=
      ih tail.length (by rw [← hlength]; simp; omega) htail (line + 1) 0 hnext rfl
    refine ⟨cursor, ?_, ?_⟩
    · have hnone : braceInLine? line offset front (next :: below') = none := by
        have hdrop : front.dropWhile (· != '{') = [] := by
          rw [List.dropWhile_eq_nil_iff]
          intro c hc
          rw [bne_iff_ne]
          rintro rfl
          exact hbraces hblank hc
        simp [braceInLine?, hdrop]
      rw [findBody, hnone]
      simp only [if_neg (not_mem_of_isBlankLine hblank (show isBlank ';' = false by decide))]
      exact hfind
    · rw [Spot.after_append, Spot.after_of_not_mem _ hfront]
      exact hcursor
  · obtain ⟨first, others, hrest⟩ := List.exists_cons_of_ne_nil (splitAtChar_ne_nil '\n' rest)
    have hbrace : splitAtChar '\n' ('{' :: rest) = ('{' :: first) :: others := by
      rw [splitAtChar, if_neg (by decide), hrest]
    obtain ⟨rfl, rfl⟩ : gap ++ '{' :: first = here ∧ others = below := by
      have hsplit' := hsplit
      rw [splitAtChar_append_of_not_mem hmem hbrace] at hsplit'
      simpa using hsplit'
    have hpass : ∀ c ∈ gap, (c != '{') = true := by
      intro c hc
      rw [bne_iff_ne]
      rintro rfl
      exact hbraces hgap hc
    have hfound : braceInLine? line offset (gap ++ '{' :: first) others
        = some ⟨line, offset + size gap, '{' :: first, others⟩ := by
      simp [braceInLine?, List.dropWhile_append_of_pos hpass, List.takeWhile_append_of_pos hpass]
    refine ⟨⟨line, offset + size gap, '{' :: first, others⟩, ?_, ?_, hbrace⟩
    · cases others <;> rw [findBody, hfound]
    · rw [Spot.after_of_not_mem _ hmem]

/-- The brace that closes a body is the one behind what is balanced. -/
theorem matchingClose?_bracesAfter {inside : List Char}
    (hinside : Balanced (inside.filterMap nesting?)) (spot : Spot) (rest : List Char) :
    matchingClose? 0 (bracesAfter spot (inside ++ '}' :: rest)) = some (spot.after inside) := by
  rw [bracesAfter_append, matchingClose?_append_of_balanced hinside _ _ 0
    (map_opens_bracesAfter spot inside)]
  exact matchingClose?_found rfl

theorem map_fst_locateParameters (segments : List Segment) (names : List Line) :
    (locateParameters segments names).map (·.1) = names.map String.ofList := by
  induction names generalizing segments with
  | nil => rfl
  | cons name names ih =>
    rw [locateParameters]
    split <;> rw [List.map_cons, List.map_cons, ih]

/-! ### All of it together -/

/-- **A header in any layout is read.**  Its names are those of the list, and its body goes from the
    brace behind the gap to the brace behind what is balanced. -/
theorem exists_readHeader {names : List Line} {list gap inside rest : List Char}
    (hlist : Lists Blank names list) (hgap : Blank gap)
    (hinside : Balanced (inside.filterMap nesting?)) (line : Nat) (head : HeadStart)
    {below : List Line}
    (hsplit : splitAtChar '\n' (list ++ ')' :: (gap ++ '{' :: (inside ++ '}' :: rest)))
      = head.rest :: below) :
    ∃ header, readHeader line head below = .ok header
      ∧ header.keyword = ⟨line, head.keyword⟩
      ∧ header.name = String.ofList head.name
      ∧ header.span = ⟨line, head.nameStart, head.nameStart + size head.name⟩
      ∧ header.parameters.map (·.1) = names.map String.ofList
      ∧ header.opens = Spot.after ⟨line, head.paren + 1⟩ (list ++ ')' :: gap)
      ∧ header.closes
        = Spot.after ⟨line, head.paren + 1⟩ (list ++ ')' :: (gap ++ '{' :: inside)) := by
  have hinert : ∀ c ∈ list, IsInert c := fun c hc hstop => hlist.not_mem hstop hc
  obtain ⟨found, hread, hspace, hcursor⟩ :=
    exists_readParameters hinert _ [] line (head.paren + 1) hsplit
  have hnames : splitParameters found.text = names :=
    splitParameters_of_lists (hlist.respaced hspace)
  obtain ⟨body, hfind, hbody⟩ :=
    exists_findBody hgap (inside ++ '}' :: rest) found.cursor.line found.cursor.offset hcursor.2
  rw [hcursor.1, ← Spot.after_append] at hbody
  have hopens : (⟨body.line, body.offset⟩ : Spot)
      = Spot.after ⟨line, head.paren + 1⟩ (list ++ ')' :: gap) := by
    rw [hbody.1]
    simp
  -- the braces behind the one that opens the body
  have htail : body.braces.tail = bracesAfter
      (Spot.step ⟨body.line, body.offset⟩ '{') (inside ++ '}' :: rest) := by
    rw [hbody.braces_eq, hbody.1]
    rfl
  have hcloses := matchingClose?_bracesAfter hinside (Spot.step ⟨body.line, body.offset⟩ '{') rest
  have hlast : Spot.after (Spot.step ⟨body.line, body.offset⟩ '{') inside
      = Spot.after ⟨line, head.paren + 1⟩ (list ++ ')' :: (gap ++ '{' :: inside)) := by
    rw [hopens, ← List.cons_append, ← List.append_assoc, Spot.after_append _ (list ++ ')' :: gap)]
    rfl
  rw [← htail, ← Cursor.partner?] at hcloses
  have hheader : readHeader line head below = .ok
      { keyword := ⟨line, head.keyword⟩
        name := String.ofList head.name
        span := ⟨line, head.nameStart, head.nameStart + size head.name⟩
        parameters := locateParameters found.segments names
        opens := ⟨body.line, body.offset⟩
        closes := (Spot.step ⟨body.line, body.offset⟩ '{').after inside
        lastLine := found.cursor.line } := by
    rw [readHeader, hread]
    simp only [bind, Except.bind, hfind, hcloses, hnames, pure, Except.pure]
  exact ⟨_, hheader, rfl, rfl, rfl, map_fst_locateParameters found.segments names, hopens, hlast⟩

/-- What stands above a line has no other influence on what is found from there on than to mark
    lines as taken up by a header. -/
theorem exists_bodyFindings_append (syn : ModuleSyntax) (free line : Nat) (above code : List Line) :
    ∃ earlier free', bodyFindings syn free line (above ++ code)
      = earlier ++ bodyFindings syn free' (line + above.length) code := by
  induction above generalizing free line with
  | nil => exact ⟨[], free, rfl⟩
  | cons text above ih =>
    have hlength : line + (text :: above).length = line + 1 + above.length := by
      rw [List.length_cons]
      omega
    rw [List.cons_append, bodyFindings, hlength]
    split
    · obtain ⟨earlier, free', heq⟩ := ih free (line + 1)
      exact ⟨_ :: earlier, free', by rw [heq]; rfl⟩
    · dsimp only
      generalize List.foldl _ free _ = taken
      obtain ⟨earlier, free', heq⟩ := ih taken (line + 1)
      rw [heq, ← List.append_assoc]
      exact ⟨_, free', rfl⟩

/-- A line that begins with a header imports nothing. -/
theorem useStatement?_def (syn : ModuleSyntax) (rest : Line) :
    syn.useStatement? ('d' :: rest) = none := by
  rw [ModuleSyntax.useStatement?, ModuleSyntax.statement?, trimStart_of_head (by decide)]
  rfl

/-- The function of a line that begins with a header is found first. -/
theorem exists_bodyFindings_cons (syn : ModuleSyntax) (free : Nat) {line : Nat} {first : Line}
    {below : List Line} {head : HeadStart} {later : List HeadStart} {header : Header}
    (hheads : headStarts none 0 ('d' :: first) = head :: later)
    (hread : readHeader line head below = .ok header) :
    ∃ rest, bodyFindings syn free line (('d' :: first) :: below) = .function header :: rest := by
  rw [bodyFindings, useStatement?_def]
  simp only [hheads, List.map_cons, hread, List.filterMap_cons, functionFinding?, List.cons_append]
  exact ⟨_, rfl⟩

end ScriptServer.Declaration

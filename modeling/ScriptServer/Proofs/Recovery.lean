import ScriptServer.Proofs.Header
import ScriptServer.Proofs.Visibility

namespace ScriptServer

/-!
# Functions are found in any layout and behind any code

Reading goes on behind a declaration that makes no sense, and a header may be laid out in any way.
So a function that is written correctly is found whatever stands before it and behind it.

* `FunctionLayout` — a function as it may be written: names, gaps, the parameter list, the body.
* `FunctionLayout.maskText_eq` — its mask, part by part.
* `FunctionLayout.exists_header` — the header that is read from it.
* `Outline.function_found_in_any_layout` — its symbol and those of its parameters are in the table.
-/

open Text Declaration

/-- A function as it may be written.  Keyword, name and opening parenthesis stand on one line. -/
structure FunctionLayout where
  name : Line
  params : List Line
  /-- What stands between the keyword and the name. -/
  gap : List Char
  /-- What stands between the name and the opening parenthesis. -/
  parenGap : List Char
  /-- What stands between the parentheses. -/
  list : List Char
  /-- What stands between the closing parenthesis and the body. -/
  bodyGap : List Char
  /-- What stands between the braces. -/
  body : List Char
  isName : IsName name
  gap_ne_nil : gap ≠ []
  isGap : Gap gap
  gap_oneLine : '\n' ∉ gap
  isParenGap : Gap parenGap
  parenGap_oneLine : '\n' ∉ parenGap
  lists : Lists Gap params list
  isBodyGap : Gap bodyGap
  /-- The body ends outside of comments and strings. -/
  body_inCode : (Region.code.after body).inCode = true
  /-- The braces in the code of the body are balanced. -/
  body_balanced :
    Balanced ((braces 0 (maskCode (splitLines (String.ofList body)))).map (·.opens))

namespace FunctionLayout

/-- The text up to the name. -/
def upToName (layout : FunctionLayout) : List Char := ['d', 'e', 'f'] ++ layout.gap

/-- The text up to the brace that opens the body. -/
def upToBody (layout : FunctionLayout) : List Char :=
  layout.upToName ++ layout.name ++ layout.parenGap ++ '(' :: (layout.list ++ ')' :: layout.bodyGap)

/-- The text up to the brace that closes the body. -/
def upToEnd (layout : FunctionLayout) : List Char := layout.upToBody ++ '{' :: layout.body

/-- All of the text. -/
def text (layout : FunctionLayout) : List Char := layout.upToEnd ++ ['}']

/-! ### The mask -/

/-- The gap before the name, as code. -/
def maskedGap (layout : FunctionLayout) : List Char := maskText .code layout.name.head? layout.gap

/-- The gap behind the name, as code. -/
def maskedParenGap (layout : FunctionLayout) : List Char :=
  maskText .code (some '(') layout.parenGap

/-- The parameter list, as code. -/
def maskedList (layout : FunctionLayout) : List Char := maskText .code (some ')') layout.list

/-- The gap before the body, as code. -/
def maskedBodyGap (layout : FunctionLayout) : List Char := maskText .code (some '{') layout.bodyGap

/-- The body, as code. -/
def maskedBody (layout : FunctionLayout) : List Char := maskText .code (some '}') layout.body

end FunctionLayout

namespace Text

/-- What follows a text that leads back to code is read as code. -/
theorem maskText_append_of_code {a : List Char} (ha : Region.code.after a = .code)
    (next : Option Char) (b : List Char) :
    maskText .code next (a ++ b) = maskText .code (b.head?.or next) a ++ maskText .code next b := by
  rw [maskText_append, ha]

theorem maskText_append_of_isPlain {a : List Char} (ha : ∀ c ∈ a, IsPlain c) (next : Option Char)
    (b : List Char) : maskText .code next (a ++ b) = a ++ maskText .code next b := by
  rw [maskText_append_of_code (maskText_of_isPlain ha none).2, (maskText_of_isPlain ha _).1]

theorem maskText_cons_of_isPlain {c : Char} (hc : IsPlain c) (next : Option Char)
    (b : List Char) : maskText .code next (c :: b) = c :: maskText .code next b :=
  maskText_append_of_isPlain (a := [c]) (by simpa using hc) next b

/-- A brace behind code is code, be there a slash before it or not. -/
theorem maskText_brace {region : Region} (h : region.inCode = true) (next : Option Char)
    (rest : List Char) : maskText region next ('}' :: rest) = '}' :: maskText .code next rest := by
  have hstep : region.step '}' = .code := by
    cases region <;> simp_all [Region.inCode] <;> rfl
  have hglyph : ∀ next, glyph region '}' next = ['}'] := fun next => by
    cases region <;> simp_all [Region.inCode] <;> rfl
  rw [maskText, hstep, hglyph]
  rfl

theorem filterMap_nesting?_glyph (region : Region) (c : Char) (next next' : Option Char) :
    (glyph region c next).filterMap nesting? = (glyph region c next').filterMap nesting? := by
  by_cases hbrace : c = '{' ∨ c = '}'
  · -- only what follows a slash or a carriage return has a say in what is left of it
    have hglyph : ∀ next, glyph region c next = glyph region c none := by
      intro next
      rcases hbrace with rfl | rfl <;> cases region <;> rfl
    rw [hglyph next, hglyph next']
  · have hnone : ∀ next, (glyph region c next).filterMap nesting? = [] := by
      intro next
      rw [List.filterMap_eq_nil_iff]
      intro d hd
      have hd' : d = c ∨ d = ' ' := by
        simp only [glyph] at hd
        split at hd
        · simp_all
        · split at hd
          · simp at hd
          · split at hd
            · exact .inr (List.eq_of_mem_replicate hd)
            · exact .inl (by simpa using hd)
      rw [not_or] at hbrace
      rcases hd' with rfl | rfl
      · simp [nesting?, hbrace]
      · rfl
    rw [hnone, hnone]

/-- The braces of a mask do not depend on what follows the text. -/
theorem filterMap_nesting?_maskText (region : Region) (text : List Char)
    (next next' : Option Char) :
    (maskText region next text).filterMap nesting?
      = (maskText region next' text).filterMap nesting? := by
  induction text generalizing region with
  | nil => rfl
  | cons c rest ih =>
    rw [maskText, maskText, List.filterMap_append, List.filterMap_append, ih,
      filterMap_nesting?_glyph region c (rest.head?.or next) (rest.head?.or next')]

/-- The braces of the code of a text, taken from its mask. -/
theorem map_opens_braces_maskCode (text : List Char) :
    (braces 0 (maskCode (splitLines (String.ofList text)))).map (·.opens)
      = (maskText .code none text).filterMap nesting? := by
  obtain ⟨first, others, hsplit⟩ :=
    List.exists_cons_of_ne_nil (splitAtChar_ne_nil '\n' (maskText .code none text))
  rw [maskCode_splitLines, String.toList_ofList, ← map_opens_bracesAfter .origin,
    bracesAfter_eq .origin hsplit, hsplit]
  rfl

end Text

namespace FunctionLayout

variable (layout : FunctionLayout)

/-- **The mask of a function**, part by part. -/
theorem maskText_eq (after : List Char) :
    maskText .code none (layout.text ++ after)
      = ['d', 'e', 'f'] ++ layout.maskedGap ++ layout.name ++ layout.maskedParenGap
          ++ '(' :: (layout.maskedList ++ ')' :: (layout.maskedBodyGap
            ++ '{' :: (layout.maskedBody ++ '}' :: maskText .code none after))) := by
  have htext : layout.text ++ after
      = ['d', 'e', 'f'] ++ (layout.gap ++ (layout.name ++ (layout.parenGap
          ++ '(' :: (layout.list ++ ')' :: (layout.bodyGap
            ++ '{' :: (layout.body ++ '}' :: after)))))) := by
    simp [text, upToEnd, upToBody, upToName]
  have hhead : ∀ rest, (layout.name ++ rest).head?.or none = layout.name.head? := by
    intro rest
    obtain ⟨c, word, hname⟩ := List.exists_cons_of_ne_nil layout.isName.ne_nil
    simp [hname]
  have hkeyword : ∀ c ∈ ['d', 'e', 'f'], IsPlain c := by simp [IsPlain]
  rw [htext, maskText_append_of_isPlain hkeyword,
    maskText_append_of_code layout.isGap.maskedBlank.1, hhead,
    maskText_append_of_isPlain layout.isName.isPlain,
    maskText_append_of_code layout.isParenGap.maskedBlank.1,
    maskText_cons_of_isPlain (by decide), maskText_append_of_code layout.lists.mask.1,
    maskText_cons_of_isPlain (by decide), maskText_append_of_code layout.isBodyGap.maskedBlank.1,
    maskText_cons_of_isPlain (by decide), maskText_append, maskText_brace layout.body_inCode]
  simp [maskedGap, maskedParenGap, maskedList, maskedBodyGap, maskedBody]

/-- The masks of the gaps are blank. -/
theorem blank_maskedGap : Blank layout.maskedGap := layout.isGap.maskedBlank.2 _

theorem blank_maskedParenGap : Blank layout.maskedParenGap := layout.isParenGap.maskedBlank.2 _

theorem blank_maskedBodyGap : Blank layout.maskedBodyGap := layout.isBodyGap.maskedBlank.2 _

theorem lists_maskedList : Lists Blank layout.params layout.maskedList :=
  layout.lists.mask.2 _

theorem balanced_maskedBody : Balanced (layout.maskedBody.filterMap nesting?) := by
  have h := layout.body_balanced
  rw [map_opens_braces_maskCode, filterMap_nesting?_maskText _ _ none (some '}')] at h
  exact h

/-! ### Places -/

/-- The gap before the name takes up as much room as its mask. -/
theorem after_maskedGap (spot : Spot) : spot.after layout.maskedGap = spot.after layout.gap := by
  obtain ⟨c, word, hname, hc, -⟩ := layout.isName
  have hline : c ≠ '\n' := by rintro rfl; exact absurd hc (by decide)
  rw [maskedGap, hname]
  exact Spot.after_maskText spot .code hline layout.gap

theorem after_maskedParenGap (spot : Spot) :
    spot.after layout.maskedParenGap = spot.after layout.parenGap :=
  Spot.after_maskText spot .code (by decide) layout.parenGap

theorem after_maskedList (spot : Spot) : spot.after layout.maskedList = spot.after layout.list :=
  Spot.after_maskText spot .code (by decide) layout.list

theorem after_maskedBodyGap (spot : Spot) :
    spot.after layout.maskedBodyGap = spot.after layout.bodyGap :=
  Spot.after_maskText spot .code (by decide) layout.bodyGap

theorem after_maskedBody (spot : Spot) : spot.after layout.maskedBody = spot.after layout.body :=
  Spot.after_maskText spot .code (by decide) layout.body

/-- Something is left of the gap before the name. -/
theorem maskedGap_ne_nil : layout.maskedGap ≠ [] := by
  intro hnil
  have hspot := layout.after_maskedGap .origin
  rw [hnil, Spot.after_of_not_mem _ layout.gap_oneLine] at hspot
  have hsize := size_pos layout.gap_ne_nil
  have hzero : 0 = 0 + size layout.gap := congrArg Spot.offset hspot
  omega

/-! ### The header in the code -/

/-- **The function in the code.**  Its first line begins with a header, which is read to its end. -/
theorem exists_header (line : Nat) (after : List Char) :
    ∃ first below head later header,
      splitAtChar '\n' (maskText .code none (layout.text ++ after)) = ('d' :: first) :: below
        ∧ headStarts none 0 ('d' :: first) = head :: later
        ∧ readHeader line head below = .ok header
        ∧ header.name = String.ofList layout.name
        ∧ (⟨header.span.line, header.span.start⟩ : Spot) = Spot.after ⟨line, 0⟩ layout.upToName
        ∧ header.parameters.map (·.1) = layout.params.map String.ofList
        ∧ header.opens = Spot.after ⟨line, 0⟩ layout.upToBody
        ∧ header.closes = Spot.after ⟨line, 0⟩ layout.upToEnd := by
  -- what stands before the parameters is on one line
  have hfront : '\n' ∉ ['d', 'e', 'f'] ++ layout.maskedGap ++ layout.name ++ layout.maskedParenGap
      ++ ['('] := by
    simp only [List.mem_append, not_or]
    exact ⟨⟨⟨⟨by decide, not_mem_maskText layout.gap_oneLine _ _⟩,
      layout.isName.not_mem (by decide)⟩, not_mem_maskText layout.parenGap_oneLine _ _⟩, by decide⟩
  obtain ⟨rest, below, hrest⟩ := List.exists_cons_of_ne_nil (splitAtChar_ne_nil '\n'
    (layout.maskedList ++ ')' :: (layout.maskedBodyGap
      ++ '{' :: (layout.maskedBody ++ '}' :: maskText .code none after))))
  obtain ⟨later, hheads⟩ := headStarts_eq layout.maskedGap_ne_nil layout.blank_maskedGap
    layout.isName layout.blank_maskedParenGap rest
  obtain ⟨header, hread, -, hname, hspan, hparams, hopens, hcloses⟩ :=
    exists_readHeader layout.lists_maskedList layout.blank_maskedBodyGap
      layout.balanced_maskedBody line ⟨0, 3 + size layout.maskedGap, layout.name,
        3 + size layout.maskedGap + size layout.name + size layout.maskedParenGap, rest⟩ hrest
  have hsplit : splitAtChar '\n' (maskText .code none (layout.text ++ after))
      = (['d', 'e', 'f'] ++ layout.maskedGap ++ layout.name ++ layout.maskedParenGap ++ '(' :: rest)
          :: below := by
    rw [layout.maskText_eq, List.append_cons, splitAtChar_append_of_not_mem hfront hrest,
      ← List.append_cons]
  have hnameSpot : (⟨line, 3 + size layout.maskedGap⟩ : Spot)
      = Spot.after ⟨line, 0⟩ layout.upToName := by
    have hline : '\n' ∉ ['d', 'e', 'f'] ++ layout.maskedGap := by
      simp only [List.mem_append, not_or] at hfront ⊢
      exact hfront.1.1.1
    rw [upToName, Spot.after_append, ← layout.after_maskedGap, ← Spot.after_append,
      Spot.after_of_not_mem _ hline, size_append, Nat.zero_add]
    rfl
  have hparen : (⟨line, 3 + size layout.maskedGap + size layout.name
        + size layout.maskedParenGap + 1⟩ : Spot)
      = Spot.after ⟨line, 0⟩ (layout.upToName ++ layout.name ++ layout.parenGap ++ ['(']) := by
    have hmasked := Spot.after_of_not_mem ⟨line, 0⟩ hfront
    simp only [Spot.after_append, after_maskedGap, after_maskedParenGap] at hmasked
    simp only [upToName, Spot.after_append, hmasked, size_append, Nat.zero_add]
    rfl
  refine ⟨_, below, _, later, header, hsplit, hheads, hread, hname, ?_, hparams, ?_, ?_⟩
  · rw [hspan]
    exact hnameSpot
  · rw [hopens, hparen, upToBody]
    simp only [Spot.after_append, Spot.after_cons, after_maskedList, after_maskedBodyGap]
    rfl
  · rw [hcloses, hparen, upToEnd, upToBody]
    simp only [Spot.after_append, Spot.after_cons, after_maskedList, after_maskedBodyGap,
      after_maskedBody]
    rfl

end FunctionLayout

/-! ### The symbols -/

namespace Outline

/-- The symbols of a finding do not begin with a parameter. -/
theorem kind_head_symbols (page : Page) (found : List Finding) :
    ∀ s ∈ (found.flatMap (symbols page)).head?, s.kind ≠ .param := by
  cases found with
  | nil => simp
  | cons finding found =>
    intro s hs
    cases finding with
    | declares | imports =>
      obtain rfl := Option.mem_some_iff.mp hs
      simp [Symbol.kind, moduleSymbol]
    | function header =>
      obtain rfl := Option.mem_some_iff.mp hs
      simp [Symbol.kind, functionSymbol]
    | assigns =>
      obtain rfl := Option.mem_some_iff.mp hs
      simp [Symbol.kind, variableSymbol]

/-- A text that is empty or ends with a line break, and does not end in a block comment, is followed
    by code at the beginning of a line. -/
theorem begins_in_code {before : List Char} (hline : before = [] ∨ before.getLast? = some '\n')
    (hcomment : (Region.code.after before).inComment = false) :
    Region.code.after before = .code ∧ (Spot.origin.after before).offset = 0 := by
  rcases hline with rfl | hlast
  · exact ⟨rfl, rfl⟩
  · obtain ⟨front, rfl⟩ := List.getLast?_eq_some_iff.mp hlast
    rw [Region.after_append] at hcomment ⊢
    rw [Spot.after_append]
    refine ⟨?_, rfl⟩
    cases hfront : Region.code.after front with
    | comment => rw [hfront] at hcomment; cases hcomment
    | star => rw [hfront] at hcomment; cases hcomment
    | _ => rfl

/-- **Finding the function.**  Its header is among the findings, at the places that the text
    gives. -/
theorem exists_finding (syn : ModuleSyntax) {before : List Char} (layout : FunctionLayout)
    (after : List Char) (hline : before = [] ∨ before.getLast? = some '\n')
    (hcomment : (Region.code.after before).inComment = false) :
    ∃ earlier header later,
      findings syn (Source.ofText (String.ofList (before ++ layout.text ++ after))).code
          = earlier ++ .function header :: later
        ∧ header.name = String.ofList layout.name
        ∧ (⟨header.span.line, header.span.start⟩ : Spot)
          = Spot.origin.after (before ++ layout.upToName)
        ∧ header.parameters.map (·.1) = layout.params.map String.ofList
        ∧ header.opens = Spot.origin.after (before ++ layout.upToBody)
        ∧ header.closes = Spot.origin.after (before ++ layout.upToEnd) := by
  obtain ⟨hcode, hoffset⟩ := begins_in_code hline hcomment
  -- the code above the function, and the line on which the function begins
  have hspot := Spot.after_maskText .origin .code (show 'd' ≠ '\n' by decide) before
  obtain ⟨above, last, -, hcut, habove, -⟩ := exists_cut (maskText .code (some 'd') before)
  rw [hspot] at habove
  obtain rfl : last = [] := by
    by_contra hne
    have hpos := size_pos hne
    rw [habove] at hoffset
    exact absurd hoffset (by show size last ≠ 0; omega)
  obtain ⟨first, below, head, heads, header, hsplit, hheads, hread, hname, hspan, hparams, hopens,
    hcloses⟩ := layout.exists_header above.length after
  have hlines : (Source.ofText (String.ofList (before ++ layout.text ++ after))).code
      = above ++ ('d' :: first) :: below := by
    show maskCode (splitLines _) = _
    rw [maskCode_splitLines, String.toList_ofList, List.append_assoc, maskText_append, hcode]
    exact hcut hsplit
  obtain ⟨earlier, free, habove'⟩ :=
    exists_bodyFindings_append syn 0 0 above (('d' :: first) :: below)
  rw [Nat.zero_add] at habove'
  obtain ⟨later, hfound⟩ := exists_bodyFindings_cons syn free hheads hread
  refine ⟨(moduleFinding? syn (above ++ ('d' :: first) :: below)).toList ++ earlier, header, later,
    ?_, hname, ?_, hparams, ?_, ?_⟩
  · rw [hlines, findings, habove', hfound, List.append_assoc]
  · rw [Spot.after_append, habove]
    exact hspan
  · rw [Spot.after_append, habove]
    exact hopens
  · rw [Spot.after_append, habove]
    exact hcloses

/-- **Functions are found in any layout and behind any code.**  Let a function be written with
    blanks, line breaks and comments wherever they may stand, and let any text stand before it, as
    long as the function begins a line and is not inside a comment, and any text behind it.  Then
    the symbol table holds a function of that name at that place, with exactly these parameters, and
    right behind it the symbols of exactly these parameters, whose scope is the body. -/
theorem function_found_in_any_layout (syn : ModuleSyntax) (uri : Uri) (before : List Char)
    (layout : FunctionLayout) (after : List Char)
    (hline : before = [] ∨ before.getLast? = some '\n')
    (hcomment : (Region.code.after before).inComment = false) :
    ∃ earlier function parameters later doc scope topLevel,
      (table syn uri (String.ofList (before ++ layout.text ++ after))).symbols
          = earlier ++ function :: parameters ++ later
        ∧ function.name = String.ofList layout.name
        ∧ function.position = Position.origin.after (before ++ layout.upToName)
        ∧ function.role = .func (layout.params.map String.ofList) doc scope
            ⟨Position.origin.after (before ++ layout.upToBody),
              Position.origin.after (before ++ layout.upToEnd)⟩ topLevel
        ∧ parameters.map (·.name) = layout.params.map String.ofList
        ∧ (∀ parameter ∈ parameters, parameter.role = .param (String.ofList layout.name)
            ⟨Position.origin.after (before ++ layout.upToBody),
              Position.origin.after (before ++ layout.upToEnd)⟩)
        ∧ ∀ next ∈ later.head?, next.kind ≠ .param := by
  obtain ⟨earlier, header, later, hfound, hname, hspan, hparams, hopens, hcloses⟩ :=
    exists_finding syn layout after hline hcomment
  obtain ⟨c, word, hcons, hc, -⟩ := layout.isName
  -- the three places in the text, each before a character that is no line break
  have hposition : ∀ (front : List Char) (d : Char) (rest : List Char), d ≠ '\n' →
      before ++ layout.text ++ after = front ++ d :: rest →
      (Source.ofText (String.ofList (before ++ layout.text ++ after))).position
        (Spot.origin.after front) = Position.origin.after front := by
    intro front d rest hd heq
    have htext : (String.ofList (before ++ layout.text ++ after)).toList = front ++ d :: rest := by
      rw [String.toList_ofList, heq]
    exact Source.position_after htext hd
  have hnamePosition := hposition (before ++ layout.upToName) c
    (word ++ layout.parenGap ++ '(' :: (layout.list ++ ')' :: (layout.bodyGap
      ++ '{' :: (layout.body ++ '}' :: after)))) (by rintro rfl; exact absurd hc (by decide))
    (by simp [FunctionLayout.text, FunctionLayout.upToEnd, FunctionLayout.upToBody, hcons])
  have hopensPosition := hposition (before ++ layout.upToBody) '{' (layout.body ++ '}' :: after)
    (by decide) (by simp [FunctionLayout.text, FunctionLayout.upToEnd])
  have hclosesPosition := hposition (before ++ layout.upToEnd) '}' after (by decide)
    (by simp [FunctionLayout.text])
  obtain ⟨doc, scope, topLevel, hrole⟩ : ∃ doc scope topLevel,
      (functionSymbol (.ofText uri (String.ofList (before ++ layout.text ++ after))) header).role
        = .func (layout.params.map String.ofList) doc scope
            ⟨Position.origin.after (before ++ layout.upToBody),
              Position.origin.after (before ++ layout.upToEnd)⟩ topLevel := by
    simp only [functionSymbol, Page.ofText, hopens, hcloses, hopensPosition, hclosesPosition,
      hparams]
    exact ⟨_, _, _, rfl⟩
  refine ⟨_, _, _, _, doc, scope, topLevel, symbols_eq_of_findings uri hfound, hname, ?_, hrole,
    ?_, ?_, kind_head_symbols _ later⟩
  · simp only [Symbol.position, functionSymbol, Page.ofText, Source.range, hspan]
    exact hnamePosition
  · rw [List.map_map, ← hparams]
    rfl
  · intro parameter hparameter
    obtain ⟨located, -, rfl⟩ := List.mem_map.mp hparameter
    simp only [parameterSymbol, Page.ofText, hopens, hcloses, hopensPosition, hclosesPosition,
      hname]

/-- A function over three lines, with a comment among its parameters and a brace in a string. -/
def spreadLayout : FunctionLayout where
  name := ['f']
  params := [['a'], ['b']]
  gap := [' ']
  parenGap := []
  list := "a, // first\n  b".toList
  bodyGap := ['\n']
  body := " \x7b c = \"\x7d\" \x7d ".toList
  isName := by decide
  gap_ne_nil := by decide
  isGap := .blank rfl .nil
  gap_oneLine := by decide
  isParenGap := .nil
  parenGap_oneLine := by decide
  lists := by
    have hremark : Gap "// first\n  ".toList :=
      Gap.remark (show '\n' ∉ " first".toList by decide) (.blank rfl (.blank rfl .nil))
    have hlast : Lists Gap [['b']] " // first\n  b".toList :=
      Lists.last (Gap.blank rfl hremark) (show IsName ['b'] by decide) Gap.nil
    exact Lists.more Gap.nil (show IsName ['a'] by decide) Gap.nil hlast
  isBodyGap := .blank rfl .nil
  body_inCode := by decide
  body_balanced := Balanced.block .nil .nil

/-- The function is found behind a header that breaks off. -/
theorem function_found_behind_broken_header :
    (Region.code.after "def g( \x7b\n".toList).inComment = false
      ∧ ∃ earlier function parameters later doc scope topLevel,
        (table .standard ⟨"file:///f"⟩
            "def g( \x7b\ndef f(a, // first\n  b)\n\x7b \x7b c = \"\x7d\" \x7d \x7d\nh = 1").symbols
          = earlier ++ function :: parameters ++ later
        ∧ function.name = "f"
        ∧ function.position = ⟨1, 4⟩
        ∧ function.role = .func ["a", "b"] doc scope ⟨⟨3, 0⟩, ⟨3, 14⟩⟩ topLevel
        ∧ parameters.map (·.name) = ["a", "b"]
        ∧ (∀ parameter ∈ parameters, parameter.role = .param "f" ⟨⟨3, 0⟩, ⟨3, 14⟩⟩)
        ∧ ∀ next ∈ later.head?, next.kind ≠ .param :=
  ⟨by decide, function_found_in_any_layout .standard ⟨"file:///f"⟩ "def g( \x7b\n".toList
    spreadLayout "\nh = 1".toList (.inr rfl) rfl⟩

end Outline

end ScriptServer

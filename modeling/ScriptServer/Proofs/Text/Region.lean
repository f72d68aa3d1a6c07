import ScriptServer.Proofs.Text.Mask
import ScriptServer.Proofs.Text.Split

namespace ScriptServer.Text

/-!
# Reading a text character by character

Marking cuts a text into lines and looks at two characters at a time.  Here a text is read as a
whole and one character at a time, so that what is read can be cut anywhere.

* `Region` — where reading stands between two characters.
* `Region.after` — where it stands behind a text.
* `marks`, `markLine_eq` — the marks of a line, from the region before each character.
* `maskText` — a text with comments and the inside of strings blanked, line breaks kept.
* `maskText_append` — the mask of a text that is put together from two.
* `maskCode_splitLines` — cut into lines, it is the code of the text.
-/

/-- Where reading stands between two characters of a text. -/
inductive Region where
  | code
  /-- In code, behind a slash that may begin a comment. -/
  | slash
  /-- In a string opened by this quote. -/
  | quoted (quote : Char)
  /-- In a string, behind a backslash. -/
  | escaped (quote : Char)
  /-- In a comment that ends with the line. -/
  | remark
  /-- In a block comment. -/
  | comment
  /-- In a block comment, behind a star that may end it. -/
  | star
  deriving DecidableEq, Repr

namespace Region

/-- Where a character of code leads. -/
def ofCode (c : Char) : Region :=
  if c = '/' then .slash else if c = '"' ∨ c = '\x27' then .quoted c else .code

/-- Where a line break leads: only a block comment goes on. -/
def newLine : Region → Region
  | .comment => .comment
  | .star => .comment
  | _ => .code

/-- Where a character leads. -/
def step (region : Region) (c : Char) : Region :=
  if c = '\n' then region.newLine
  else match region with
    | .code => ofCode c
    | .slash => if c = '/' then .remark else if c = '*' then .comment else ofCode c
    | .quoted quote =>
      if c = '\\' then .escaped quote else if c = quote then .code else .quoted quote
    | .escaped quote => .quoted quote
    | .remark => .remark
    | .comment => if c = '*' then .star else .comment
    | .star => if c = '/' then .code else if c = '*' then .star else .comment

/-- Where reading stands behind a text. -/
def after (region : Region) (text : List Char) : Region := text.foldl step region

/-- Whether reading stands inside a block comment. -/
def inComment : Region → Bool
  | .comment => true
  | .star => true
  | _ => false

/-- Whether reading stands outside of comments and strings. -/
def inCode : Region → Bool
  | .code => true
  | .slash => true
  | _ => false

/-- What a character belongs to, given the next one. -/
def mark (region : Region) (c : Char) (next : Option Char) : Mark :=
  match region with
  | .code => if c = '/' ∧ (next = some '/' ∨ next = some '*') then .comment else .code
  | .slash => if c = '/' ∨ c = '*' then .comment else .code
  | .quoted quote => if c = quote then .code else .literal
  | .escaped _ => .literal
  | _ => .comment

/-- The region of a zone. -/
def ofZone : Zone → Region
  | .code => .code
  | .quoted quote => .quoted quote
  | .comment => .comment

@[simp] theorem after_nil (region : Region) : region.after [] = region := rfl

@[simp] theorem after_cons (region : Region) (c : Char) (rest : List Char) :
    region.after (c :: rest) = (region.step c).after rest := rfl

@[simp] theorem after_append (region : Region) (a b : List Char) :
    region.after (a ++ b) = (region.after a).after b := List.foldl_append

end Region

/-- The marks of a line that begins in a region. -/
def marks : Region → Line → List (Char × Mark)
  | _, [] => []
  | region, c :: rest => (c, region.mark c rest.head?) :: marks (region.step c) rest

/-- In a comment that ends with the line everything is a comment. -/
theorem marks_remark {line : Line} (h : '\n' ∉ line) :
    marks .remark line = line.map (·, .comment) ∧ Region.after .remark line = .remark := by
  induction line with
  | nil => exact ⟨rfl, rfl⟩
  | cons c rest ih =>
    rw [List.mem_cons, not_or] at h
    have hc : c ≠ '\n' := fun hc => h.1 hc.symm
    obtain ⟨hmarks, hafter⟩ := ih h.2
    simp [marks, Region.mark, Region.step, hc, hmarks, hafter]

/-- A slash in code that begins no comment is like any other character. -/
theorem marks_slash {line : Line} (h : line.head? ≠ some '/') (h' : line.head? ≠ some '*') :
    marks .slash line = marks .code line
      ∧ (Region.after .slash line).inComment = (Region.after .code line).inComment := by
  cases line with
  | nil => exact ⟨rfl, rfl⟩
  | cons c rest =>
    have hc : c ≠ '/' := by simpa using h
    have hc' : c ≠ '*' := by simpa using h'
    have hstep : Region.step .slash c = Region.step .code c := by
      simp [Region.step, Region.newLine, hc, hc']
    simp [marks, Region.mark, hstep, hc, hc']

/-- A star in a block comment that does not end it is like any other character. -/
theorem marks_star {line : Line} (h : line.head? ≠ some '/') :
    marks .star line = marks .comment line
      ∧ (Region.after .star line).inComment = (Region.after .comment line).inComment := by
  cases line with
  | nil => exact ⟨rfl, rfl⟩
  | cons c rest =>
    have hc : c ≠ '/' := by simpa using h
    have hstep : Region.step .star c = Region.step .comment c := by
      simp [Region.step, Region.newLine, hc]
    simp [marks, Region.mark, hstep]

/-- A character of a block comment that is not the star before its end leaves the comment as it
    is. -/
theorem marks_step_comment {c : Char} {rest : Line} (hc : c ≠ '\n')
    (hends : c = '*' → rest.head? ≠ some '/') :
    marks (Region.step .comment c) rest = marks .comment rest
      ∧ ((Region.step .comment c).after rest).inComment
        = (Region.after .comment rest).inComment := by
  by_cases hstar : c = '*'
  · have hstep : Region.step .comment c = .star := by simp [Region.step, hstar]
    rw [hstep]
    exact marks_star (hends hstar)
  · have hstep : Region.step .comment c = .comment := by simp [Region.step, hstar, hc]
    rw [hstep]
    exact ⟨rfl, rfl⟩

/-- A character of code that begins no comment and no string leaves reading in code. -/
theorem marks_step_code {c : Char} {rest : Line} (hc : c ≠ '\n')
    (hquote : ¬ (c = '"' ∨ c = '\x27')) (hremark : c = '/' → rest.head? ≠ some '/')
    (hcomment : c = '/' → rest.head? ≠ some '*') :
    Region.mark .code c rest.head? = .code
      ∧ marks (Region.step .code c) rest = marks .code rest
      ∧ ((Region.step .code c).after rest).inComment = (Region.after .code rest).inComment := by
  by_cases hslash : c = '/'
  · have hstep : Region.step .code c = .slash := by
      rw [hslash]
      rfl
    rw [hstep]
    exact ⟨by simp [Region.mark, hremark hslash, hcomment hslash],
      marks_slash (hremark hslash) (hcomment hslash)⟩
  · have hstep : Region.step .code c = .code := by
      simp [Region.step, Region.ofCode, hc, hslash, hquote]
    rw [hstep]
    exact ⟨by simp [Region.mark, hslash], rfl, rfl⟩

/-- A character in front of a rest whose marks are known. -/
theorem Marked.cons_eq {region : Region} {c : Char} {rest : Line} {marked : Marked} {mark : Mark}
    (hmark : region.mark c rest.head? = mark)
    (hrest : marked.chars = marks (region.step c) rest
      ∧ marked.inComment = ((region.step c).after rest).inComment) :
    (marked.cons c mark).chars = marks region (c :: rest)
      ∧ (marked.cons c mark).inComment = (region.after (c :: rest)).inComment := by
  subst hmark
  exact ⟨by rw [marks, ← hrest.1]; rfl, hrest.2⟩

/-- **Marking a line is reading it character by character.**  No string is opened by a backslash. -/
theorem markLine_eq {zone : Zone} {line : Line} (hline : '\n' ∉ line)
    (hzone : zone ≠ .quoted '\\') :
    (markLine zone line).chars = marks (.ofZone zone) line
      ∧ (markLine zone line).inComment = (Region.after (.ofZone zone) line).inComment := by
  fun_induction markLine zone line with
  | case1 => exact ⟨rfl, rfl⟩
  | case2 => exact ⟨rfl, rfl⟩
  | case3 quote => exact ⟨rfl, rfl⟩
  | case4 rest ih =>
    have hrest : '\n' ∉ rest := by simp_all
    exact Marked.cons_eq rfl (Marked.cons_eq rfl (ih hrest (by simp)))
  | case5 c rest hends ih =>
    have hrest : '\n' ∉ rest := by simp_all
    have hc : c ≠ '\n' := by simp_all [eq_comm]
    obtain ⟨hmarks, hafter⟩ := marks_step_comment hc (head?_ne_of_not_pair hends)
    refine Marked.cons_eq rfl ?_
    show _ = marks (Region.step .comment c) rest
      ∧ _ = ((Region.step .comment c).after rest).inComment
    rw [hmarks, hafter]
    exact ih hrest (by simp)
  | case6 quote escaped rest ih =>
    have hrest : '\n' ∉ rest := by simp_all
    have hescaped : escaped ≠ '\n' := by simp_all [eq_comm]
    have hquote : quote ≠ '\\' := by simpa using hzone
    refine Marked.cons_eq ?_ (Marked.cons_eq rfl ?_)
    · simp [Region.mark, Region.ofZone, hquote.symm]
    · have hstep : (Region.step (.ofZone (.quoted quote)) '\\').step escaped = .quoted quote := by
        simp [Region.step, Region.ofZone, hescaped]
      rw [hstep]
      exact ih hrest hzone
  | case7 c rest _ ih =>
    have hrest : '\n' ∉ rest := by simp_all
    have hc : c ≠ '\n' := by simp_all [eq_comm]
    have hquote : c ≠ '\\' := by simpa using hzone
    refine Marked.cons_eq (by simp [Region.mark, Region.ofZone]) ?_
    have hstep : Region.step (.ofZone (.quoted c)) c = .code := by
      simp [Region.step, Region.ofZone, hc, hquote]
    rw [hstep]
    exact ih hrest (by simp)
  | case8 quote c rest hescape hc ih =>
    have hrest : '\n' ∉ rest := by simp_all
    have hline : c ≠ '\n' := by simp_all [eq_comm]
    refine Marked.cons_eq (by simp [Region.mark, Region.ofZone, hc]) ?_
    by_cases hslash : c = '\\'
    · -- a backslash at the end of the line hides nothing
      have hnil : rest = [] := by
        cases rest with
        | nil => rfl
        | cons d rest => exact absurd rfl (hescape d rest hslash)
      subst hnil hslash
      exact ⟨rfl, rfl⟩
    · have hstep : Region.step (.ofZone (.quoted quote)) c = .quoted quote := by
        simp [Region.step, Region.ofZone, hline, hslash, hc]
      rw [hstep]
      exact ih hrest hzone
  | case9 rest =>
    have hrest : '\n' ∉ rest := by simp_all
    obtain ⟨hmarks, hafter⟩ := marks_remark hrest
    have hstep : (Region.step (.ofZone .code) '/').step '/' = .remark := by decide
    refine ⟨?_, ?_⟩
    · rw [marks, marks, hstep, hmarks]
      rfl
    · rw [Region.after_cons, Region.after_cons, hstep, hafter]
      rfl
  | case10 rest ih =>
    have hrest : '\n' ∉ rest := by simp_all
    exact Marked.cons_eq rfl (Marked.cons_eq rfl (ih hrest (by simp)))
  | case11 c rest _ _ hquote ih =>
    have hrest : '\n' ∉ rest := by simp_all
    refine Marked.cons_eq ?_ ?_
    · rcases hquote with rfl | rfl <;> rfl
    · have hstep : Region.step (.ofZone .code) c = .quoted c := by
        rcases hquote with rfl | rfl <;> rfl
      rw [hstep]
      refine ih hrest ?_
      rcases hquote with rfl | rfl <;> simp
  | case12 c rest hremark hcomment hquote ih =>
    have hrest : '\n' ∉ rest := by simp_all
    have hc : c ≠ '\n' := by simp_all [eq_comm]
    obtain ⟨hmark, hmarks, hafter⟩ :=
      marks_step_code hc hquote (head?_ne_of_not_pair hremark) (head?_ne_of_not_pair hcomment)
    refine Marked.cons_eq hmark ?_
    show _ = marks (Region.step .code c) rest
      ∧ _ = ((Region.step .code c).after rest).inComment
    rw [hmarks, hafter]
    exact ih hrest (by simp)

/-! ### Masking a whole text -/

/-- What is left of a character, given the next one.  A line break stays, the carriage return before
    one goes, what is no code is blanked. -/
def glyph (region : Region) (c : Char) (next : Option Char) : Line :=
  if c = '\n' then ['\n']
  else if c = '\r' ∧ (next = none ∨ next = some '\n') then []
  else if region.mark c next != .code then blank c else [c]

/-- What is left of a text that begins in a region, given the character that follows it. -/
def maskText : Region → Option Char → List Char → List Char
  | _, _, [] => []
  | region, next, c :: rest =>
    glyph region c (rest.head?.or next) ++ maskText (region.step c) next rest

/-- **Masks of parts.**  The second part is read from where the first one has led, and the first
    part is followed by the second. -/
theorem maskText_append (region : Region) (next : Option Char) (a b : List Char) :
    maskText region next (a ++ b)
      = maskText region (b.head?.or next) a ++ maskText (region.after a) next b := by
  induction a generalizing region with
  | nil => rfl
  | cons c rest ih =>
    have hnext : (rest ++ b).head?.or next = rest.head?.or (b.head?.or next) := by
      cases rest <;> simp
    rw [List.cons_append, maskText, maskText, ih, hnext, Region.after_cons, List.append_assoc]

theorem not_mem_glyph {region : Region} {c : Char} (hc : c ≠ '\n') (next : Option Char) :
    '\n' ∉ glyph region c next := by
  unfold glyph
  rw [if_neg hc]
  split
  · exact List.not_mem_nil
  · split
    · exact not_mem_blank (by decide)
    · simpa using hc.symm

/-- A mask has no other line breaks than the text. -/
theorem not_mem_maskText {text : List Char} (h : '\n' ∉ text) (region : Region)
    (next : Option Char) : '\n' ∉ maskText region next text := by
  induction text generalizing region with
  | nil => exact List.not_mem_nil
  | cons c rest ih =>
    rw [List.mem_cons, not_or] at h
    rw [maskText, List.mem_append, not_or]
    exact ⟨not_mem_glyph (fun hc => h.1 hc.symm) _, ih h.2 _⟩

/-- At most a carriage return at the end is dropped. -/
theorem dropReturn_eq (line : Line) :
    dropReturn line = line ∨ line = dropReturn line ++ ['\r'] := by
  fun_induction dropReturn line with
  | case1 => exact .inl rfl
  | case2 => exact .inr rfl
  | case3 c rest _ ih =>
    rcases ih with heq | heq
    · exact .inl (by rw [heq])
    · exact .inr (by rw [List.cons_append, ← heq])

theorem Region.inComment_step_return (region : Region) :
    (region.step '\r').inComment = region.inComment := by
  cases region with
  | quoted quote =>
    by_cases hquote : '\r' = quote
    · subst hquote
      rfl
    · have hstep : Region.step (.quoted quote) '\r' = .quoted quote := by
        simp [Region.step, hquote]
      rw [hstep]
  | _ => rfl

theorem Region.inComment_after_dropReturn (region : Region) (line : Line) :
    (region.after (dropReturn line)).inComment = (region.after line).inComment := by
  rcases dropReturn_eq line with heq | heq
  · rw [heq]
  · conv_rhs => rw [heq, Region.after_append, Region.after_cons, Region.after_nil,
      Region.inComment_step_return]

/-- Only a slash or a star behind a character has a say in its mark. -/
theorem Region.mark_congr (region : Region) (c : Char) {next next' : Option Char}
    (h : next = next' ∨ ∀ d, d = '/' ∨ d = '*' → next ≠ some d ∧ next' ≠ some d) :
    region.mark c next = region.mark c next' := by
  rcases h with rfl | h
  · rfl
  · have hslash := h '/' (.inl rfl)
    have hstar := h '*' (.inr rfl)
    cases region <;> simp [Region.mark, hslash, hstar]

/-- **Rendered marks are the mask.**  What follows a line is the end of the text or a line break. -/
theorem render_marks_dropReturn {line : Line} (hline : '\n' ∉ line) {next : Option Char}
    (hnext : next = none ∨ next = some '\n') (region : Region) :
    render (· != .code) (marks region (dropReturn line)) = maskText region next line := by
  fun_induction dropReturn line generalizing region with
  | case1 => rfl
  | case2 =>
    -- a carriage return at the end
    rw [maskText, maskText, glyph, if_neg (by decide), if_pos ⟨rfl, hnext⟩]
    rfl
  | case3 c rest hlast ih =>
    rw [List.mem_cons, not_or] at hline
    have hc : c ≠ '\n' := fun hc => hline.1 hc.symm
    have hkept : ¬ (c = '\r' ∧ (rest.head?.or next = none ∨ rest.head?.or next = some '\n')) := by
      rintro ⟨rfl, hnext⟩
      cases rest with
      | nil => exact hlast rfl rfl
      | cons d rest => simp_all
    have hmark : region.mark c (dropReturn rest).head? = region.mark c (rest.head?.or next) := by
      apply Region.mark_congr
      cases rest with
      | nil =>
        refine .inr fun d hd => ?_
        rcases hnext with rfl | rfl <;> rcases hd with rfl | rfl <;> simp [dropReturn]
      | cons d rest =>
        -- the next character is the same, but for a carriage return
        rcases dropReturn_eq (d :: rest) with heq | heq
        · rw [heq]
          exact .inl rfl
        · cases hdrop : dropReturn (d :: rest) with
          | nil =>
            rw [hdrop] at heq
            obtain ⟨rfl, rfl⟩ : d = '\r' ∧ rest = [] := by simpa using heq
            exact .inr fun d hd => by rcases hd with rfl | rfl <;> simp
          | cons e others =>
            rw [hdrop] at heq
            obtain ⟨rfl, -⟩ : d = e ∧ rest = others ++ ['\r'] := by simpa using heq
            exact .inl rfl
    rw [marks, maskText, glyph, if_neg hc, if_neg hkept, ← ih hline.2, ← hmark]
    rfl

/-- Where the next line begins. -/
theorem Region.newLine_eq (region : Region) :
    region.newLine = .ofZone (if region.inComment then .comment else .code) := by
  cases region <;> rfl

/-- The code of some lines is the mask of the text that they are cut from. -/
theorem map_render_markLines (inComment : Bool) (text : List Char) :
    (markLines inComment ((splitAtChar '\n' text).map dropReturn)).map (render (· != .code))
      = splitAtChar '\n'
          (maskText (.ofZone (if inComment then .comment else .code)) none text) := by
  induction hlength : text.length using Nat.strongRecOn generalizing text inComment with
  | ind length ih =>
    have hzone : (if inComment then Zone.comment else .code) ≠ .quoted '\\' := by
      split <;> simp
    -- the first line of the text
    have hfirst : ∀ {line : Line} {next : Option Char}, '\n' ∉ line →
        next = none ∨ next = some '\n' →
        render (· != .code)
            (markLine (if inComment then .comment else .code) (dropReturn line)).chars
          = maskText (.ofZone (if inComment then .comment else .code)) next line
        ∧ (markLine (if inComment then .comment else .code) (dropReturn line)).inComment
          = ((Region.ofZone (if inComment then .comment else .code)).after line).inComment := by
      intro line next hline hnext
      have hdrop : '\n' ∉ dropReturn line := by
        rcases dropReturn_eq line with heq | heq
        · rw [heq]
          exact hline
        · intro hmem
          rw [heq] at hline
          exact hline (List.mem_append_left _ hmem)
      obtain ⟨hchars, hcomment⟩ := markLine_eq hdrop hzone
      rw [hchars, hcomment, render_marks_dropReturn hline hnext,
        Region.inComment_after_dropReturn]
      exact ⟨rfl, rfl⟩
    by_cases hmem : '\n' ∈ text
    · obtain ⟨line, rest, rfl, hline⟩ := List.eq_append_cons_of_mem hmem
      obtain ⟨hchars, hcomment⟩ := hfirst hline (.inr rfl)
      have hrest := ih rest.length (by rw [← hlength]; simp; omega)
        ((Region.ofZone (if inComment then .comment else .code)).after line).inComment rest rfl
      rw [splitAtChar_append, splitAtChar_of_not_mem hline, maskText_append, maskText,
        List.map_append, List.map_singleton, List.singleton_append, markLines, List.map_cons,
        hcomment, hrest, hchars]
      have hbreak : ∀ region next, glyph region '\n' next = ['\n'] := fun _ _ => if_pos rfl
      rw [hbreak, List.singleton_append, splitAtChar_append,
        splitAtChar_of_not_mem (not_mem_maskText hline _ _), ← Region.newLine_eq]
      rfl
    · obtain ⟨hchars, -⟩ := hfirst hmem (.inl rfl)
      rw [splitAtChar_of_not_mem hmem, splitAtChar_of_not_mem (not_mem_maskText hmem _ _)]
      exact congrArg (fun line => [line]) hchars

/-- **The code of a text** is its mask, cut into lines. -/
theorem maskCode_splitLines (text : String) :
    maskCode (splitLines text) = splitAtChar '\n' (maskText .code none text.toList) :=
  map_render_markLines false text.toList

end ScriptServer.Text

import ScriptServer.Proofs.Text.Quote

namespace ScriptServer.Text

/-!
# Masking twice

A mask can be masked again.  The second reading finds blanks where the first one found a comment,
and perhaps blanks inside of strings, but it never takes a blank for a marker or a quote.  So it
makes out the same strings and no comment, and hides nothing new.

* `mask` — lines with the characters of some marks blanked; both masks of a script are of this kind.
* `IsMask` — comments are hidden and code is kept.
* `reread` — what the second reading makes of a character.
* `Rereads`, `rereads_markLine` — reading a masked line again, character by character.
* `mask_mask` — masks compose: what either of them hides is hidden.
* `masks_are_projections` — the four compositions of the two masks.
-/

/-- Lines with the characters of some marks blanked. -/
def mask (hides : Mark → Bool) (lines : List Line) : List Line :=
  (markLines false lines).map (render hides)

/-- A mask hides comments and keeps code.  It may hide the inside of strings or not. -/
structure IsMask (hides : Mark → Bool) : Prop where
  comment : hides .comment = true
  code : ¬ hides .code = true

theorem isMask_comments : IsMask (· == .comment) := ⟨rfl, by decide⟩

theorem isMask_code : IsMask (· != .code) := ⟨rfl, by decide⟩

/-! ### Reading one more character -/

/-- A character that begins neither a string nor a comment is code. -/
theorem markLine_code_cons {c : Char} {rest : Line} (hquote : isQuote c = false)
    (hslash : c = '/' → rest.head? ≠ some '/' ∧ rest.head? ≠ some '*') :
    markLine .code (c :: rest) = (markLine .code rest).cons c .code := by
  have hnot : ¬ (c = '"' ∨ c = '\x27') := by simpa [isQuote] using hquote
  rw [markLine, if_neg hnot]
  · rintro rest' hc rfl
    exact (hslash hc).1 rfl
  · rintro rest' hc rfl
    exact (hslash hc).2 rfl

/-- A character that neither ends a string nor hides the next one belongs to the string. -/
theorem markLine_quoted_cons {quote c : Char} {rest : Line} (hc : c ≠ quote)
    (hslash : c = '\\' → rest = []) :
    markLine (.quoted quote) (c :: rest) = (markLine (.quoted quote) rest).cons c .literal := by
  rw [markLine, if_neg hc]
  rintro escaped rest' h rfl
  cases hslash h

/-- The same with some characters in front. -/
def Marked.prepend (chars : List (Char × Mark)) (line : Marked) : Marked :=
  { line with chars := chars ++ line.chars }

/-- Blanks in code are code. -/
theorem markLine_code_blank (c : Char) (rest : Line) :
    markLine .code (blank c ++ rest)
      = (markLine .code rest).prepend ((blank c).map (·, .code)) := by
  unfold blank
  induction c.utf8Size with
  | zero => rfl
  | succ n ih =>
    rw [List.replicate_succ, List.cons_append,
      markLine_code_cons (by decide) (fun h => absurd h (by decide)), ih]
    rfl

/-- Blanks in a string belong to it. -/
theorem markLine_quoted_blank {quote : Char} (hquote : isQuote quote = true) (c : Char)
    (rest : Line) :
    markLine (.quoted quote) (blank c ++ rest)
      = (markLine (.quoted quote) rest).prepend ((blank c).map (·, .literal)) := by
  have hspace : ' ' ≠ quote := by
    rintro rfl
    exact absurd hquote (by decide)
  unfold blank
  induction c.utf8Size with
  | zero => rfl
  | succ n ih =>
    rw [List.replicate_succ, List.cons_append,
      markLine_quoted_cons hspace (fun h => absurd h (by decide)), ih]
    rfl

/-! ### Reading a mask -/

/-- What the second reading makes of a character: a hidden one has become blanks, in code if it
    belonged to a comment. -/
def reread (hides : Mark → Bool) (char : Char × Mark) : List (Char × Mark) :=
  if hides char.2 then
    (blank char.1).map (·, if char.2 = .comment then .code else char.2)
  else [char]

/-- Where the second reading stands: in code where the first one stood in a comment. -/
def Zone.reread : Zone → Zone
  | .comment => .code
  | zone => zone

/-- A blank begins with a space. -/
theorem exists_blank_eq_cons (c : Char) : ∃ rest, blank c = ' ' :: rest := by
  obtain ⟨n, hn⟩ := Nat.exists_eq_succ_of_ne_zero (Nat.ne_of_gt c.utf8Size_pos)
  exact ⟨List.replicate n ' ', by rw [blank, hn, List.replicate_succ]⟩

/-- A string is opened by a quote. -/
def Zone.WellQuoted : Zone → Prop
  | .quoted quote => isQuote quote = true
  | _ => True

/-- The first character of a mask is blank or as it is written. -/
theorem head?_render {hides : Mark → Bool} {chars : List (Char × Mark)} {c : Char}
    (h : (render hides chars).head? = some c) (hc : c ≠ ' ') :
    (chars.map (·.1)).head? = some c := by
  cases chars with
  | nil => cases h
  | cons char rest =>
    rw [render_cons] at h
    split at h
    · obtain ⟨spaces, hblank⟩ := exists_blank_eq_cons char.1
      rw [hblank] at h
      exact absurd (Option.some.inj h).symm hc
    · exact h

/-- Reading the mask of marked characters makes of each what `reread` says.  No comment is open
    behind them. -/
def Rereads (hides : Mark → Bool) (zone : Zone) (chars : List (Char × Mark)) : Prop :=
  markLine zone (render hides chars) = ⟨chars.flatMap (reread hides), false⟩

namespace Rereads

variable {hides : Mark → Bool} {chars : List (Char × Mark)} {quote : Char}

/-- A character that is kept is read as it was, if reading goes on from the same place. -/
theorem kept {zone next : Zone} {c : Char} {mark : Mark} (hkeeps : ¬ hides mark = true)
    (hstep : markLine zone (c :: render hides chars)
      = (markLine next (render hides chars)).cons c mark)
    (h : Rereads hides next chars) : Rereads hides zone ((c, mark) :: chars) := by
  rw [Rereads, render_cons, if_neg hkeeps, List.singleton_append, hstep, h, List.flatMap_cons,
    reread, if_neg hkeeps]
  rfl

/-- A character of a comment has left blanks, which are code. -/
theorem comment (hmask : IsMask hides) (c : Char) (h : Rereads hides .code chars) :
    Rereads hides .code ((c, .comment) :: chars) := by
  rw [Rereads, render_cons, if_pos hmask.comment, markLine_code_blank, h, List.flatMap_cons, reread,
    if_pos hmask.comment]
  rfl

/-- A character of code is code again. -/
theorem code (hmask : IsMask hides) {c : Char} (hquote : isQuote c = false)
    (hslash : c = '/' →
      (chars.map (·.1)).head? ≠ some '/' ∧ (chars.map (·.1)).head? ≠ some '*')
    (h : Rereads hides .code chars) : Rereads hides .code ((c, .code) :: chars) := by
  refine kept hmask.code (markLine_code_cons hquote fun hc => ?_) h
  -- a slash that began no comment is not followed by a marker now
  exact ⟨fun hhead => (hslash hc).1 (head?_render hhead (by decide)),
    fun hhead => (hslash hc).2 (head?_render hhead (by decide))⟩

/-- A quote in code opens a string again. -/
theorem opening (hmask : IsMask hides) (hquote : isQuote quote = true)
    (h : Rereads hides (.quoted quote) chars) : Rereads hides .code ((quote, .code) :: chars) := by
  refine kept hmask.code ?_ h
  rcases isQuote_iff.mp hquote with rfl | rfl <;> rfl

/-- The quote that ends a string ends it again. -/
theorem closing (hmask : IsMask hides) (hquote : isQuote quote = true)
    (h : Rereads hides .code chars) : Rereads hides (.quoted quote) ((quote, .code) :: chars) := by
  refine kept hmask.code ?_ h
  rcases isQuote_iff.mp hquote with rfl | rfl <;> rfl

/-- A hidden character of a string has left blanks, which belong to the string. -/
theorem hidden (hhides : hides .literal = true) (hquote : isQuote quote = true) (c : Char)
    (h : Rereads hides (.quoted quote) chars) :
    Rereads hides (.quoted quote) ((c, .literal) :: chars) := by
  rw [Rereads, render_cons, if_pos hhides, markLine_quoted_blank hquote, h, List.flatMap_cons,
    reread, if_pos hhides]
  rfl

/-- A character of a string belongs to it again. -/
theorem literal (hquote : isQuote quote = true) {c : Char} (hc : c ≠ quote)
    (hslash : c = '\\' → chars = []) (h : Rereads hides (.quoted quote) chars) :
    Rereads hides (.quoted quote) ((c, .literal) :: chars) := by
  by_cases hhides : hides .literal = true
  · exact hidden hhides hquote c h
  · refine kept hhides (markLine_quoted_cons hc fun hc => ?_) h
    rw [hslash hc]
    rfl

/-- A backslash hides the next character again, unless both are blanks by now. -/
theorem escape (hquote : isQuote quote = true) (escaped : Char)
    (h : Rereads hides (.quoted quote) chars) :
    Rereads hides (.quoted quote) (('\\', .literal) :: (escaped, .literal) :: chars) := by
  by_cases hhides : hides .literal = true
  · exact hidden hhides hquote '\\' (hidden hhides hquote escaped h)
  · rw [Rereads, render_cons, render_cons, if_neg hhides, if_neg hhides, List.singleton_append,
      List.singleton_append, markLine, h, List.flatMap_cons, List.flatMap_cons, reread, reread,
      if_neg hhides, if_neg hhides]
    rfl

end Rereads

/-- **Reading a masked line again.**  Nothing is a comment any more, and strings are where they
    were.  The line does not end inside a comment, whatever the first reading has found. -/
theorem rereads_markLine {hides : Mark → Bool} (hmask : IsMask hides) {zone : Zone}
    (hzone : zone.WellQuoted) (line : Line) :
    Rereads hides zone.reread (markLine zone line).chars := by
  fun_induction markLine zone line with
  | case1 => rfl
  | case2 => rfl
  | case3 quote => rfl
  | case4 rest ih => exact .comment hmask _ (.comment hmask _ (ih trivial))
  | case5 c rest _ ih => exact .comment hmask c (ih trivial)
  | case6 quote escaped rest ih => exact .escape hzone escaped (ih hzone)
  | case7 c rest _ ih => exact .closing hmask hzone (ih trivial)
  | case8 quote c rest hescape hc ih =>
    refine .literal hzone hc (fun hslash => ?_) (ih hzone)
    -- a backslash that hides nothing stands at the end of the line
    cases rest with
    | nil => rfl
    | cons d rest => exact absurd rfl (hescape d rest hslash)
  | case9 rest =>
    generalize ('/' :: '/' :: rest) = remark
    induction remark with
    | nil => rfl
    | cons c remark ih => exact .comment hmask c ih
  | case10 rest ih => exact .comment hmask _ (.comment hmask _ (ih trivial))
  | case11 c rest _ _ hquote ih =>
    have hc : isQuote c = true := isQuote_iff.mpr hquote
    exact .opening hmask hc (ih hc)
  | case12 c rest hremark hcomment hquote ih =>
    refine .code hmask (by simpa [isQuote] using hquote) (fun hc => ?_) (ih trivial)
    rw [map_fst_markLine]
    exact ⟨head?_ne_of_not_pair hremark hc, head?_ne_of_not_pair hcomment hc⟩

/-! ### Masks of masks -/

/-- The marks of masked lines. -/
theorem markLines_render {hides : Mark → Bool} (hmask : IsMask hides) (inComment : Bool)
    (lines : List Line) :
    markLines false ((markLines inComment lines).map (render hides))
      = (markLines inComment lines).map (·.flatMap (reread hides)) := by
  induction lines generalizing inComment with
  | nil => rfl
  | cons line rest ih =>
    have hline : Rereads hides .code
        (markLine (if inComment then .comment else .code) line).chars := by
      cases inComment with
      | true => exact rereads_markLine hmask (show Zone.WellQuoted .comment from trivial) line
      | false => exact rereads_markLine hmask (show Zone.WellQuoted .code from trivial) line
    rw [markLines, List.map_cons, List.map_cons, markLines, ← ih]
    show (markLine .code _).chars :: markLines (markLine .code _).inComment _ = _
    rw [hline]

/-- Blanking twice hides what is hidden once. -/
theorem render_flatMap_reread (hides hides' : Mark → Bool) (chars : List (Char × Mark)) :
    render hides' (chars.flatMap (reread hides))
      = render (fun mark => hides mark || hides' mark) chars := by
  -- blanks stay as they are, whether they are hidden or not
  have hblank : ∀ (mark : Mark) (n : Nat),
      render hides' ((List.replicate n ' ').map (·, mark)) = List.replicate n ' ' := by
    intro mark n
    induction n with
    | zero => rfl
    | succ n ih =>
      rw [List.replicate_succ, List.map_cons, render_cons, ih]
      split <;> rfl
  induction chars with
  | nil => rfl
  | cons char rest ih =>
    obtain ⟨c, mark⟩ := char
    rw [List.flatMap_cons, render, List.flatMap_append, ← render, ← render, ih, render_cons, reread]
    by_cases hhides : hides mark = true
    · have heither : (hides mark || hides' mark) = true := by rw [hhides, Bool.true_or]
      rw [if_pos hhides, if_pos heither, blank, hblank]
    · have heither : (hides mark || hides' mark) = hides' mark := by simp [hhides]
      rw [if_neg hhides, heither, render_cons]
      simp [render]

/-- **Masks compose:** what either of them hides is hidden. -/
theorem mask_mask {hides hides' : Mark → Bool} (hmask : IsMask hides) (lines : List Line) :
    mask hides' (mask hides lines) = mask (fun mark => hides mark || hides' mark) lines := by
  rw [mask, mask, markLines_render hmask, List.map_map, mask]
  exact List.map_congr_left fun chars _ => render_flatMap_reread hides hides' chars

/-- **Masking is a projection**, and the two masks compose to the one that hides more. -/
theorem masks_are_projections (lines : List Line) :
    maskComments (maskComments lines) = maskComments lines
      ∧ maskCode (maskCode lines) = maskCode lines
      ∧ maskCode (maskComments lines) = maskCode lines
      ∧ maskComments (maskCode lines) = maskCode lines := by
  -- both are masks, so it is enough to compare what they hide
  have hcomments : maskComments = mask (· == .comment) := rfl
  have hcode : maskCode = mask (· != .code) := rfl
  rw [hcomments, hcode]
  simp only [mask_mask isMask_comments, mask_mask isMask_code]
  refine ⟨?_, ?_, ?_, ?_⟩
  all_goals
    refine congrArg (mask · lines) (funext fun mark => ?_)
    cases mark <;> rfl

end ScriptServer.Text

import Mathlib.Data.List.TakeWhile
import ScriptServer.Declaration.Header
import ScriptServer.Proofs.Text.Trim

namespace ScriptServer

/-!
# Gaps and parameter lists

Between the tokens of a function header there may be blanks, line breaks and comments.

* `Gap` — what may stand between two tokens.  Its mask is blank.
* `IsName` — an identifier.  Its mask is itself.
* `Lists` — a parameter list, given what may stand between its tokens.
* `Respaced` — a text with some blanks replaced by other blanks.  It lists the same names.
* `splitParameters_of_lists` — the names are read back from a list with blank gaps.
-/

open Text Declaration

namespace Text

/-! ### Blanks and words -/

/-- The code points of white space, one by one. -/
def CharClass.blankPoints : List Nat :=
  CharClass.whiteSpace.flatMap fun range => List.range' range.1 (range.2 + 1 - range.1)

theorem mem_blankPoints {c : Char} (h : isBlank c = true) : c.toNat ∈ CharClass.blankPoints := by
  obtain ⟨range, hrange, hc⟩ := List.any_eq_true.mp h
  simp only [Bool.and_eq_true, decide_eq_true_eq] at hc
  refine List.mem_flatMap.mpr ⟨range, hrange, List.mem_range'_1.mpr ⟨hc.1, ?_⟩⟩
  omega

/-- No blank is part of a word. -/
theorem isWord_eq_false_of_isBlank {c : Char} (h : isBlank c = true) : isWord c = false := by
  have hall : ∀ n ∈ CharClass.blankPoints, isWord (Char.ofNat n) = false := by decide +kernel
  have hc := hall c.toNat (mem_blankPoints h)
  rwa [Char.ofNat_toNat] at hc

theorem isBlank_eq_false_of_isWord {c : Char} (h : isWord c = true) : isBlank c = false := by
  cases hc : isBlank c with
  | false => rfl
  | true => rw [isWord_eq_false_of_isBlank hc] at h; cases h

theorem isIdent_eq_false_of_isBlank {c : Char} (h : isBlank c = true) : isIdent c = false := by
  have hall : ∀ n ∈ CharClass.blankPoints, isIdent (Char.ofNat n) = false := by decide +kernel
  have hc := hall c.toNat (mem_blankPoints h)
  rwa [Char.ofNat_toNat] at hc

theorem isLetter_of_isAlpha {c : Char} (h : c.isAlpha = true) : isLetter c = true := by
  have hascii : c.toNat < 0x80 := by
    have hle : ∀ d : Char, c.val ≤ d.val → c.toNat ≤ d.toNat := fun d hd => hd
    have hcase : c.isUpper = true ∨ c.isLower = true := Bool.or_eq_true_iff.mp h
    rcases hcase with hupper | hlower
    · have hlast : c.val ≤ 'Z'.val := (of_decide_eq_true hupper).2
      exact Nat.lt_of_le_of_lt (hle 'Z' hlast) (by decide)
    · have hlast : c.val ≤ 'z'.val := of_decide_eq_true (Bool.and_eq_true_iff.mp hlower).2
      exact Nat.lt_of_le_of_lt (hle 'z' hlast) (by decide)
  rw [isLetter, if_pos hascii, h]

theorem isWord_of_startsName {c : Char} (h : startsName c = true) : isWord c = true := by
  rw [startsName, Bool.or_eq_true, beq_iff_eq] at h
  rcases h with halpha | rfl
  · rw [isWord, isLetter_of_isAlpha halpha]
    rfl
  · decide

/-- An identifier. -/
def IsName (name : Line) : Prop :=
  ∃ c word, name = c :: word ∧ startsName c = true ∧ ∀ d ∈ word, isWord d = true

instance (name : Line) : Decidable (IsName name) :=
  match name with
  | [] => isFalse (by rintro ⟨c, word, h, -⟩; cases h)
  | c :: word =>
    decidable_of_iff (startsName c = true ∧ word.all isWord = true)
      ⟨fun h => ⟨c, word, rfl, h.1, List.all_eq_true.mp h.2⟩, by
        rintro ⟨c', word', h, hc, hword⟩
        cases h
        exact ⟨hc, List.all_eq_true.mpr hword⟩⟩

theorem IsName.ne_nil {name : Line} (h : IsName name) : name ≠ [] := by
  obtain ⟨c, word, rfl, -⟩ := h
  exact List.cons_ne_nil c word

theorem IsName.isWord {name : Line} (h : IsName name) : ∀ c ∈ name, Text.isWord c = true := by
  obtain ⟨c, word, rfl, hc, hword⟩ := h
  exact List.forall_mem_cons.mpr ⟨isWord_of_startsName hc, hword⟩

/-- A character that is no part of a word does not stand in an identifier. -/
theorem IsName.not_mem {name : Line} (h : IsName name) {c : Char} (hc : Text.isWord c = false) :
    c ∉ name := by
  intro hmem
  rw [h.isWord c hmem] at hc
  cases hc

/-- **An identifier between blanks** is what trimming leaves. -/
theorem IsName.trim_eq {name : Line} (h : IsName name) {gap gap' : Line}
    (hgap : isBlankLine gap = true) (hgap' : isBlankLine gap' = true) :
    trim (gap ++ name ++ gap') = name := by
  have hblank : ∀ c ∈ name, isBlank c = false :=
    fun c hc => isBlank_eq_false_of_isWord (h.isWord c hc)
  obtain ⟨c, word, rfl, -⟩ := h
  rw [trim, List.append_assoc, trimStart_append hgap, List.cons_append,
    trimStart_of_head (hblank c List.mem_cons_self), ← List.cons_append,
    trimEnd_append hblank hgap']

/-! ### Gaps -/

/-- What may stand between two tokens: blanks, line breaks and comments. -/
inductive Gap : List Char → Prop where
  | nil : Gap []
  | blank {c : Char} {rest : List Char} (hc : isBlank c = true) (hrest : Gap rest) :
      Gap (c :: rest)
  /-- A block comment ends where a star and a slash stand together for the first time. -/
  | comment {inside rest : List Char} (hinside : ¬ ['*', '/'] <:+: inside) (hrest : Gap rest) :
      Gap (['/', '*'] ++ inside ++ ['*', '/'] ++ rest)
  /-- The other kind of comment ends with its line. -/
  | remark {inside rest : List Char} (hinside : '\n' ∉ inside) (hrest : Gap rest) :
      Gap (['/', '/'] ++ inside ++ ['\n'] ++ rest)

/-- What is left of a text with blanks only: the text leads back to code, and its mask is blank. -/
def MaskedBlank (region : Region) (text : List Char) : Prop :=
  region.after text = .code ∧ ∀ next, isBlankLine (maskText region next text) = true

theorem isBlankLine_glyph {region : Region} {c : Char} {next : Option Char}
    (h : isBlank c = true ∨ region.mark c next ≠ .code) :
    isBlankLine (glyph region c next) = true := by
  rw [glyph]
  split
  · decide
  · split
    · rfl
    · split
      · exact isBlankLine_blank c
      · rename_i hcode
        rcases h with hc | hmark
        · simpa [isBlankLine] using hc
        · simp_all

/-- One more character that is blanked. -/
theorem MaskedBlank.cons {region next : Region} {c : Char} {rest : List Char}
    (h : MaskedBlank next rest) (hstep : region.step c = next)
    (hc : ∀ follower, isBlank c = true ∨ region.mark c (rest.head?.or follower) ≠ .code) :
    MaskedBlank region (c :: rest) := by
  subst hstep
  exact ⟨h.1, fun follower => isBlankLine_append (isBlankLine_glyph (hc follower)) (h.2 follower)⟩

/-- In a comment everything is blanked. -/
theorem MaskedBlank.cons_inComment {region next : Region} {c : Char} {rest : List Char}
    (h : MaskedBlank next rest) (hstep : region.step c = next) (hregion : region.inComment = true) :
    MaskedBlank region (c :: rest) := by
  refine h.cons hstep fun follower => .inr ?_
  cases region <;> simp_all [Region.inComment, Region.mark]

/-- The rest of a block comment is blanked, and so is what is blanked behind it. -/
theorem maskedBlank_comment {inside rest : List Char} (hinside : ¬ ['*', '/'] <:+: inside)
    (hrest : MaskedBlank .code rest) :
    MaskedBlank .comment (inside ++ ['*', '/'] ++ rest)
      ∧ (inside.head? ≠ some '/' → MaskedBlank .star (inside ++ ['*', '/'] ++ rest)) := by
  induction inside with
  | nil =>
    have hslash : MaskedBlank .star ('/' :: rest) := hrest.cons_inComment rfl rfl
    exact ⟨hslash.cons_inComment rfl rfl, fun _ => hslash.cons_inComment rfl rfl⟩
  | cons c inside ih =>
    have hinside' : ¬ ['*', '/'] <:+: inside := fun h =>
      hinside (h.trans (List.suffix_cons c inside).isInfix)
    obtain ⟨hcomment, hstar⟩ := ih hinside'
    -- a slash behind a star would end the comment
    have hcons : ∀ region : Region, region = .comment ∨ (region = .star ∧ c ≠ '/') →
        MaskedBlank region (c :: (inside ++ ['*', '/'] ++ rest)) := by
      intro region hregion
      have hin : region.inComment = true := by
        rcases hregion with rfl | ⟨rfl, -⟩ <;> rfl
      by_cases hc : c = '*'
      · have hhead : inside.head? ≠ some '/' := by
          intro hhead
          obtain ⟨others, rfl⟩ := List.head?_eq_some_iff.mp hhead
          exact hinside ⟨[], others, by simp [hc]⟩
        refine (hstar hhead).cons_inComment ?_ hin
        rcases hregion with rfl | ⟨rfl, -⟩ <;> simp [Region.step, hc]
      · refine hcomment.cons_inComment ?_ hin
        rcases hregion with rfl | ⟨rfl, hslash⟩ <;> simp_all [Region.step, Region.newLine]
    refine ⟨hcons .comment (.inl rfl), fun hc => hcons .star (.inr ⟨rfl, ?_⟩)⟩
    simpa using hc

/-- The rest of a comment is blanked to the end of its line. -/
theorem maskedBlank_remark {inside rest : List Char} (hinside : '\n' ∉ inside)
    (hrest : MaskedBlank .code rest) : MaskedBlank .remark (inside ++ ['\n'] ++ rest) := by
  induction inside with
  | nil => exact hrest.cons rfl fun _ => .inl (by decide)
  | cons c inside ih =>
    rw [List.mem_cons, not_or] at hinside
    refine (ih hinside.2).cons ?_ fun _ => .inr (by simp [Region.mark])
    simp [Region.step, Ne.symm hinside.1]

/-- **The mask of a gap is blank.** -/
theorem Gap.maskedBlank {text : List Char} (h : Gap text) : MaskedBlank .code text := by
  induction h with
  | nil => exact ⟨rfl, fun _ => rfl⟩
  | @blank c rest hc hrest ih =>
    refine ih.cons ?_ fun _ => .inl hc
    have hslash : c ≠ '/' := by rintro rfl; exact absurd hc (by decide)
    have hquote : ¬ (c = '"' ∨ c = '\x27') := by
      rintro (rfl | rfl) <;> exact absurd hc (by decide)
    simp [Region.step, Region.newLine, Region.ofCode, hslash, hquote]
  | @comment inside rest hinside hrest ih =>
    have hstar : MaskedBlank .slash ('*' :: (inside ++ ['*', '/'] ++ rest)) :=
      (maskedBlank_comment hinside ih).1.cons rfl fun _ => .inr (by simp [Region.mark])
    have hslash : MaskedBlank .code ('/' :: '*' :: (inside ++ ['*', '/'] ++ rest)) :=
      hstar.cons rfl fun _ => .inr (by simp [Region.mark])
    simpa using hslash
  | @remark inside rest hinside hrest ih =>
    have hsecond : MaskedBlank .slash ('/' :: (inside ++ ['\n'] ++ rest)) :=
      (maskedBlank_remark hinside ih).cons rfl fun _ => .inr (by simp [Region.mark])
    have hfirst : MaskedBlank .code ('/' :: '/' :: (inside ++ ['\n'] ++ rest)) :=
      hsecond.cons rfl fun _ => .inr (by simp [Region.mark])
    simpa using hfirst

/-! ### Plain code -/

/-- A character that is code wherever it stands in code, and after which code goes on. -/
def IsPlain (c : Char) : Prop := c ∉ ['/', '"', '\x27', '\n', '\r']

instance (c : Char) : Decidable (IsPlain c) :=
  inferInstanceAs (Decidable (c ∉ ['/', '"', '\x27', '\n', '\r']))

/-- Plain code is its own mask. -/
theorem maskText_of_isPlain {text : List Char} (h : ∀ c ∈ text, IsPlain c) (next : Option Char) :
    maskText .code next text = text ∧ Region.code.after text = .code := by
  induction text with
  | nil => exact ⟨rfl, rfl⟩
  | cons c rest ih =>
    obtain ⟨hc, hrest⟩ := List.forall_mem_cons.mp h
    obtain ⟨hmask, hafter⟩ := ih hrest
    simp only [IsPlain, List.mem_cons, List.not_mem_nil, or_false, not_or] at hc
    obtain ⟨hslash, hdouble, hsingle, hline, hreturn⟩ := hc
    have hto : Region.step .code c = .code := by
      simp [Region.step, Region.ofCode, hslash, hdouble, hsingle, hline]
    rw [maskText, Region.after_cons, hto, hmask, hafter]
    simp [glyph, Region.mark, hslash, hline, hreturn]

theorem IsName.isPlain {name : Line} (h : IsName name) : ∀ c ∈ name, IsPlain c := by
  intro c hc hmem
  have hword := h.isWord c hc
  have hnone : ['/', '"', '\x27', '\n', '\r'].all (!Text.isWord ·) = true := by decide
  have hno := List.all_eq_true.mp hnone c hmem
  rw [hword] at hno
  cases hno

end Text

/-! ### Parameter lists -/

namespace Declaration

/-- A parameter list, given what may stand between its tokens.  A comma may also stand behind the
    last name. -/
inductive Lists (gap : List Char → Prop) : List Line → List Char → Prop where
  | nil {space : List Char} (hspace : gap space) : Lists gap [] space
  | last {before name after : List Char} (hbefore : gap before) (hname : IsName name)
      (hafter : gap after) : Lists gap [name] (before ++ name ++ after)
  | more {before name after rest : List Char} {names : List Line} (hbefore : gap before)
      (hname : IsName name) (hafter : gap after) (hrest : Lists gap names rest) :
      Lists gap (name :: names) (before ++ name ++ after ++ ',' :: rest)

/-- Text that holds nothing but blanks. -/
def Blank (text : List Char) : Prop := isBlankLine text = true

/-- **The mask of a list** has the same names, with blanks between them. -/
theorem Lists.mask {names : List Line} {text : List Char} (h : Lists Gap names text) :
    Region.code.after text = .code ∧ ∀ next, Lists Blank names (maskText .code next text) := by
  -- a name between two gaps
  have hpiece : ∀ {before name after : List Char}, Gap before → IsName name → Gap after →
      Region.code.after (before ++ name ++ after) = .code
        ∧ ∀ next, ∃ before' after', Blank before' ∧ Blank after'
          ∧ maskText .code next (before ++ name ++ after) = before' ++ name ++ after' := by
    intro before name after hbefore hname hafter
    have hplain := maskText_of_isPlain hname.isPlain
    refine ⟨?_, fun next => ?_⟩
    · rw [Region.after_append, Region.after_append, hbefore.maskedBlank.1, (hplain none).2,
        hafter.maskedBlank.1]
    · rw [maskText_append, maskText_append, Region.after_append, hbefore.maskedBlank.1,
        (hplain none).2, (hplain _).1]
      exact ⟨_, _, hbefore.maskedBlank.2 _, hafter.maskedBlank.2 next, rfl⟩
  induction h with
  | nil hspace => exact ⟨hspace.maskedBlank.1, fun next => .nil (hspace.maskedBlank.2 next)⟩
  | last hbefore hname hafter =>
    obtain ⟨hcode, hmask⟩ := hpiece hbefore hname hafter
    refine ⟨hcode, fun next => ?_⟩
    obtain ⟨before', after', hbefore', hafter', heq⟩ := hmask next
    rw [heq]
    exact .last hbefore' hname hafter'
  | @more before name after rest names hbefore hname hafter hrest ih =>
    obtain ⟨hcode, hmask⟩ := hpiece hbefore hname hafter
    have hcomma : ∀ next, maskText .code next (',' :: rest) = ',' :: maskText .code next rest :=
      fun next => by
        have hglyph : ∀ next, glyph .code ',' next = [','] := fun next => by
          simp [glyph, Region.mark]
        rw [maskText, hglyph]
        rfl
    refine ⟨?_, fun next => ?_⟩
    · rw [Region.after_append, hcode]
      exact ih.1
    · obtain ⟨before', after', hbefore', hafter', heq⟩ := hmask (some ',')
      rw [maskText_append, hcode, hcomma]
      show Lists Blank (name :: names)
        (maskText .code (some ',') (before ++ name ++ after) ++ ',' :: maskText .code next rest)
      rw [heq]
      exact .more hbefore' hname hafter' (ih.2 next)

/-- The characters of a list: blanks, word characters and commas. -/
theorem Lists.mem_cases {names : List Line} {text : List Char} (h : Lists Blank names text) :
    ∀ c ∈ text, isBlank c = true ∨ isWord c = true ∨ c = ',' := by
  have hblank : ∀ {space : List Char}, Blank space → ∀ c ∈ space, isBlank c = true :=
    fun hspace c hc => List.all_eq_true.mp hspace c hc
  have hpiece : ∀ {before name after : List Char}, Blank before → IsName name → Blank after →
      ∀ c ∈ before ++ name ++ after, isBlank c = true ∨ isWord c = true ∨ c = ',' := by
    intro before name after hbefore hname hafter c hc
    simp only [List.mem_append] at hc
    rcases hc with (hc | hc) | hc
    · exact .inl (hblank hbefore c hc)
    · exact .inr (.inl (hname.isWord c hc))
    · exact .inl (hblank hafter c hc)
  induction h with
  | nil hspace => exact fun c hc => .inl (hblank hspace c hc)
  | last hbefore hname hafter => exact hpiece hbefore hname hafter
  | more hbefore hname hafter hrest ih =>
    intro c hc
    rw [List.mem_append, List.mem_cons] at hc
    rcases hc with hc | rfl | hc
    · exact hpiece hbefore hname hafter c hc
    · exact .inr (.inr rfl)
    · exact ih c hc

/-- The characters that the search for the closing parenthesis looks at do not stand in a list. -/
theorem Lists.not_mem {names : List Line} {text : List Char} (h : Lists Blank names text)
    {c : Char} (hc : c = '(' ∨ c = ')' ∨ c = '{' ∨ c = ';') : c ∉ text := by
  intro hmem
  have hcases := h.mem_cases c hmem
  rcases hc with rfl | rfl | rfl | rfl <;> exact absurd hcases (by decide)

/-- A name between blanks holds nothing but blanks and word characters. -/
theorem not_mem_piece {before name after : Line} (hbefore : Blank before) (hname : IsName name)
    (hafter : Blank after) {c : Char} (hblank : isBlank c = false) (hword : isWord c = false) :
    c ∉ before ++ name ++ after := by
  simp only [List.mem_append, not_or]
  exact ⟨⟨not_mem_of_isBlankLine hbefore hblank, hname.not_mem hword⟩,
    not_mem_of_isBlankLine hafter hblank⟩

theorem takeWhile_bne_eq_self {c : Char} {text : Line} (h : c ∉ text) :
    text.takeWhile (· != c) = text := by
  rw [List.takeWhile_eq_self_iff]
  intro d hd
  rw [bne_iff_ne]
  rintro rfl
  exact h hd

/-- The name in a piece between commas. -/
theorem parameterName_eq {name before after : Line} (hbefore : Blank before)
    (hname : IsName name) (hafter : Blank after) :
    parameterName (before ++ name ++ after) = name := by
  have hequals : '=' ∉ before ++ name ++ after :=
    not_mem_piece hbefore hname hafter (by decide) (by decide)
  -- the word that marks a parameter as mutable ends with a blank
  have hplain : after? ['m', 'u', 't', 'a', 'b', 'l', 'e', ' '] name = none := by
    cases hafter : after? ['m', 'u', 't', 'a', 'b', 'l', 'e', ' '] name with
    | none => rfl
    | some rest =>
      have heq := after?_eq_some_iff.mp hafter
      exact absurd (show ' ' ∈ name by rw [heq]; simp) (hname.not_mem (by decide))
  simp only [parameterName, takeWhile_bne_eq_self hequals, hname.trim_eq hbefore hafter, hplain]

theorem parameterName_of_blank {space : Line} (h : Blank space) : parameterName space = [] := by
  have htrim : trim space = [] := by
    have hstart := trimStart_append h []
    rw [List.append_nil] at hstart
    rw [trim, hstart]
    rfl
  have hequals : '=' ∉ space := not_mem_of_isBlankLine h (by decide)
  simp only [parameterName, takeWhile_bne_eq_self hequals, htrim, after?]

/-- **The names of a list** are what is read from it. -/
theorem splitParameters_of_lists {names : List Line} {text : List Char}
    (h : Lists Blank names text) : splitParameters text = names := by
  induction h with
  | nil hspace =>
    rw [splitParameters, splitAtChar_of_not_mem (not_mem_of_isBlankLine hspace (by decide)),
      List.map_singleton, parameterName_of_blank hspace]
    rfl
  | @last before name after hbefore hname hafter =>
    rw [splitParameters, splitAtChar_of_not_mem
        (not_mem_piece hbefore hname hafter (by decide) (by decide)), List.map_singleton,
      parameterName_eq hbefore hname hafter]
    simp [hname.ne_nil]
  | @more before name after rest names hbefore hname hafter hrest ih =>
    rw [splitParameters, splitAtChar_append,
      splitAtChar_of_not_mem
        (not_mem_piece hbefore hname hafter (by decide) (by decide)),
      List.singleton_append, List.map_cons, parameterName_eq hbefore hname hafter,
      List.filter_cons_of_pos (by simp [hname.ne_nil])]
    exact congrArg (name :: ·) ih

/-! ### Other blanks -/

/-- The second text is the first one with some of its blanks replaced by other blanks, or by
    none. -/
inductive Respaced : List Char → List Char → Prop where
  | nil : Respaced [] []
  | keep (c : Char) {a b : List Char} (h : Respaced a b) : Respaced (c :: a) (c :: b)
  | blank {c : Char} {space a b : List Char} (hc : isBlank c = true) (hspace : Blank space)
      (h : Respaced a b) : Respaced (c :: a) (space ++ b)

theorem Respaced.refl (text : List Char) : Respaced text text := by
  induction text with
  | nil => exact .nil
  | cons c rest ih => exact .keep c ih

theorem Respaced.append {a b c d : List Char} (h : Respaced a b) (h' : Respaced c d) :
    Respaced (a ++ c) (b ++ d) := by
  induction h with
  | nil => exact h'
  | keep x h ih => exact .keep x ih
  | blank hc hspace h ih =>
    rw [List.append_assoc]
    exact .blank hc hspace ih

/-- Blanks, of which there is one, may be replaced by any. -/
theorem Respaced.of_blank {space space' : List Char} (hne : space ≠ []) (h : Blank space)
    (h' : Blank space') : Respaced space space' := by
  -- all that follows the first is dropped
  have hdrop : ∀ {rest : List Char}, Blank rest → Respaced rest [] := by
    intro rest hrest
    induction rest with
    | nil => exact .nil
    | cons c rest ih =>
      obtain ⟨hc, hrest⟩ : isBlank c = true ∧ Blank rest := by
        simpa [Blank, isBlankLine] using hrest
      exact Respaced.blank hc (show Blank [] from rfl) (ih hrest)
  cases space with
  | nil => exact absurd rfl hne
  | cons c rest =>
    obtain ⟨hc, hrest⟩ : isBlank c = true ∧ Blank rest := by simpa [Blank, isBlankLine] using h
    have hfirst := Respaced.blank hc h' (hdrop hrest)
    rwa [List.append_nil] at hfirst

/-- What becomes of two parts. -/
theorem Respaced.exists_append {a b text : List Char} (h : Respaced (a ++ b) text) :
    ∃ a' b', text = a' ++ b' ∧ Respaced a a' ∧ Respaced b b' := by
  generalize hab : a ++ b = joined at h
  induction h generalizing a with
  | nil =>
    obtain ⟨rfl, rfl⟩ : a = [] ∧ b = [] := by simpa using hab
    exact ⟨[], [], rfl, .nil, .nil⟩
  | @keep c rest rest' h ih =>
    cases a with
    | nil =>
      rw [List.nil_append] at hab
      subst hab
      exact ⟨[], c :: rest', rfl, .nil, .keep c h⟩
    | cons d a =>
      obtain ⟨rfl, rfl⟩ : d = c ∧ a ++ b = rest := by simpa using hab
      obtain ⟨a', b', rfl, ha, hb⟩ := ih rfl
      exact ⟨d :: a', b', rfl, .keep d ha, hb⟩
  | @blank c space rest rest' hc hspace h ih =>
    cases a with
    | nil =>
      rw [List.nil_append] at hab
      subst hab
      exact ⟨[], space ++ rest', rfl, .nil, .blank hc hspace h⟩
    | cons d a =>
      obtain ⟨rfl, rfl⟩ : d = c ∧ a ++ b = rest := by simpa using hab
      obtain ⟨a', b', rfl, ha, hb⟩ := ih rfl
      exact ⟨space ++ a', b', (List.append_assoc _ _ _).symm, .blank hc hspace ha, hb⟩

theorem Respaced.blank_of_blank {space text : List Char} (h : Respaced space text)
    (hspace : Blank space) : Blank text := by
  induction h with
  | nil => exact hspace
  | keep c h ih =>
    obtain ⟨hc, hrest⟩ : isBlank c = true ∧ Blank _ := by simpa [Blank, isBlankLine] using hspace
    have hblank := ih hrest
    simp only [Blank, isBlankLine, List.all_cons, hc, Bool.true_and] at hblank ⊢
    exact hblank
  | blank hc hnew h ih =>
    obtain ⟨-, hrest⟩ : isBlank _ = true ∧ Blank _ := by
      simpa [Blank, isBlankLine] using hspace
    exact isBlankLine_append hnew (ih hrest)

/-- Where there are no blanks, none are replaced. -/
theorem Respaced.eq_of_not_blank {word text : List Char} (h : Respaced word text)
    (hword : ∀ c ∈ word, isBlank c = false) : text = word := by
  induction h with
  | nil => rfl
  | keep c h ih => rw [ih fun d hd => hword d (List.mem_cons_of_mem c hd)]
  | @blank c space a b hc hspace h ih =>
    rw [hword c List.mem_cons_self] at hc
    cases hc

theorem Respaced.trans {a b c : List Char} (h : Respaced a b) (h' : Respaced b c) :
    Respaced a c := by
  induction h generalizing c with
  | nil => exact h'
  | @keep x a b h ih =>
    obtain ⟨first, rest, rfl, hfirst, hrest⟩ := Respaced.exists_append (a := [x]) h'
    have hone : Respaced [x] first := hfirst
    exact hone.append (ih hrest)
  | @blank x space a b hx hspace h ih =>
    obtain ⟨first, rest, rfl, hfirst, hrest⟩ := h'.exists_append
    exact .blank hx (hfirst.blank_of_blank hspace) (ih hrest)

/-- **Other blanks list the same names.** -/
theorem Lists.respaced {names : List Line} {text text' : List Char}
    (h : Lists Blank names text) (hspace : Respaced text text') : Lists Blank names text' := by
  -- a name between two gaps
  have hpiece : ∀ {before name after piece : List Char}, Blank before → IsName name → Blank after →
      Respaced (before ++ name ++ after) piece →
      ∃ before' after', Blank before' ∧ Blank after' ∧ piece = before' ++ name ++ after' := by
    intro before name after piece hbefore hname hafter hpiece
    obtain ⟨front, after', rfl, hfront, hafter'⟩ := hpiece.exists_append
    obtain ⟨before', name', rfl, hbefore', hname'⟩ := hfront.exists_append
    have hsame : name' = name :=
      hname'.eq_of_not_blank fun c hc => isBlank_eq_false_of_isWord (hname.isWord c hc)
    exact ⟨before', after', hbefore'.blank_of_blank hbefore, hafter'.blank_of_blank hafter,
      by rw [hsame]⟩
  induction h generalizing text' with
  | nil hblank => exact .nil (hspace.blank_of_blank hblank)
  | last hbefore hname hafter =>
    obtain ⟨before', after', hbefore', hafter', rfl⟩ := hpiece hbefore hname hafter hspace
    exact .last hbefore' hname hafter'
  | more hbefore hname hafter hrest ih =>
    obtain ⟨piece, tail, rfl, hfront, htail⟩ := hspace.exists_append
    obtain ⟨before', after', hbefore', hafter', rfl⟩ := hpiece hbefore hname hafter hfront
    -- the comma stays
    obtain ⟨comma, rest', rfl, hcomma, hrest'⟩ := Respaced.exists_append (a := [',']) htail
    obtain rfl : comma = [','] :=
      hcomma.eq_of_not_blank (List.forall_mem_singleton.mpr (by decide))
    exact .more hbefore' hname hafter' (ih hrest')

end Declaration

end ScriptServer

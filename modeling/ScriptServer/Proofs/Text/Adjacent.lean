import Mathlib.Data.List.Chain
import ScriptServer.Proofs.Text.Quote
import ScriptServer.Proofs.Text.Region
import ScriptServer.Proofs.Text.Split

namespace ScriptServer.Text

/-!
# Next to hidden characters

A comment begins and ends with a slash, the inside of a string with a quote.  So where a word of the
code stands next to something hidden, it stands next to a slash.

* `Meets` — how a character and the next one go together: hidden next to visible only at a slash or
  a quote.
* `isChain_markLine` — all characters of a marked line go together like this.
* `exists_word_of_code` — a word of the code with its surroundings as they are written.
-/

/-! ### Where code and hidden characters meet -/

/-- A hidden character before a visible one is a slash, unless the visible one is a quote, and the
    other way round. -/
def Meets (a b : Char × Mark) : Prop :=
  (a.2 ≠ .code → b.2 = .code → a.1 = '/' ∨ isQuote b.1 = true)
    ∧ (a.2 = .code → b.2 ≠ .code → isQuote a.1 = true ∨ b.1 = '/')

namespace Region

/-- A string is opened by a quote. -/
def WellQuoted : Region → Prop
  | .quoted quote => isQuote quote = true
  | .escaped quote => isQuote quote = true
  | _ => True

theorem wellQuoted_ofCode (c : Char) : (ofCode c).WellQuoted := by
  unfold ofCode
  split
  · trivial
  · split
    next h => exact isQuote_iff.mpr h
    next => trivial

theorem WellQuoted.step {region : Region} (h : region.WellQuoted) (c : Char) :
    (region.step c).WellQuoted := by
  cases region <;> simp only [Region.step, newLine] <;>
    grind [WellQuoted, wellQuoted_ofCode]

/-- **One character further.**  A character and the next one meet at a slash or a quote. -/
theorem WellQuoted.meets {region : Region} (h : region.WellQuoted) {c : Char} (hc : c ≠ '\n')
    (d : Char) (next : Option Char) :
    Meets (c, region.mark c (some d)) (d, (region.step c).mark d next) := by
  -- one case for each region that the character is read in
  cases region <;> simp only [Meets, mark, Region.step, if_neg hc, ofCode] <;>
    grind [mark, isQuote_iff, WellQuoted]

end Region

theorem isChain_marks {region : Region} (h : region.WellQuoted) {line : Line} (hline : '\n' ∉ line) :
    (marks region line).IsChain Meets := by
  induction line generalizing region with
  | nil => exact .nil
  | cons c rest ih =>
    rw [List.mem_cons, not_or] at hline
    cases rest with
    | nil => exact .singleton _
    | cons d rest =>
      exact List.isChain_cons_cons.mpr ⟨h.meets (Ne.symm hline.1) d rest.head?, ih (h.step c) hline.2⟩

theorem isChain_of_mem_markLines {inComment : Bool} {lines : List Line}
    (h : ∀ line ∈ lines, '\n' ∉ line) :
    ∀ chars ∈ markLines inComment lines, chars.IsChain Meets := by
  induction lines generalizing inComment with
  | nil => exact fun _ hchars => nomatch hchars
  | cons line rest ih =>
    obtain ⟨hline, hrest⟩ := List.forall_mem_cons.mp h
    refine List.forall_mem_cons.mpr ⟨?_, ih hrest⟩
    rw [(markLine_eq hline (by split <;> simp)).1]
    refine isChain_marks ?_ hline
    cases inComment <;> trivial

/-! ### Words of the code -/

/-- What does not hold a character stands before it. -/
theorem exists_append_of_not_mem {a rest before after : Line} {c : Char} (hc : c ∉ a)
    (h : a ++ rest = before ++ c :: after) :
    ∃ more, before = a ++ more ∧ rest = more ++ c :: after := by
  rcases List.append_eq_append_iff.mp h with ⟨more, hbefore, hrest⟩ | ⟨more, ha, hafter⟩
  · exact ⟨more, hbefore, hrest⟩
  · cases more with
    | nil => exact ⟨[], by simpa using ha.symm, by simpa using hafter.symm⟩
    | cons d more =>
      obtain ⟨rfl, -⟩ : c = d ∧ after = more ++ rest := by simpa using hafter
      simp [ha] at hc

/-- A character of the code that is not blank is code. -/
theorem exists_code_of_render {chars : List (Char × Mark)} {before after : Line} {c : Char}
    (hc : c ≠ ' ') (h : render (· != .code) chars = before ++ c :: after) :
    ∃ left right, chars = left ++ (c, .code) :: right
      ∧ render (· != .code) left = before ∧ render (· != .code) right = after := by
  induction chars generalizing before with
  | nil => simp [render] at h
  | cons char rest ih =>
    obtain ⟨d, mark⟩ := char
    rw [render_cons] at h
    by_cases hmark : mark = .code
    · subst hmark
      cases before with
      | nil =>
        obtain ⟨rfl, hrest⟩ : d = c ∧ render (· != .code) rest = after := by simpa using h
        exact ⟨[], rest, rfl, rfl, hrest⟩
      | cons e before =>
        obtain ⟨rfl, hrest⟩ : d = e ∧ render (· != .code) rest = before ++ c :: after := by
          simpa using h
        obtain ⟨left, right, rfl, hleft, hright⟩ := ih hrest
        exact ⟨(d, .code) :: left, right, rfl, by rw [render_cons, hleft]; rfl, hright⟩
    · have hhides : (mark != .code) = true := by simpa using hmark
      rw [if_pos hhides] at h
      obtain ⟨more, rfl, hrest⟩ := exists_append_of_not_mem (not_mem_blank hc) h
      obtain ⟨left, right, rfl, hleft, hright⟩ := ih hrest
      exact ⟨(d, mark) :: left, right, rfl, by rw [render_cons, if_pos hhides, hleft], hright⟩

/-- A mask leaves a place for every character. -/
theorem eq_nil_of_render {hides : Mark → Bool} {chars : List (Char × Mark)}
    (h : render hides chars = []) : chars = [] := by
  cases chars with
  | nil => rfl
  | cons char rest =>
    have hsize := congrArg size h
    rw [(blanks_render hides _).size_eq, List.map_cons, size] at hsize
    have := char.1.utf8Size_pos
    simp only [size] at hsize
    omega

/-- A word at the beginning of the code is code. -/
theorem exists_word_of_render_eq {chars : List (Char × Mark)} {word after : Line}
    (hword : ∀ c ∈ word, c ≠ ' ') (h : render (· != .code) chars = word ++ after) :
    ∃ right, chars = word.map (·, .code) ++ right ∧ render (· != .code) right = after := by
  induction word generalizing chars with
  | nil => exact ⟨chars, rfl, h⟩
  | cons c word ih =>
    obtain ⟨hc, hword⟩ := List.forall_mem_cons.mp hword
    have hfirst : render (· != .code) chars = [] ++ c :: (word ++ after) := h
    obtain ⟨left, right, rfl, hleft, hright⟩ := exists_code_of_render hc hfirst
    obtain rfl := eq_nil_of_render hleft
    obtain ⟨right, rfl, hafter⟩ := ih hword hright
    exact ⟨right, rfl, hafter⟩

/-- Before a character of the code stands what stands there in the code, or else a slash. -/
theorem slash_or_mem_getLast? {left right : List (Char × Mark)} {c : Char}
    (hchain : (left ++ right).IsChain Meets) (hright : (c, .code) ∈ right.head?)
    (hc : isQuote c = false) :
    ∀ a ∈ (left.map (·.1)).getLast?, a = '/' ∨ a ∈ (render (· != .code) left).getLast? := by
  intro a ha
  rw [List.getLast?_map, Option.mem_def, Option.map_eq_some_iff] at ha
  obtain ⟨⟨a, mark⟩, hlast, rfl⟩ := ha
  have hmeets := (List.isChain_append.mp hchain).2.2 _ hlast _ hright
  by_cases hmark : mark = .code
  · subst hmark
    obtain ⟨front, rfl⟩ := List.getLast?_eq_some_iff.mp hlast
    right
    simp [render]
  · left
    exact (hmeets.1 hmark rfl).resolve_right (by simp [hc])

/-- Behind a character of the code stands what stands there in the code, or else a slash. -/
theorem slash_or_mem_head? {left right : List (Char × Mark)} {c : Char}
    (hchain : (left ++ right).IsChain Meets) (hleft : (c, .code) ∈ left.getLast?)
    (hc : isQuote c = false) :
    ∀ b ∈ (right.map (·.1)).head?, b = '/' ∨ b ∈ (render (· != .code) right).head? := by
  intro b hb
  rw [List.head?_map, Option.mem_def, Option.map_eq_some_iff] at hb
  obtain ⟨⟨b, mark⟩, hfirst, rfl⟩ := hb
  have hmeets := (List.isChain_append.mp hchain).2.2 _ hleft _ hfirst
  by_cases hmark : mark = .code
  · subst hmark
    obtain ⟨rest, rfl⟩ := List.head?_eq_some_iff.mp hfirst
    right
    simp [render]
  · left
    exact (hmeets.2 rfl hmark).resolve_left (by simp [hc])

/-- A visible word of the code is code, with what stands before and behind it. -/
theorem exists_marks_of_render {chars : List (Char × Mark)} {before word after : Line}
    (hne : word ≠ []) (hvisible : ∀ c ∈ word, c ≠ ' ')
    (h : render (· != .code) chars = before ++ word ++ after) :
    ∃ left right, chars = left ++ word.map (·, Mark.code) ++ right
      ∧ render (· != .code) left = before ∧ render (· != .code) right = after := by
  obtain ⟨c, rest, rfl⟩ := List.exists_cons_of_ne_nil hne
  have hfirst : render (· != .code) chars = before ++ c :: (rest ++ after) := by
    rw [h]
    simp
  obtain ⟨left, tail, rfl, hleft, htail⟩ :=
    exists_code_of_render (hvisible c List.mem_cons_self) hfirst
  have hbegin : render (· != .code) ((c, .code) :: tail) = c :: rest ++ after := by
    rw [render_cons, htail]
    rfl
  obtain ⟨right, htail, hright⟩ := exists_word_of_render_eq hvisible hbegin
  exact ⟨left, right, by rw [htail, List.append_assoc], hleft, hright⟩

/-- **A word of the code as it is written.**  It stands in the line as well, and next to it stands
    what stands there in the code, or else a slash. -/
theorem exists_word_of_render {chars : List (Char × Mark)} (hchain : chars.IsChain Meets)
    {before word after : Line} (hne : word ≠ []) (hword : ∀ c ∈ word, isWord c = true)
    (h : render (· != .code) chars = before ++ word ++ after) :
    ∃ left right, chars.map (·.1) = left ++ word ++ right ∧ size left = size before
      ∧ (∀ a ∈ left.getLast?, a = '/' ∨ a ∈ before.getLast?)
      ∧ ∀ b ∈ right.head?, b = '/' ∨ b ∈ after.head? := by
  have hvisible : ∀ c ∈ word, c ≠ ' ' := by
    rintro c hc rfl
    exact absurd (hword _ hc) (by decide)
  have hquote : ∀ c ∈ word, isQuote c = false := by
    intro c hc
    by_contra hnot
    rw [Bool.not_eq_false] at hnot
    exact absurd (hword c hc) (by simp [isWord_eq_false_of_isQuote hnot])
  have hfirst := List.head?_eq_some_head hne
  have hlast := List.getLast?_eq_some_getLast hne
  obtain ⟨left, right, rfl, hleft, hright⟩ := exists_marks_of_render hne hvisible h
  refine ⟨left.map (·.1), right.map (·.1), by simp [Function.comp_def], ?_, ?_, ?_⟩
  · rw [← hleft, (blanks_render _ left).size_eq]
  · rw [← hleft]
    rw [List.append_assoc] at hchain
    have hbegin : (word.head hne, Mark.code) ∈ (word.map (·, Mark.code) ++ right).head? := by
      rw [List.head?_append_of_ne_nil _ (by simpa using hne), List.head?_map, hfirst]
      rfl
    exact slash_or_mem_getLast? hchain hbegin (hquote _ (List.head_mem hne))
  · rw [← hright]
    have hend : (word.getLast hne, Mark.code) ∈ (left ++ word.map (·, Mark.code)).getLast? := by
      rw [List.getLast?_append_of_ne_nil _ (by simpa using hne), List.getLast?_map, hlast]
      rfl
    exact slash_or_mem_head? hchain hend (hquote _ (List.getLast_mem hne))

theorem not_mem_of_mem_splitLines {text : String} : ∀ line ∈ splitLines text, '\n' ∉ line := by
  intro line hline hmem
  obtain ⟨piece, hpiece, rfl⟩ := List.mem_map.mp hline
  refine not_mem_of_mem_splitAtChar hpiece ?_
  rcases dropReturn_eq piece with heq | heq
  · rwa [heq] at hmem
  · rw [heq]
    exact List.mem_append_left _ hmem

/-- The same for a line of a text. -/
theorem exists_word_of_code {text : String} {n : Nat} {before word after : Line} (hne : word ≠ [])
    (hword : ∀ c ∈ word, isWord c = true)
    (h : (maskCode (splitLines text))[n]? = some (before ++ word ++ after)) :
    ∃ left right, (splitLines text)[n]? = some (left ++ word ++ right) ∧ size left = size before
      ∧ (∀ a ∈ left.getLast?, a = '/' ∨ a ∈ before.getLast?)
      ∧ ∀ b ∈ right.head?, b = '/' ∨ b ∈ after.head? := by
  rw [maskCode, List.getElem?_map, Option.map_eq_some_iff] at h
  obtain ⟨chars, hchars, hrender⟩ := h
  have hchain := isChain_of_mem_markLines not_mem_of_mem_splitLines chars
    (List.mem_of_getElem? hchars)
  obtain ⟨left, right, hline, hsides⟩ := exists_word_of_render hchain hne hword hrender
  refine ⟨left, right, ?_, hsides⟩
  rw [← map_fst_markLines false (splitLines text), List.getElem?_map, hchars, ← hline]
  rfl

end ScriptServer.Text

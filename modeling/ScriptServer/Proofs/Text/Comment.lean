import ScriptServer.Proofs.Text.LineStart
import ScriptServer.Proofs.Text.Trim

namespace ScriptServer.Text

/-!
# Inside a comment

* `InRemark`, `InBlock` — a text ends inside a comment, said of the text: a marker stands in code,
  and nothing ends the comment that it opens.
* `inRemark_iff`, `inBlock_iff` — reading the text character by character leads there exactly then.
* `Region.mark_eq_comment_iff` — a character belongs to a comment when it leads into one or on in
  one, and when it ends one.
* `commentBelow`, `commentBelow_eq_true_iff` — whether a line begins inside a block comment.
-/

/-- A text ends inside a comment to the end of the line: two slashes stand in code, and no line
    break comes after them. -/
def InRemark (text : List Char) : Prop :=
  ∃ before inside, text = before ++ '/' :: '/' :: inside ∧ Region.after .code before = .code
    ∧ '\n' ∉ inside

/-- A text ends inside a block comment: its opening marker stands in code, and no closing one comes
    after it. -/
def InBlock (text : List Char) : Prop :=
  ∃ before inside, text = before ++ '/' :: '*' :: inside ∧ Region.after .code before = .code
    ∧ ¬ ['*', '/'] <:+: inside

/-- A text ends inside a comment. -/
def InComment (text : List Char) : Prop := InRemark text ∨ InBlock text

namespace Region

/-! ### One step back -/

theorem step_eq_slash_iff {region : Region} {c : Char} :
    region.step c = .slash ↔ region = .code ∧ c = '/' := by
  cases region <;> simp only [step, newLine, ofCode] <;> grind

theorem step_eq_remark_iff {region : Region} {c : Char} :
    region.step c = .remark
      ↔ (region = .slash ∧ c = '/') ∨ (region = .remark ∧ c ≠ '\n') := by
  cases region <;> simp only [step, newLine, ofCode] <;> grind

theorem step_eq_star_iff {region : Region} {c : Char} :
    region.step c = .star ↔ region.inComment = true ∧ c = '*' := by
  cases region <;> simp only [step, newLine, ofCode, inComment] <;> grind

theorem inComment_step_iff {region : Region} {c : Char} :
    (region.step c).inComment = true
      ↔ (region = .slash ∧ c = '*') ∨ (region.inComment = true ∧ ¬ (region = .star ∧ c = '/')) := by
  cases region <;> simp only [step, newLine, ofCode] <;> grind [inComment]

/-! ### The whole text -/

variable {text : List Char}

theorem after_concat (region : Region) (text : List Char) (c : Char) :
    region.after (text ++ [c]) = (region.after text).step c := after_append region text [c]

theorem exists_of_after_eq_slash (h : after .code text = .slash) :
    ∃ before, text = before ++ ['/'] ∧ after .code before = .code := by
  cases text using List.reverseRecOn with
  | nil => cases h
  | append_singleton text c =>
    rw [after_concat, step_eq_slash_iff] at h
    exact ⟨text, by rw [h.2], h.1⟩

/-- A block comment goes on as long as no marker closes it. -/
theorem inComment_after_comment {inside : List Char} (h : ¬ ['*', '/'] <:+: inside) :
    (after .comment inside).inComment = true := by
  induction inside using List.reverseRecOn with
  | nil => rfl
  | append_singleton inside c ih =>
    rw [List.infix_concat_iff, not_or] at h
    rw [after_concat, inComment_step_iff]
    refine .inr ⟨ih h.2, ?_⟩
    rintro ⟨hstar, rfl⟩
    -- behind a star the slash would close it
    cases inside using List.reverseRecOn with
    | nil => cases hstar
    | append_singleton inside d =>
      rw [after_concat, step_eq_star_iff] at hstar
      exact h.1 ⟨inside, by simp [hstar.2]⟩

end Region

theorem inRemark_iff {text : List Char} : InRemark text ↔ Region.after .code text = .remark := by
  constructor
  · rintro ⟨before, inside, rfl, hbefore, hinside⟩
    rw [Region.after_append, hbefore]
    exact (marks_remark hinside).2
  · intro h
    induction text using List.reverseRecOn with
    | nil => cases h
    | append_singleton text c ih =>
      rw [Region.after_concat, Region.step_eq_remark_iff] at h
      rcases h with ⟨hslash, rfl⟩ | ⟨hremark, hc⟩
      · obtain ⟨before, rfl, hbefore⟩ := Region.exists_of_after_eq_slash hslash
        exact ⟨before, [], by simp, hbefore, List.not_mem_nil⟩
      · obtain ⟨before, inside, rfl, hbefore, hinside⟩ := ih hremark
        exact ⟨before, inside ++ [c], by simp, hbefore, by simp [hinside, hc.symm]⟩

theorem inBlock_iff {text : List Char} :
    InBlock text ↔ (Region.after .code text).inComment = true := by
  constructor
  · rintro ⟨before, inside, rfl, hbefore, hinside⟩
    rw [Region.after_append, hbefore]
    exact Region.inComment_after_comment hinside
  · intro h
    induction text using List.reverseRecOn with
    | nil => cases h
    | append_singleton text c ih =>
      rw [Region.after_concat, Region.inComment_step_iff] at h
      rcases h with ⟨hslash, rfl⟩ | ⟨hcomment, hends⟩
      · obtain ⟨before, rfl, hbefore⟩ := Region.exists_of_after_eq_slash hslash
        exact ⟨before, [], by simp, hbefore, by simp⟩
      · obtain ⟨before, inside, rfl, hbefore, hinside⟩ := ih hcomment
        refine ⟨before, inside ++ [c], by simp, hbefore, ?_⟩
        rw [List.infix_concat_iff, not_or]
        refine ⟨?_, hinside⟩
        -- the text would have ended behind a star, and the slash would close the comment
        rintro ⟨front, hfront⟩
        have hsplit : (front ++ ['*']) ++ ['/'] = inside ++ [c] := by simpa using hfront
        obtain ⟨rfl, hc⟩ := List.append_inj' hsplit rfl
        have hfront' : ¬ ['*', '/'] <:+: front := fun h =>
          hinside (h.trans (List.prefix_append front ['*']).isInfix)
        refine hends ⟨?_, (List.cons.inj hc).1.symm⟩
        have hstar : before ++ '/' :: '*' :: (front ++ ['*'])
            = (before ++ '/' :: '*' :: front) ++ ['*'] := by simp
        rw [hstar, Region.after_concat, Region.step_eq_star_iff, Region.after_append, hbefore]
        exact ⟨Region.inComment_after_comment hfront', rfl⟩

theorem inComment_iff {text : List Char} :
    InComment text ↔ Region.after .code text = .remark
      ∨ (Region.after .code text).inComment = true := by
  rw [InComment, inRemark_iff, inBlock_iff]

/-! ### Marks of comments -/

/-- The mark of a character depends on where the characters before it lead, and on the next one. -/
theorem exists_marks_append (region : Region) (before : Line) (c : Char) (after : Line) :
    ∃ front back, marks region (before ++ c :: after)
        = front ++ (c, (region.after before).mark c after.head?) :: back
      ∧ front.map (·.1) = before ∧ back.map (·.1) = after := by
  have hfst : ∀ (region : Region) (line : Line), (marks region line).map (·.1) = line := by
    intro region line
    induction line generalizing region with
    | nil => rfl
    | cons c rest ih => rw [marks, List.map_cons, ih]
  induction before generalizing region with
  | nil => exact ⟨[], _, rfl, rfl, hfst _ _⟩
  | cons d rest ih =>
    obtain ⟨front, back, hmarks, hfront, hback⟩ := ih (region.step d)
    refine ⟨(d, region.mark d (rest ++ c :: after).head?) :: front, back, ?_, ?_, hback⟩
    · rw [List.cons_append, marks, hmarks]
      rfl
    · rw [List.map_cons, hfront]

theorem size_render (hides : Mark → Bool) (chars : List (Char × Mark)) :
    size (render hides chars) = size (chars.map (·.1)) :=
  (blanks_render hides chars).size_eq

theorem render_append (hides : Mark → Bool) (a b : List (Char × Mark)) :
    render hides (a ++ b) = render hides a ++ render hides b := List.flatMap_append

theorem isBlankLine_render (hides : Mark → Bool) {chars : List (Char × Mark)}
    (h : isBlankLine (chars.map (·.1)) = true) : isBlankLine (render hides chars) = true := by
  induction chars with
  | nil => rfl
  | cons marked rest ih =>
    rw [List.map_cons, isBlankLine, List.all_cons, Bool.and_eq_true] at h
    rw [render, List.flatMap_cons]
    refine isBlankLine_append ?_ (ih h.2)
    split
    · exact isBlankLine_blank _
    · simpa [isBlankLine] using h.1

/-- **Marks of comments.**  A character belongs to a comment when it begins a marker that opens one,
    when reading stands in a comment behind it, and when it closes one. -/
theorem Region.mark_eq_comment_iff {region : Region} {c : Char} (hc : c ≠ '\n')
    (next : Option Char) :
    region.mark c next = .comment
      ↔ (region = .code ∧ c = '/' ∧ (next = some '/' ∨ next = some '*'))
        ∨ (region.step c = .remark ∨ (region.step c).inComment = true)
        ∨ (region = .star ∧ c = '/') := by
  rw [step_eq_remark_iff, inComment_step_iff]
  cases region <;> simp only [mark, inComment] <;> grind

/-- Blanks on a line lead neither into a comment nor out of one. -/
theorem Region.after_gap (region : Region) {gap : Line} (hgap : isBlankLine gap = true)
    (hbreak : '\n' ∉ gap) :
    (region.after gap = .remark ↔ region = .remark)
      ∧ (region.after gap).inComment = region.inComment := by
  induction gap generalizing region with
  | nil => exact ⟨Iff.rfl, rfl⟩
  | cons c rest ih =>
    obtain ⟨hc, hrest⟩ : isBlank c = true ∧ isBlankLine rest = true := by
      simpa [isBlankLine] using hgap
    obtain ⟨hnewline, hbreak⟩ := not_or.mp (mt List.mem_cons.mpr hbreak)
    have hslash : c ≠ '/' := fun h => absurd hc (by rw [h]; decide)
    have hstar : c ≠ '*' := fun h => absurd hc (by rw [h]; decide)
    obtain ⟨hremark, hcomment⟩ := ih (region.step c) hrest hbreak
    rw [after_cons, hremark, hcomment, step_eq_remark_iff, Bool.eq_iff_iff, inComment_step_iff]
    simp [hslash, hstar, Ne.symm hnewline]

/-! ### Lines below other lines -/

/-- Whether the line below some lines begins inside a block comment; the flag says whether the first
    of them does. -/
def commentBelow : Bool → List Line → Bool
  | inComment, [] => inComment
  | inComment, line :: rest =>
    commentBelow (markLine (if inComment then .comment else .code) line).inComment rest

theorem commentBelow_append (inComment : Bool) (above below : List Line) :
    commentBelow inComment (above ++ below)
      = commentBelow (commentBelow inComment above) below := by
  induction above generalizing inComment with
  | nil => rfl
  | cons line above ih => exact ih _

theorem markLines_append (inComment : Bool) (above below : List Line) :
    markLines inComment (above ++ below)
      = markLines inComment above ++ markLines (commentBelow inComment above) below := by
  induction above generalizing inComment with
  | nil => rfl
  | cons line above ih =>
    rw [List.cons_append, markLines, markLines, ih]
    rfl

/-- A line begins inside a block comment when the text above ends inside one. -/
theorem commentBelow_eq_true_iff {lines : List Line} (h : ∀ line ∈ lines, '\n' ∉ line) :
    commentBelow false (lines.map dropReturn) = true
      ↔ InBlock (lines.flatMap (· ++ ['\n'])) := by
  have hany : ∀ inComment : Bool, commentBelow inComment (lines.map dropReturn)
      = ((Region.ofZone (if inComment then .comment else .code)).after
          (lines.flatMap (· ++ ['\n']))).inComment := by
    induction lines with
    | nil =>
      intro inComment
      cases inComment <;> rfl
    | cons line lines ih =>
      obtain ⟨hline, hlines⟩ := List.forall_mem_cons.mp h
      intro inComment
      have hzone : (if inComment then Zone.comment else .code) ≠ .quoted '\\' := by
        split <;> simp
      rw [List.map_cons, commentBelow, (markLine_eq (not_mem_dropReturn hline) hzone).2,
        Region.inComment_after_dropReturn, ih hlines, ← Region.newLine_eq, List.flatMap_cons,
        Region.after_append, Region.after_append]
      rfl
  rw [hany false, inBlock_iff]
  rfl

/-- Lines stay what they are in number. -/
theorem length_maskComments (lines : List Line) : (maskComments lines).length = lines.length := by
  have h := congrArg List.length (map_fst_markLines false lines)
  rw [List.length_map] at h
  rw [maskComments, List.length_map, h]

/-- A blank line is blank without its comments, too. -/
theorem isBlankLine_maskComments {lines : List Line} {number : Nat}
    (h : ∀ row ∈ lines[number]?, isBlankLine row = true) :
    ∀ row ∈ (maskComments (lines.map dropReturn))[number]?, isBlankLine row = true := by
  intro row hrow
  rw [maskComments, List.getElem?_map, Option.mem_def, Option.map_eq_some_iff] at hrow
  obtain ⟨chars, hchars, rfl⟩ := hrow
  apply isBlankLine_render
  have hraw : (lines.map dropReturn)[number]? = some (chars.map (·.1)) := by
    rw [← map_fst_markLines false (lines.map dropReturn), List.getElem?_map, hchars]
    rfl
  rw [List.getElem?_map, Option.map_eq_some_iff] at hraw
  obtain ⟨line, hline, hdrop⟩ := hraw
  rw [← hdrop]
  exact isBlankLine_dropReturn (h line hline)

end ScriptServer.Text

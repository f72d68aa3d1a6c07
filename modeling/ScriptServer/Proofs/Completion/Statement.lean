import ScriptServer.Completion.Context
import ScriptServer.Proofs.Completion.Comment
import ScriptServer.Proofs.Sql.Clause

namespace ScriptServer

/-!
# The statement around the cursor

The statement is cut out of the lines around the cursor: on the line of the cursor at semicolons,
and then line by line in both directions.

* `Statement.goesOn`, `Statement.earlier` — the lines above that are taken to the statement.
* `Statement.around_eq` — what the statement is put together from.
* `Statement.solid` — the characters of a text that are no blanks.  Lines are trimmed and joined by
  spaces, so these are what is left of the text.
* `Statement.ownHead`, `Statement.ownTail` — the text around the cursor between two semicolons.
* `Statement.kept_apart_iff` — after the cursor nothing of another statement is taken.  Before it,
  nothing is taken unless a line above holds a semicolon that is not its end.
-/

open Text

namespace Statement

/-! ### Lines that are taken -/

/-- Whether a statement goes on below a line: the line is not blank and does not end with a
    semicolon. -/
def goesOn (line : Line) : Bool :=
  !((trim line).isEmpty || (trim line).getLast? == some ';')

/-- The lines directly above the cursor on which the statement goes on, as far as it reaches. -/
def earlier (above : List Line) : List Line :=
  (above.rtake reach).rtakeWhile goesOn

/-- Lines are taken from the lowest up, as long as the statement goes on. -/
theorem linesAbove_eq (n : Nat) (rows : List Line) :
    linesAbove n rows = (((rows.take n).takeWhile goesOn).map trim).reverse := by
  induction n generalizing rows with
  | zero => simp [linesAbove]
  | succ n ih =>
    cases rows with
    | nil => simp [linesAbove]
    | cons line rest =>
      rw [linesAbove, List.take_succ_cons, List.takeWhile_cons]
      cases hstop : ((trim line).isEmpty || (trim line).getLast? == some ';') with
      | true => simp [goesOn, hstop]
      | false => simp [goesOn, hstop, ih]

theorem linesAbove_reverse (above : List Line) :
    linesAbove reach above.reverse = (earlier above).map trim := by
  rw [linesAbove_eq, earlier, List.rtake_eq_reverse_take_reverse, List.rtakeWhile,
    List.reverse_reverse, List.map_reverse]

theorem afterSemicolon?_eq (line : Line) :
    afterSemicolon? line
      = if ';' ∈ line then some (line.rtakeWhile (· != ';')) else none := by
  rw [afterSemicolon?]
  cases hcut : cutLast? [';'] line with
  | none => simp [cutLast?_eq_none hcut]
  | some parts =>
    obtain ⟨rfl, hrest⟩ := cutLast?_eq_some hcut
    have hrun : ∀ c ∈ parts.2, (c != ';') = true := fun c hc =>
      bne_iff_ne.mpr (ne_of_mem_of_not_mem hc hrest)
    rw [if_pos (by simp), rtakeWhile_append_cons _ (by simp) hrun]
    rfl

/-- What the statement before the cursor is put together from. -/
def partsBefore (above : List Line) (head : Line) : List Line :=
  if ';' ∈ head then [trimStart (head.rtakeWhile (· != ';'))]
  else (earlier above).map trim ++ [trimStart head]

/-- What the statement after the cursor is put together from. -/
def partsAfter (tail : Line) (below : List Line) : List Line :=
  if ';' ∈ tail then [tail.takeWhile (· != ';')] else tail :: linesBelow reach below

/-- **What the statement is put together from,** for a cursor between two parts of a line. -/
theorem around_eq (above : List Line) (head tail : Line) (below : List Line) :
    around (above ++ (head ++ tail) :: below) above.length (size head)
      = ([' '].intercalate (partsBefore above head),
          [' '].intercalate (partsAfter tail below)) := by
  have hline : (above ++ (head ++ tail) :: below).getD above.length [] = head ++ tail := by simp
  have habove : (above ++ (head ++ tail) :: below).take above.length = above := by simp
  have hbelow : (above ++ (head ++ tail) :: below).drop (above.length + 1) = below := by simp
  simp only [around, hline, splitAtOffset_size, habove, hbelow, afterSemicolon?_eq,
    linesAbove_reverse, partsBefore, partsAfter]
  by_cases hhead : ';' ∈ head
  · simp only [if_pos hhead]
  · simp only [if_neg hhead]

/-! ### What is left of the text -/

/-- The characters of a text that are no blanks. -/
def solid (text : Line) : Line := text.filter (!isBlank ·)

theorem mem_solid {text : Line} {c : Char} : c ∈ solid text ↔ c ∈ text ∧ isBlank c = false := by
  simp [solid]

theorem solid_append (a b : Line) : solid (a ++ b) = solid a ++ solid b := List.filter_append a b

theorem solid_cons_of_isBlank {c : Char} (h : isBlank c = true) (rest : Line) :
    solid (c :: rest) = solid rest := by
  simp [solid, h]

theorem solid_of_isBlankLine {gap : Line} (h : isBlankLine gap = true) : solid gap = [] := by
  rw [solid, List.filter_eq_nil_iff]
  intro c hc
  simp [List.all_eq_true.mp h c hc]

theorem solid_trim (line : Line) : solid (trim line) = solid line := by
  obtain ⟨lead, trail, hline, hlead, htrail⟩ := exists_eq_append_trim line
  conv_rhs => rw [hline, solid_append, solid_append, solid_of_isBlankLine hlead,
    solid_of_isBlankLine htrail, List.nil_append, List.append_nil]

theorem solid_trimStart (line : Line) : solid (trimStart line) = solid line := by
  conv_rhs => rw [← takeWhile_append_trimStart line, solid_append,
    solid_of_isBlankLine (isBlankLine_takeWhile line), List.nil_append]

/-- Spaces between lines leave nothing behind, and line breaks do not either. -/
theorem solid_intercalate {gap : Char} (hgap : isBlank gap = true) (lines : List Line) :
    solid ([gap].intercalate lines) = lines.flatMap solid := by
  induction lines with
  | nil => rfl
  | cons line lines ih =>
    cases lines with
    | nil => simp
    | cons next lines =>
      rw [List.intercalate_cons_cons, solid_append, solid_append, ih, List.flatMap_cons,
        solid_cons_of_isBlank hgap]
      simp [solid]

theorem solid_flatMap_concat {gap : Char} (hgap : isBlank gap = true) (lines : List Line) :
    solid (lines.flatMap (· ++ [gap])) = lines.flatMap solid := by
  induction lines with
  | nil => rfl
  | cons line lines ih =>
    rw [List.flatMap_cons, List.flatMap_cons, solid_append, solid_append,
      solid_cons_of_isBlank hgap, ih]
    simp [solid]

/-- The characters before the cursor that the statement is made of. -/
theorem solid_before (above : List Line) (head : Line) :
    solid ([' '].intercalate (partsBefore above head))
      = if ';' ∈ head then solid (head.rtakeWhile (· != ';'))
        else (earlier above).flatMap solid ++ solid head := by
  rw [solid_intercalate (by decide), partsBefore]
  split
  · simp [solid_trimStart]
  · rw [List.flatMap_append, List.flatMap_map, List.flatMap_singleton, solid_trimStart]
    simp only [solid_trim]

/-- The characters after the cursor that the statement is made of. -/
theorem solid_after (tail : Line) (below : List Line) :
    solid ([' '].intercalate (partsAfter tail below))
      = if ';' ∈ tail then solid (tail.takeWhile (· != ';'))
        else solid tail ++ (linesBelow reach below).flatMap solid := by
  rw [solid_intercalate (by decide), partsAfter]
  split <;> simp

/-! ### The text between two semicolons -/

/-- The text before the cursor behind the last semicolon. -/
def ownHead (above : List Line) (head : Line) : Line :=
  (above.flatMap (· ++ ['\n']) ++ head).rtakeWhile (· != ';')

/-- The text after the cursor up to the next semicolon. -/
def ownTail (tail : Line) (below : List Line) : Line :=
  (tail ++ below.flatMap ('\n' :: ·)).takeWhile (· != ';')

theorem ne_of_not_mem {text : Line} (h : ';' ∉ text) : ∀ c ∈ text, (c != ';') = true :=
  fun _ hc => bne_iff_ne.mpr (ne_of_mem_of_not_mem hc h)

theorem ownHead_of_mem (above : List Line) {head : Line} (h : ';' ∈ head) :
    ownHead above head = head.rtakeWhile (· != ';') := by
  obtain ⟨front, rest, rfl, hrest⟩ := exists_last_of_mem h
  rw [ownHead, ← List.append_assoc, rtakeWhile_append_cons _ (by simp) (ne_of_not_mem hrest),
    rtakeWhile_append_cons _ (by simp) (ne_of_not_mem hrest)]

/-- Lines above without a semicolon belong to the text behind the last one. -/
theorem suffix_ownHead {above : List Line} {head : Line} (hhead : ';' ∉ head)
    (habove : ∀ line ∈ earlier above, ';' ∉ line) :
    (earlier above).flatMap solid ++ solid head <:+ solid (ownHead above head) := by
  obtain ⟨upper, hupper⟩ : earlier above <:+ above :=
    (List.rtakeWhile_suffix _ _).trans (List.drop_suffix _ _)
  have hfree : ';' ∉ (earlier above).flatMap (· ++ ['\n']) ++ head := by
    simp only [List.mem_append, List.mem_flatMap, List.mem_singleton, not_or, not_exists, not_and]
    exact ⟨fun line hline => ⟨habove line hline, by decide⟩, hhead⟩
  refine ⟨solid ((upper.flatMap (· ++ ['\n'])).rtakeWhile (· != ';')), ?_⟩
  rw [ownHead]
  conv_rhs => rw [← hupper, List.flatMap_append, List.append_assoc,
    rtakeWhile_append _ (ne_of_not_mem hfree), solid_append, solid_append,
    solid_flatMap_concat (by decide)]

theorem takeWhile_append_semicolon {front : Line} (h : ';' ∉ front) (rest : Line) :
    (front ++ ';' :: rest).takeWhile (· != ';') = front := by
  rw [List.takeWhile_append_of_pos (ne_of_not_mem h), List.takeWhile_cons_of_neg (by simp),
    List.append_nil]

theorem not_mem_takeWhile (text : Line) : ';' ∉ text.takeWhile (· != ';') := by
  intro h
  have hne := List.mem_takeWhile_imp h
  simp at hne

/-- **Below the cursor** lines are taken up to the next semicolon, and not beyond. -/
theorem linesBelow_cut (n : Nat) (below : List Line) :
    (∀ line ∈ linesBelow n below, ';' ∉ line)
      ∧ (linesBelow n below).flatMap solid
        <+: solid ((below.flatMap ('\n' :: ·)).takeWhile (· != ';')) := by
  fun_induction linesBelow n below with
  | case1 => simp
  | case2 => simp
  | case3 => simp
  | case4 n line rest text _ hmem =>
    -- the line with the semicolon: only blanks come before its trimmed part
    obtain ⟨lead, trail, hline, hlead, -⟩ := exists_eq_append_trim line
    obtain ⟨front, behind, htext, hfront⟩ := List.eq_append_cons_of_mem hmem
    have hlead' : ';' ∉ '\n' :: (lead ++ front) := by
      have hnone := not_mem_of_isBlankLine hlead (c := ';') (by decide)
      simp [hnone, hfront]
    have hcut : ((line :: rest).flatMap ('\n' :: ·)).takeWhile (· != ';')
        = '\n' :: (lead ++ front) := by
      have hsplit : (line :: rest).flatMap ('\n' :: ·) = ('\n' :: (lead ++ front))
          ++ ';' :: (behind ++ trail ++ rest.flatMap ('\n' :: ·)) := by
        rw [List.flatMap_cons]
        conv_lhs => rw [hline, show trim line = front ++ ';' :: behind from htext]
        simp
      rw [hsplit, takeWhile_append_semicolon hlead']
    refine ⟨?_, ?_⟩
    · rintro piece hpiece
      rw [List.mem_singleton.mp hpiece]
      exact not_mem_takeWhile _
    · rw [hcut, htext, takeWhile_append_semicolon hfront, solid_cons_of_isBlank (by decide),
        solid_append, solid_of_isBlankLine hlead]
      simp
  | case5 n line rest text _ hmem ih =>
    have hline : ';' ∉ '\n' :: line := by
      have hnone : ';' ∉ line := fun h => hmem ((mem_trim (by decide)).mpr h)
      simp [hnone]
    refine ⟨List.forall_mem_cons.mpr ⟨hmem, ih.1⟩, ?_⟩
    rw [List.flatMap_cons, List.flatMap_cons, List.takeWhile_append_of_pos (ne_of_not_mem hline),
      solid_append, solid_cons_of_isBlank (by decide), show solid text = solid line from
        solid_trim line]
    exact (List.prefix_append_right_inj _).mpr ih.2

theorem semicolon_mem_solid {text : Line} : ';' ∈ solid text ↔ ';' ∈ text := by
  rw [mem_solid, and_iff_left (by decide)]

theorem not_mem_rtakeWhile (text : Line) : ';' ∉ text.rtakeWhile (· != ';') := by
  intro h
  have hne := List.mem_rtakeWhile_imp h
  simp at hne

/-- Nothing of another statement is taken after the cursor. -/
theorem after_own (tail : Line) (below : List Line) :
    solid ([' '].intercalate (partsAfter tail below)) <+: solid (ownTail tail below) := by
  rw [solid_after, ownTail]
  split
  next hmem =>
    obtain ⟨front, rest, rfl, hfront⟩ := List.eq_append_cons_of_mem hmem
    rw [takeWhile_append_semicolon hfront, List.append_assoc, List.cons_append,
      takeWhile_append_semicolon hfront]
  next hmem =>
    rw [List.takeWhile_append_of_pos (ne_of_not_mem hmem), solid_append]
    exact (List.prefix_append_right_inj _).mpr (linesBelow_cut reach below).2

/-- What comes into the text before the cursor has a semicolon only where a line above has one. -/
theorem semicolon_not_mem_before (above : List Line) (head : Line) :
    ';' ∉ [' '].intercalate (partsBefore above head)
      ↔ ';' ∈ head ∨ ∀ line ∈ earlier above, ';' ∉ line := by
  rw [← semicolon_mem_solid, solid_before]
  split
  next hmem =>
    rw [semicolon_mem_solid]
    exact iff_of_true (not_mem_rtakeWhile head) (.inl hmem)
  next hmem =>
    simp only [List.mem_append, List.mem_flatMap, semicolon_mem_solid, hmem, or_false, false_or,
      not_exists, not_and]

/-- The text before the cursor belongs to the cursor's statement as long as it has no semicolon. -/
theorem before_own_iff (above : List Line) (head : Line) :
    ';' ∉ [' '].intercalate (partsBefore above head)
      ↔ solid ([' '].intercalate (partsBefore above head)) <:+ solid (ownHead above head) := by
  constructor
  · intro hfree
    rw [semicolon_not_mem_before] at hfree
    rw [solid_before]
    split
    next hmem => rw [ownHead_of_mem above hmem]
    next hmem => exact suffix_ownHead hmem (hfree.resolve_left hmem)
  · intro hsuffix hmem
    -- a semicolon would come into the text behind the last one
    have hown := hsuffix.subset (semicolon_mem_solid.mpr hmem)
    exact not_mem_rtakeWhile _ (semicolon_mem_solid.mp hown)

end Statement

/-! ### Tables and statements -/

/-- The table whose columns are completed is named before the cursor or after it. -/
theorem Clause.fromTarget?_of_classify? {before after : Line} {clause : Clause}
    {table : TableHandle} (h : classify? before after = some clause)
    (hclause : clause = .columns table ∨ clause = .orderBy table) :
    Sql.fromTarget? before = some table ∨ Sql.fromTarget? after = some table := by
  cases classify?_cases h with
  | orderBy htable =>
    obtain rfl : _ = table := by simpa using hclause
    exact .inl htable
  | filter htable =>
    obtain rfl : _ = table := by simpa using hclause
    exact .inl htable
  | select htable =>
    obtain rfl : _ = table := by simpa using hclause
    exact .inr htable
  | _ => simp at hclause

namespace Statement

/-- **Statements are kept apart, with one exception.**  No semicolon comes into the text after the
    cursor: what is taken there belongs to the statement that the cursor is in.  The same holds for
    the text before the cursor, unless a line above is taken that has a semicolon before its end;
    the cursor's own line then has none before the cursor.  The table whose columns are completed is
    named in one of the two texts. -/
theorem kept_apart_iff (above : List Line) (head tail : Line) (below : List Line) :
    ∃ before after,
      around (above ++ (head ++ tail) :: below) above.length (size head) = (before, after)
        ∧ (';' ∉ after ∧ solid after <+: solid (ownTail tail below))
        ∧ (';' ∉ before ↔ solid before <:+ solid (ownHead above head))
        ∧ (';' ∉ before ↔ ';' ∈ head ∨ ∀ line ∈ earlier above, ';' ∉ line)
        ∧ ∀ clause table, Clause.classify? before after = some clause →
            clause = .columns table ∨ clause = .orderBy table →
            Sql.fromTarget? before = some table ∨ Sql.fromTarget? after = some table := by
  refine ⟨_, _, around_eq above head tail below, ⟨?_, after_own tail below⟩,
    before_own_iff above head, semicolon_not_mem_before above head,
    fun clause table h hclause => Clause.fromTarget?_of_classify? h hclause⟩
  intro hmem
  have hown := (after_own tail below).subset (semicolon_mem_solid.mpr hmem)
  exact not_mem_takeWhile _ (semicolon_mem_solid.mp hown)

/-- A statement begins in the middle of the line above.  The table is then taken from the statement
    that ends there. -/
theorem reaches_into_statement_above :
    ';' ∈ (around ["delete from a.b.c; select x".toList, "from d.e.f where ".toList] 1 17).1
      ∧ Context.ofPosition "delete from a.b.c; select x\nfrom d.e.f where " ⟨1, 17⟩
        = .sql (.columns (.catalog "a" "b" "c"))
      ∧ Sql.fromTarget? (ownHead ["delete from a.b.c; select x".toList] "from d.e.f where ".toList)
        = some (.catalog "d" "e" "f") := by
  decide

end Statement

end ScriptServer

import ScriptServer.Proofs.Text.Column
import ScriptServer.Proofs.Text.Split
import ScriptServer.Token

namespace ScriptServer

/-!
# Tokens and the cursor

A token is read from the cursor to both sides.  What is read is a row of identifiers that cannot be
made longer, and the line alone decides where such a row lies.

* `Token.Row` — a row of identifiers in a line that nothing before it or behind it goes on with.
* `Token.exists_row_of_inLine?` — a token that is found is such a row.
* `Token.Row.inLine?_of_run` — it is found from everywhere in its identifiers and at their ends.
* `Token.Row.Splits` — the columns that cut a separator in two.
* `Token.token_same_at_every_column` — the token is the same at all its columns but these.
* `Token.wide_separator_not_split` — a column inside a separator need not cut it in two.
-/

open Text

namespace Text

theorem prefix_dropLast_iff {line front : Line} (hne : line ≠ []) :
    front <+: line.dropLast ↔ ∃ rest, rest ≠ [] ∧ line = front ++ rest := by
  obtain ⟨most, last, rfl⟩ := (List.eq_nil_or_concat line).resolve_left hne
  rw [List.concat_eq_append, List.dropLast_concat]
  constructor
  · rintro ⟨rest, rfl⟩
    exact ⟨rest ++ [last], by simp, by simp⟩
  · rintro ⟨rest, hrest, heq⟩
    obtain ⟨middle, c, rfl⟩ := (List.eq_nil_or_concat rest).resolve_left hrest
    rw [List.concat_eq_append, ← List.append_assoc] at heq
    exact ⟨middle, (List.append_inj' heq rfl).1.symm⟩

end Text

namespace Token

/-! ### Reading in one direction -/

/-- A run of identifier characters. -/
def IsRun (run : Line) : Prop := run ≠ [] ∧ ∀ c ∈ run, isIdent c = true

theorem IsRun.reverse {run : Line} (h : IsRun run) : IsRun run.reverse :=
  ⟨by simpa using h.1, by simpa using h.2⟩

/-- Whether nothing at the beginning of a text goes on with a token: neither an identifier character
    nor a separator with one behind it. -/
structure Stops (separator text : Line) : Prop where
  head : ∀ c ∈ text.head?, isIdent c = false
  member : ∀ c rest, isIdent c = true → text ≠ separator ++ c :: rest

/-- Whether a text can stand between two identifiers. -/
structure IsSeparator (separator : Line) : Prop where
  ne_nil : separator ≠ []
  not_ident : ∀ c ∈ separator, isIdent c = false

theorem IsSeparator.reverse {separator : Line} (h : IsSeparator separator) :
    IsSeparator separator.reverse where
  ne_nil := by simpa using h.ne_nil
  not_ident := by simpa using h.not_ident

section Forward

variable {separator text run rest : Line} {runs : List Line}

theorem span_run (hrun : ∀ c ∈ run, isIdent c = true)
    (hrest : ∀ c ∈ rest.head?, isIdent c = false) :
    (run ++ rest).takeWhile isIdent = run ∧ (run ++ rest).dropWhile isIdent = rest := by
  rw [List.takeWhile_append_of_pos hrun, List.dropWhile_append_of_pos hrun]
  cases rest with
  | nil => simp
  | cons c rest =>
    have hc : ¬ isIdent c = true := by simp [hrest c rfl]
    rw [List.takeWhile_cons_of_neg hc, List.dropWhile_cons_of_neg hc, List.append_nil]
    exact ⟨rfl, rfl⟩

theorem head?_dropWhile_isIdent (text : Line) :
    ∀ c ∈ (text.dropWhile isIdent).head?, isIdent c = false := by
  intro c hc
  have h := List.head?_dropWhile_not isIdent text
  rw [hc] at h
  simpa using h

/-- Identifiers with a separator in front of each do not begin with an identifier character. -/
theorem head?_members (hseparator : IsSeparator separator)
    (hrest : ∀ c ∈ rest.head?, isIdent c = false) (runs : List Line) :
    ∀ c ∈ (runs.flatMap (separator ++ ·) ++ rest).head?, isIdent c = false := by
  cases runs with
  | nil => exact hrest
  | cons run runs =>
    obtain ⟨d, separator, rfl⟩ := List.exists_cons_of_ne_nil hseparator.ne_nil
    rintro c ⟨⟩
    exact hseparator.not_ident d List.mem_cons_self

theorem readMember?_of_isRun (hrun : IsRun run) (hrest : ∀ c ∈ rest.head?, isIdent c = false) :
    readMember? separator (separator ++ run ++ rest) = some (separator ++ run, rest) := by
  have hafter : after? separator (separator ++ run ++ rest) = some (run ++ rest) :=
    after?_eq_some_iff.mpr (List.append_assoc ..)
  obtain ⟨htake, hdrop⟩ := span_run hrun.2 hrest
  obtain ⟨c, run, rfl⟩ := List.exists_cons_of_ne_nil hrun.1
  unfold readMember?
  rw [hafter]
  dsimp only
  rw [htake, hdrop]

theorem exists_of_readMember? {taken : Line} (h : readMember? separator text = some (taken, rest)) :
    ∃ run, IsRun run ∧ taken = separator ++ run ∧ text = separator ++ run ++ rest
      ∧ ∀ c ∈ rest.head?, isIdent c = false := by
  unfold readMember? at h
  split at h
  next => cases h
  next middle hmiddle =>
    split at h
    next => cases h
    next c run hrun =>
      obtain ⟨rfl, rfl⟩ := Prod.mk.inj (Option.some.inj h)
      have hcut := List.takeWhile_append_dropWhile (p := isIdent) (l := middle)
      rw [hrun] at hcut
      refine ⟨c :: run, ⟨List.cons_ne_nil c run, fun d hd => ?_⟩, rfl, ?_,
        head?_dropWhile_isIdent middle⟩
      · rw [← hrun] at hd
        exact List.mem_takeWhile_imp hd
      · rw [after?_eq_some_iff.mp hmiddle, List.append_assoc, hcut]

theorem readMember?_eq_none_iff :
    readMember? separator text = none
      ↔ ∀ c rest, isIdent c = true → text ≠ separator ++ c :: rest := by
  constructor
  · rintro hnone c rest hc rfl
    obtain ⟨run, tail, htext⟩ : ∃ run tail, c :: rest = run ++ tail ∧ IsRun run
        ∧ ∀ d ∈ tail.head?, isIdent d = false := by
      refine ⟨(c :: rest).takeWhile isIdent, (c :: rest).dropWhile isIdent,
        List.takeWhile_append_dropWhile.symm, ⟨?_, fun d => List.mem_takeWhile_imp⟩,
        head?_dropWhile_isIdent _⟩
      rw [List.takeWhile_cons_of_pos hc]
      exact List.cons_ne_nil c _
    rw [htext.1, ← List.append_assoc, readMember?_of_isRun htext.2.1 htext.2.2] at hnone
    cases hnone
  · intro hmember
    cases hread : readMember? separator text with
    | none => rfl
    | some parts =>
      obtain ⟨run, hrun, -, htext, -⟩ := exists_of_readMember? hread
      obtain ⟨c, run, rfl⟩ := List.exists_cons_of_ne_nil hrun.1
      rw [List.append_assoc] at htext
      exact absurd htext (hmember c _ (hrun.2 c List.mem_cons_self))

theorem readMembers_of_none (h : readMember? separator text = none) :
    readMembers separator text = [] := by
  rw [readMembers]
  split
  next => rfl
  next heq =>
    rw [h] at heq
    cases heq

theorem readMembers_of_some {taken : Line} (h : readMember? separator text = some (taken, rest)) :
    readMembers separator text = taken ++ readMembers separator rest := by
  rw [readMembers]
  split
  next heq =>
    rw [h] at heq
    cases heq
  next heq =>
    rw [h] at heq
    obtain ⟨rfl, rfl⟩ := Prod.mk.inj (Option.some.inj heq)
    rfl

/-- Identifiers are read as long as separators join them. -/
theorem readMembers_eq (hseparator : IsSeparator separator) (hruns : ∀ run ∈ runs, IsRun run)
    (hrest : Stops separator rest) :
    readMembers separator (runs.flatMap (separator ++ ·) ++ rest)
      = runs.flatMap (separator ++ ·) := by
  induction runs with
  | nil => exact readMembers_of_none (readMember?_eq_none_iff.mpr hrest.member)
  | cons run runs ih =>
    have hall := List.forall_mem_cons.mp hruns
    have hnext := head?_members hseparator hrest.head runs
    rw [List.flatMap_cons, List.append_assoc,
      readMembers_of_some (readMember?_of_isRun hall.1 hnext), ih hall.2]

theorem reach_of_stops (hseparator : IsSeparator separator) (hrun : ∀ c ∈ run, isIdent c = true)
    (hruns : ∀ run ∈ runs, IsRun run) (hrest : Stops separator rest) :
    reach separator (run ++ runs.flatMap (separator ++ ·) ++ rest)
      = run ++ runs.flatMap (separator ++ ·) := by
  obtain ⟨htake, hdrop⟩ := span_run hrun (head?_members hseparator hrest.head runs)
  rw [List.append_assoc, reach, htake, hdrop, readMembers_eq hseparator hruns hrest]

/-- What is read is a row of members, and nothing behind it goes on with it. -/
theorem exists_readMembers (separator : Line) {text : Line}
    (htext : ∀ c ∈ text.head?, isIdent c = false) :
    ∃ (runs : List Line) (rest : Line), (∀ run ∈ runs, IsRun run)
      ∧ text = runs.flatMap (separator ++ ·) ++ rest ∧ Stops separator rest := by
  induction text using readMembers.induct separator with
  | case1 text hnone =>
    exact ⟨[], text, by simp, rfl, htext, readMember?_eq_none_iff.mp hnone⟩
  | case2 text taken rest hread ih =>
    obtain ⟨run, hrun, -, rfl, hrest⟩ := exists_of_readMember? hread
    obtain ⟨runs, last, hruns, rfl, hlast⟩ := ih hrest
    refine ⟨run :: runs, last, List.forall_mem_cons.mpr ⟨hrun, hruns⟩, ?_, hlast⟩
    rw [List.flatMap_cons]
    simp

/-- Every text begins with a row of identifiers that nothing behind it goes on with; the first of
    them may be empty. -/
theorem exists_members (separator text : Line) :
    ∃ (run : Line) (runs : List Line) (rest : Line),
      text = run ++ runs.flatMap (separator ++ ·) ++ rest
      ∧ (∀ c ∈ run, isIdent c = true) ∧ (∀ run ∈ runs, IsRun run) ∧ Stops separator rest := by
  obtain ⟨runs, rest, hruns, hdrop, hrest⟩ :=
    exists_readMembers separator (head?_dropWhile_isIdent text)
  refine ⟨text.takeWhile isIdent, runs, rest, ?_, fun c => List.mem_takeWhile_imp, hruns, hrest⟩
  rw [List.append_assoc, ← hdrop, List.takeWhile_append_dropWhile]

end Forward

/-! ### Reading backwards -/

section Backward

variable {separator : Line}

theorem stops_reverse_iff {before : Line} : Stops separator.reverse before.reverse
    ↔ (∀ c ∈ before.getLast?, isIdent c = false)
      ∧ ∀ front c, isIdent c = true → before ≠ front ++ c :: separator := by
  constructor
  · refine fun h => ⟨by simpa using h.head, fun front c hc heq => h.member c front.reverse hc ?_⟩
    rw [heq]
    simp
  · refine fun h => ⟨by simpa using h.1, fun c rest hc heq => h.2 rest.reverse c hc ?_⟩
    rw [← List.reverse_inj, heq]
    simp

/-- Identifiers with a separator behind each, read backwards. -/
theorem reverse_flatMap (runs : List Line) : (runs.flatMap (· ++ separator)).reverse
    = (runs.reverse.map List.reverse).flatMap (separator.reverse ++ ·) := by
  rw [List.reverse_flatMap, List.flatMap_map]
  congr 1
  funext run
  simp

theorem isRun_reverse {runs : List Line} (h : ∀ run ∈ runs, IsRun run) :
    ∀ run ∈ runs.reverse.map List.reverse, IsRun run := by
  intro run hrun
  obtain ⟨other, hother, rfl⟩ := List.mem_map.mp hrun
  exact (h other (List.mem_reverse.mp hother)).reverse

/-- Every text ends in a row of identifiers that nothing before it goes on with; the last of them
    may be empty. -/
theorem exists_members_reverse (separator text : Line) :
    ∃ (before : Line) (runs : List Line) (run : Line),
      text = before ++ runs.flatMap (· ++ separator) ++ run
      ∧ (∀ c ∈ run, isIdent c = true) ∧ (∀ run ∈ runs, IsRun run)
      ∧ Stops separator.reverse before.reverse := by
  obtain ⟨run, runs, rest, htext, hrun, hruns, hrest⟩ :=
    exists_members separator.reverse text.reverse
  refine ⟨rest.reverse, runs.reverse.map List.reverse, run.reverse, ?_, by simpa using hrun,
    isRun_reverse hruns, by rwa [List.reverse_reverse]⟩
  rw [← List.reverse_inj, htext, List.reverse_append, List.reverse_append, reverse_flatMap]
  simp

end Backward

/-! ### Reading in both directions -/

/-- Whether an identifier character stands next to a cut. -/
def Touches (left right : Line) : Prop :=
  (∃ c ∈ left.getLast?, isIdent c = true) ∨ ∃ c ∈ right.head?, isIdent c = true

section Cut

variable {left right separator : Line} {number : Nat}

theorem touches_iff : (left.reverse.head?.any isIdent || right.head?.any isIdent) = true
    ↔ Touches left right := by
  rw [Bool.or_eq_true, Option.any_eq_true, Option.any_eq_true, List.head?_reverse, Touches]
  rfl

/-- A cut through a run touches it. -/
theorem touches_of_isRun {a b : Line} (h : IsRun (a ++ b)) (left right : Line) :
    Touches (left ++ a) (b ++ right) := by
  cases b with
  | nil =>
    rw [List.append_nil] at h
    obtain ⟨most, c, rfl⟩ := (List.eq_nil_or_concat a).resolve_left h.1
    refine .inl ⟨c, ?_, h.2 c (by simp)⟩
    rw [List.concat_eq_append, ← List.append_assoc]
    exact List.getLast?_concat
  | cons c b => exact .inr ⟨c, rfl, h.2 c (by simp)⟩

/-- A cut through a separator touches nothing. -/
theorem not_touches_of_isSeparator {a b : Line} (h : IsSeparator (a ++ b)) (ha : a ≠ [])
    (hb : b ≠ []) (left right : Line) : ¬ Touches (left ++ a) (b ++ right) := by
  rintro (⟨c, hc, hident⟩ | ⟨c, hc, hident⟩)
  · rw [List.getLast?_append_of_ne_nil left ha] at hc
    have hnot := h.not_ident c (List.mem_append_left b (List.mem_of_getLast? hc))
    exact absurd hident (by simp [hnot])
  · rw [List.head?_append_of_ne_nil b hb] at hc
    have hnot := h.not_ident c (List.mem_append_right a (List.mem_of_head? hc))
    exact absurd hident (by simp [hnot])

/-- A cut that touches something goes through an identifier or lies at its end. -/
theorem ne_nil_of_touches {before a b after : Line} {front back : List Line}
    (hseparator : IsSeparator separator) (hbefore : Stops separator.reverse before.reverse)
    (hafter : Stops separator after)
    (h : Touches (before ++ front.flatMap (· ++ separator) ++ a)
      (b ++ back.flatMap (separator ++ ·) ++ after)) : a ++ b ≠ [] := by
  intro hnil
  obtain ⟨rfl, rfl⟩ := List.append_eq_nil_iff.mp hnil
  rcases h with ⟨c, hc, hident⟩ | ⟨c, hc, hident⟩
  · rw [List.append_nil, ← List.head?_reverse, List.reverse_append, reverse_flatMap] at hc
    have hnot := head?_members hseparator.reverse hbefore.head _ c hc
    exact absurd hident (by simp [hnot])
  · have hnot := head?_members hseparator hafter.head back c hc
    exact absurd hident (by simp [hnot])

/-- Where nothing is touched, there is no token. -/
theorem inLine?_eq_none (h : ¬ Touches left right) :
    inLine? number (left ++ right) (size left) separator = none := by
  rw [inLine?, splitAtOffset_size]
  exact if_neg (touches_iff.not.mpr h)

theorem touches_of_inLine? {token : Token}
    (h : inLine? number (left ++ right) (size left) separator = some token) :
    Touches left right := by
  by_contra hnot
  rw [inLine?_eq_none hnot] at h
  cases h

/-- Where something is touched, the token is what is read on both sides. -/
theorem inLine?_of_touches {before back forth rest : Line} (number : Nat)
    (h : Touches (before ++ back) (forth ++ rest))
    (hback : reach separator.reverse (before ++ back).reverse = back.reverse)
    (hforth : reach separator (forth ++ rest) = forth) :
    inLine? number (before ++ (back ++ forth) ++ rest) (size (before ++ back)) separator
      = some ⟨back ++ forth,
        ⟨⟨number, width before⟩, ⟨number, width (before ++ (back ++ forth))⟩⟩,
        rest.head? == some '('⟩ := by
  have hstart : size (before ++ back) - size back = size before := by
    rw [size_append]
    omega
  have hstop : size (before ++ back) + size forth = size (before ++ (back ++ forth)) := by
    simp only [size_append]
    omega
  have hfirst : columnAt (before ++ (back ++ forth) ++ rest) (size before) = width before := by
    rw [List.append_assoc]
    exact columnAt_size before _
  have hsplit : splitAtOffset (before ++ (back ++ forth) ++ rest) (size (before ++ back))
      = (before ++ back, forth ++ rest) := by
    rw [← List.append_assoc before, List.append_assoc]
    exact splitAtOffset_size _ _
  rw [inLine?, hsplit]
  dsimp only
  rw [if_pos (touches_iff.mpr h), hback, hforth, List.reverse_reverse, hstart, hstop, hfirst,
    columnAt_size, List.drop_left]

end Cut

/-! ### Rows in a line -/

/-- A row of identifiers in a line.  It has at least one, a separator stands between two of them,
    and it cannot be made longer on either side: there is no identifier character next to it, and no
    separator with one on its other side. -/
structure Row (separator : Line) where
  before : Line
  runs : List Line
  after : Line
  ne_nil : runs ≠ []
  isRun : ∀ run ∈ runs, IsRun run
  last_before : ∀ c ∈ before.getLast?, isIdent c = false
  no_member_before : ∀ front c, isIdent c = true → before ≠ front ++ c :: separator
  head_after : ∀ c ∈ after.head?, isIdent c = false
  no_member_after : ∀ c rest, isIdent c = true → after ≠ separator ++ c :: rest

namespace Row

variable {separator : Line} (row : Row separator)

/-- The identifiers with their separators. -/
def text : Line := separator.intercalate row.runs

/-- The line that the row stands in. -/
def line : Line := row.before ++ row.text ++ row.after

/-- The row as the token of a line with a number. -/
def token (number : Nat) : Token where
  text := row.text
  range := ⟨⟨number, width row.before⟩, ⟨number, width (row.before ++ row.text)⟩⟩
  isCall := row.after.head? == some '('

variable {row} {front back : List Line} {a b : Line}

theorem stops_after (row : Row separator) : Stops separator row.after :=
  ⟨row.head_after, row.no_member_after⟩

theorem stops_before (row : Row separator) : Stops separator.reverse row.before.reverse :=
  stops_reverse_iff.mpr ⟨row.last_before, row.no_member_before⟩

theorem text_eq (hruns : row.runs = front ++ (a ++ b) :: back) :
    row.text = (front.flatMap (· ++ separator) ++ a) ++ (b ++ back.flatMap (separator ++ ·)) := by
  rw [text, hruns, intercalate_around]
  simp

/-- **A row is found from everywhere in its identifiers,** and at their ends. -/
theorem inLine?_of_run (hseparator : IsSeparator separator)
    (hruns : row.runs = front ++ (a ++ b) :: back) (number : Nat) :
    inLine? number row.line (size (row.before ++ front.flatMap (· ++ separator) ++ a)) separator
      = some (row.token number) := by
  have hall : ∀ run ∈ front ++ (a ++ b) :: back, IsRun run := hruns ▸ row.isRun
  -- the cut leaves `a` of one identifier before it and `b` behind it, and one of them is not empty
  have hcut : IsRun (a ++ b) := hall (a ++ b) (by simp)
  have hleft : reach separator.reverse (row.before ++ front.flatMap (· ++ separator) ++ a).reverse
      = (front.flatMap (· ++ separator) ++ a).reverse := by
    have hfront := isRun_reverse fun run hrun => hall run (List.mem_append_left _ hrun)
    have ha : ∀ c ∈ a.reverse, isIdent c = true := fun c hc =>
      hcut.2 c (List.mem_append_left b (List.mem_reverse.mp hc))
    -- backwards, this is a row again: the identifiers turned round, and their separators with them
    have hreach := reach_of_stops hseparator.reverse ha hfront row.stops_before
    rw [← reverse_flatMap] at hreach
    simpa using hreach
  have hright : reach separator (b ++ back.flatMap (separator ++ ·) ++ row.after)
      = b ++ back.flatMap (separator ++ ·) :=
    reach_of_stops hseparator (fun c hc => hcut.2 c (List.mem_append_right a hc))
      (fun run hrun => hall run (by simp [hrun])) row.stops_after
  have htouches := touches_of_isRun hcut (row.before ++ front.flatMap (· ++ separator))
    (back.flatMap (separator ++ ·) ++ row.after)
  rw [List.append_assoc] at hleft ⊢
  rw [List.append_assoc, ← List.append_assoc b] at htouches
  rw [token, line, text_eq hruns]
  exact inLine?_of_touches number htouches hleft hright

/-- Whether a column lies strictly inside a separator of the row. -/
def Within (row : Row separator) (column : Nat) : Prop :=
  ∃ front back, front ≠ [] ∧ back ≠ [] ∧ row.runs = front ++ back
    ∧ width (row.before ++ separator.intercalate front) < column
    ∧ column < width (row.before ++ separator.intercalate front ++ separator)

/-- Whether a column cuts a separator of the row in two.  A column in the middle of a character
    counts as the one behind it, so none in the middle of the separator's last character does. -/
def Splits (row : Row separator) (column : Nat) : Prop :=
  ∃ front back, front ≠ [] ∧ back ≠ [] ∧ row.runs = front ++ back
    ∧ width (row.before ++ separator.intercalate front) < column
    ∧ column ≤ width (row.before ++ separator.intercalate front ++ separator.dropLast)

/-- Where the separator ends in a character of one code unit, the columns strictly inside it are
    those that cut it in two. -/
theorem splits_iff_within (hne : separator ≠ []) (hlast : ∀ c ∈ separator.getLast?, units c = 1)
    (column : Nat) : row.Splits column ↔ row.Within column := by
  have hwidth := width_eq_add_one hne hlast
  simp only [Splits, Within, width_append, hwidth, ← Nat.add_assoc, Nat.lt_add_one_iff]

theorem line_eq (hfront : front ≠ []) (hback : back ≠ []) (hruns : row.runs = front ++ back) :
    row.line = row.before ++ separator.intercalate front ++ separator
      ++ (separator.intercalate back ++ row.after) := by
  rw [line, text, hruns, intercalate_append hfront hback]
  simp

/-- A column that cuts a separator in two finds nothing. -/
theorem inLine?_of_splits (hseparator : IsSeparator separator) {column : Nat}
    (h : row.Splits column) (number : Nat) :
    inLine? number row.line (offsetAt row.line column) separator = none := by
  obtain ⟨front, back, hfront, hback, hruns, hlow, hhigh⟩ := h
  obtain ⟨ahead, rfl⟩ := Nat.exists_eq_add_of_lt hlow
  rw [Nat.add_assoc] at hhigh ⊢
  rw [width_append _ separator.dropLast, Nat.add_le_add_iff_left] at hhigh
  -- the column cuts the separator alone, and not at its ends
  have hle : ahead + 1 ≤ width separator :=
    Nat.le_trans hhigh (width_le_width (List.dropLast_prefix separator))
  obtain ⟨a, b, hcut, hoffset, hreach⟩ := exists_offsetAt_shortest hle
  have ha : a ≠ [] := by
    rintro rfl
    exact absurd ((hreach [] List.nil_prefix).mpr List.nil_prefix) (by simp [width])
  have hb : b ≠ [] := by
    obtain ⟨rest, hrest, heq⟩ := (prefix_dropLast_iff hseparator.ne_nil).mp
      ((hreach _ (List.dropLast_prefix separator)).mp hhigh)
    rwa [List.append_cancel_left (hcut.symm.trans heq)]
  rw [line_eq hfront hback hruns, offsetAt_around hle, hoffset, ← size_append]
  generalize row.before ++ separator.intercalate front = left
  generalize separator.intercalate back ++ row.after = right
  have hline : left ++ separator ++ right = (left ++ a) ++ (b ++ right) := by
    rw [hcut]
    simp
  rw [hline]
  exact inLine?_eq_none (not_touches_of_isSeparator (hcut ▸ hseparator) ha hb left right)

/-- Every other column from the row's beginning to its end finds the row. -/
theorem inLine?_of_not_splits (hseparator : IsSeparator separator) {column : Nat}
    (hfirst : width row.before ≤ column) (hlast : column ≤ width (row.before ++ row.text))
    (h : ¬ row.Splits column) (number : Nat) :
    inLine? number row.line (offsetAt row.line column) separator = some (row.token number) := by
  obtain ⟨ahead, rfl⟩ := Nat.exists_eq_add_of_le hfirst
  have hle : ahead ≤ width row.text := by
    rwa [width_append, Nat.add_le_add_iff_left] at hlast
  obtain ⟨left, right, hcut, hoffset, hreach⟩ := exists_offsetAt_shortest hle
  rw [line, offsetAt_around hle, hoffset, ← size_append, ← line]
  rcases cut_intercalate row.ne_nil hcut with
    ⟨front, a, b, back, hruns, rfl⟩ | ⟨front, back, a, b, hfront, hback, hruns, ha, hb, hab, rfl⟩
  · rw [← List.append_assoc]
    exact inLine?_of_run hseparator hruns number
  · -- the cut goes through a separator, so the column splits it
    refine absurd ⟨front, back, hfront, hback, hruns, ?_, ?_⟩ h
    · have hshort : ¬ separator.intercalate front ++ a <+: separator.intercalate front := by
        intro hstart
        have hlength := hstart.length_le
        have hpos := List.length_pos_of_ne_nil ha
        rw [List.length_append] at hlength
        omega
      have hbeyond := (hreach _ ⟨a ++ right, by rw [← List.append_assoc, ← hcut]⟩).not.mpr hshort
      rw [width_append]
      omega
    · have hreached := (hreach _ ⟨right, hcut.symm⟩).mpr List.prefix_rfl
      have hmost := width_le_width ((prefix_dropLast_iff hseparator.ne_nil).mpr ⟨b, hb, hab⟩)
      simp only [width_append] at hreached ⊢
      omega

end Row

/-- A token that is found is a row of the line. -/
theorem exists_row_of_inLine? {left right separator : Line} (hseparator : IsSeparator separator)
    {number : Nat} {token : Token}
    (h : inLine? number (left ++ right) (size left) separator = some token) :
    ∃ row : Row separator, row.line = left ++ right ∧ token = row.token number := by
  have htouches := touches_of_inLine? h
  obtain ⟨before, front, a, rfl, ha, hfront, hbefore⟩ := exists_members_reverse separator left
  obtain ⟨b, back, after, rfl, hb, hback, hafter⟩ := exists_members separator right
  -- what is read on the two sides of the cut is put together to one row
  have hcut : IsRun (a ++ b) :=
    ⟨ne_nil_of_touches hseparator hbefore hafter htouches, List.forall_mem_append.mpr ⟨ha, hb⟩⟩
  obtain ⟨hlast, hmember⟩ := stops_reverse_iff.mp hbefore
  have hall : ∀ run ∈ front ++ (a ++ b) :: back, IsRun run :=
    List.forall_mem_append.mpr ⟨hfront, List.forall_mem_cons.mpr ⟨hcut, hback⟩⟩
  let row : Row separator := ⟨before, front ++ (a ++ b) :: back, after, by simp, hall, hlast,
    hmember, hafter.head, hafter.member⟩
  have hline : row.line = before ++ front.flatMap (· ++ separator) ++ a
      ++ (b ++ back.flatMap (separator ++ ·) ++ after) := by
    rw [Row.line, Row.text_eq rfl]
    simp [row]
  have hfound := row.inLine?_of_run hseparator rfl number
  rw [hline] at hfound
  exact ⟨row, hline, Option.some.inj (h.symm.trans hfound)⟩

/-- **The token does not depend on where in it the cursor is:** it is a row of identifiers that
    cannot be made longer, and every column from its beginning to its end finds it, save the columns
    that cut one of its separators in two, which find nothing.  Those are all columns strictly
    inside a separator when its last character is a single code unit. -/
theorem token_same_at_every_column {lines : List Line} {point : Position} {separator : Line}
    (hseparator : IsSeparator separator) {token : Token}
    (h : at? lines point separator = some token) :
    ∃ row : Row separator, lines[point.line]? = some row.line ∧ token = row.token point.line
      ∧ (∀ column, token.range.first.column ≤ column → column ≤ token.range.last.column →
        (row.Splits column → at? lines ⟨point.line, column⟩ separator = none)
        ∧ (¬ row.Splits column → at? lines ⟨point.line, column⟩ separator = some token))
      ∧ ((∀ c ∈ separator.getLast?, units c = 1) →
        ∀ column, row.Splits column ↔ row.Within column) := by
  obtain ⟨line, hline, hfound⟩ := Option.bind_eq_some_iff.mp h
  obtain ⟨left, right, rfl, hoffset⟩ := exists_offsetAt_eq line point.column
  rw [hoffset] at hfound
  obtain ⟨row, hrow, rfl⟩ := exists_row_of_inLine? hseparator hfound
  rw [← hrow] at hline
  have hat : ∀ column, at? lines ⟨point.line, column⟩ separator
      = inLine? point.line row.line (offsetAt row.line column) separator := by
    intro column
    rw [at?, hline]
    rfl
  refine ⟨row, hline, rfl, fun column hfirst hlast => ?_, row.splits_iff_within hseparator.ne_nil⟩
  rw [hat column]
  exact ⟨fun hsplits => row.inLine?_of_splits hseparator hsplits point.line,
    fun hsplits => row.inLine?_of_not_splits hseparator hfirst hlast hsplits point.line⟩

/-- The name of the function that is called in `x = util::load(1)`. -/
def calledName : Token := ⟨"util::load".toList, ⟨⟨0, 4⟩, ⟨0, 14⟩⟩, true⟩

/-- The name in a call is found from its module and from its member alike. -/
theorem called_name_same_at_every_column :
    at? (splitLines "x = util::load(1)") ⟨0, 6⟩ [':', ':'] = some calledName
      ∧ ∃ row : Row [':', ':'], (splitLines "x = util::load(1)")[0]? = some row.line
        ∧ calledName = row.token 0
        ∧ (∀ column, 4 ≤ column → column ≤ 14 →
          (row.Within column →
            at? (splitLines "x = util::load(1)") ⟨0, column⟩ [':', ':'] = none)
          ∧ (¬ row.Within column →
            at? (splitLines "x = util::load(1)") ⟨0, column⟩ [':', ':'] = some calledName)) := by
  have hfound : at? (splitLines "x = util::load(1)") ⟨0, 6⟩ [':', ':'] = some calledName := by
    decide +kernel
  have hcolon : isIdent ':' = false := by decide +kernel
  obtain ⟨row, hline, htoken, hcolumns, hwithin⟩ :=
    token_same_at_every_column ⟨by simp, by simp [hcolon]⟩ hfound
  refine ⟨hfound, row, hline, htoken, fun column hfirst hlast => ?_⟩
  rw [← hwithin (by simp [units]) column]
  exact hcolumns column hfirst hlast

/-- Two names with a character outside the basic plane between them. -/
def wideRow : Row ['😀'] where
  before := []
  runs := [['a'], ['b']]
  after := []
  ne_nil := by simp
  isRun := List.forall_mem_cons.mpr
    ⟨⟨by simp, List.forall_mem_singleton.mpr (by decide +kernel)⟩,
      List.forall_mem_singleton.mpr ⟨by simp, List.forall_mem_singleton.mpr (by decide +kernel)⟩⟩
  last_before := by simp
  no_member_before := by simp
  head_after := by simp
  no_member_after := by simp

/-- **A column strictly inside a separator may find the token nevertheless:** in the middle of a
    character it counts as the column behind it, where the next name begins. -/
theorem wide_separator_not_split :
    wideRow.line = "a😀b".toList ∧ wideRow.Within 2
      ∧ at? (splitLines "a😀b") ⟨0, 2⟩ ['😀'] = some (wideRow.token 0) :=
  ⟨rfl, ⟨[['a']], [['b']], by decide +kernel⟩, by decide +kernel⟩

end Token

end ScriptServer

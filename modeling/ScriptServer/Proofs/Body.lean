import ScriptServer.Proofs.Block
import ScriptServer.Proofs.Declaration

namespace ScriptServer

/-!
# Bodies are blocks

The body of a function is found by counting braces from its first one on, without the stack that
finds blocks.  Both find the same partner.

* `matchingClose?_eq_some` — counting finds a brace with a balanced word before it.
* `matchingClose?_append_of_balanced` — a balanced word does not change what counting finds.
* `Declaration.Cursor.IsIn` — a cursor stands in the code that it was made from.
* `Declaration.matched_of_readHeader` — the braces of a body are matched.
-/

open Text

/-! ### Counting braces -/

/-- A block without contents can be put anywhere into a balanced word. -/
theorem Balanced.insert {a b : List Bool} (h : Balanced (a ++ b)) :
    Balanced (a ++ true :: false :: b) := by
  generalize hword : a ++ b = word at h
  induction h generalizing a b with
  | nil =>
    obtain ⟨rfl, rfl⟩ := List.append_eq_nil_iff.mp hword
    exact .block .nil .nil
  | @block inner rest hinner hrest ihinner ihrest =>
    cases a with
    | nil =>
      rw [List.nil_append] at hword
      rw [hword]
      exact .block .nil (.block hinner hrest)
    | cons first a =>
      obtain ⟨rfl, hsplit⟩ : first = true ∧ a ++ b = inner ++ false :: rest := by
        simpa using hword
      rcases List.append_eq_append_iff.mp hsplit with ⟨gap, hgap, hb⟩ | ⟨gap, hgap, hb⟩
      · -- inside the first block
        have hblock := Balanced.block (ihinner hgap.symm) hrest
        rw [hb]
        simpa using hblock
      · cases gap with
        | nil =>
          -- right before the brace that closes the first block
          have hblock := Balanced.block (ihinner (a := inner) (b := []) (by simp)) hrest
          rw [hgap, ← List.nil_append b, ← hb]
          simpa using hblock
        | cons second gap =>
          -- behind the first block
          obtain ⟨rfl, hafter⟩ : false = second ∧ rest = gap ++ b := by simpa using hb
          have hblock := Balanced.block hinner (ihrest hafter.symm)
          rw [hgap]
          simpa using hblock

section Steps

variable {brace : Brace} {rest : List Brace}

theorem matchingClose?_opens (depth : Nat) (h : brace.opens = true) :
    matchingClose? depth (brace :: rest) = matchingClose? (depth + 1) rest := by
  cases depth <;> simp [matchingClose?, h]

theorem matchingClose?_closes (depth : Nat) (h : brace.opens = false) :
    matchingClose? (depth + 1) (brace :: rest) = matchingClose? depth rest := by
  simp [matchingClose?, h]

theorem matchingClose?_found (h : brace.opens = false) :
    matchingClose? 0 (brace :: rest) = some brace.spot := by
  simp [matchingClose?, h]

end Steps

/-- **Counting finds the partner.**  With `depth` blocks open, the brace that is found has a word
    before it that closes all of them and is balanced otherwise. -/
theorem matchingClose?_eq_some {depth : Nat} {braces : List Brace} {closes : Spot}
    (h : matchingClose? depth braces = some closes) :
    ∃ between after, braces = between ++ ⟨false, closes⟩ :: after
      ∧ Balanced (List.replicate depth true ++ between.map (·.opens)) := by
  induction braces generalizing depth with
  | nil => cases h
  | cons brace rest ih =>
    obtain ⟨isOpening, spot⟩ := brace
    cases isOpening with
    | true =>
      rw [matchingClose?_opens depth rfl] at h
      obtain ⟨between, after, rfl, hbalanced⟩ := ih h
      refine ⟨⟨true, spot⟩ :: between, after, rfl, ?_⟩
      rw [List.replicate_succ', List.append_assoc] at hbalanced
      simpa using hbalanced
    | false =>
      cases depth with
      | zero =>
        rw [matchingClose?_found rfl] at h
        cases h
        exact ⟨[], rest, rfl, .nil⟩
      | succ inner =>
        rw [matchingClose?_closes inner rfl] at h
        obtain ⟨between, after, rfl, hbalanced⟩ := ih h
        refine ⟨⟨false, spot⟩ :: between, after, rfl, ?_⟩
        -- the brace closes the latest of the open blocks
        have hinsert := hbalanced.insert
        rw [List.replicate_succ', List.append_assoc]
        simpa using hinsert

/-- A balanced word does not change what counting finds. -/
theorem matchingClose?_append_of_balanced {word : List Bool} (hword : Balanced word) :
    ∀ (braces rest : List Brace) (depth : Nat), braces.map (·.opens) = word →
      matchingClose? depth (braces ++ rest) = matchingClose? depth rest := by
  induction hword with
  | nil =>
    intro braces rest depth hbraces
    rw [List.map_eq_nil_iff.mp hbraces, List.nil_append]
  | @block inner outer _ _ ihinner ihouter =>
    intro braces rest depth hbraces
    obtain ⟨head, tail, rfl, htail, hlast⟩ := List.map_eq_append_iff.mp hbraces
    obtain ⟨first, head, rfl, hfirst, hhead⟩ := List.map_eq_cons_iff.mp htail
    obtain ⟨last, tail, rfl, hlast, htail⟩ := List.map_eq_cons_iff.mp hlast
    have hopen : matchingClose? depth (first :: head ++ last :: tail ++ rest)
        = matchingClose? (depth + 1) (head ++ (last :: tail ++ rest)) := by
      rw [List.append_assoc, List.cons_append, matchingClose?_opens depth hfirst]
    have hclose : matchingClose? (depth + 1) (last :: tail ++ rest)
        = matchingClose? depth (tail ++ rest) := by
      rw [List.cons_append, matchingClose?_closes depth hlast]
    rw [hopen, ihinner head _ _ hhead, hclose, ihouter tail rest depth htail]

/-! ### Cursors in code -/

theorem bracesInLine_append (number offset : Nat) (a b : Line) :
    bracesInLine number offset (a ++ b)
      = bracesInLine number offset a ++ bracesInLine number (offset + size a) b := by
  induction a generalizing offset with
  | nil => simp [bracesInLine, size]
  | cons c rest ih =>
    rw [List.cons_append, bracesInLine, bracesInLine, ih, size, Nat.add_assoc]
    by_cases hopen : c = '{'
    · simp [hopen]
    · by_cases hclose : c = '}'
      · simp [hclose]
      · simp [hopen, hclose]

theorem braces_append (number : Nat) (a b : List Line) :
    braces number (a ++ b) = braces number a ++ braces (number + a.length) b := by
  induction a generalizing number with
  | nil => rfl
  | cons line rest ih =>
    rw [List.cons_append, braces, braces, ih, List.append_assoc, List.length_cons,
      Nat.add_comm rest.length 1, ← Nat.add_assoc]

namespace Declaration

namespace Cursor

/-- A cursor stands in the code: what follows it follows there, and line and offset count what
    comes before. -/
def IsIn (cursor : Cursor) (code : List Line) : Prop :=
  ∃ above before, code = above ++ (before ++ cursor.here) :: cursor.below
    ∧ above.length = cursor.line ∧ size before = cursor.offset

/-- The braces after a cursor are the last ones of the code. -/
theorem IsIn.exists_braces {cursor : Cursor} {code : List Line} (h : cursor.IsIn code) :
    ∃ earlier, ScriptServer.braces 0 code = earlier ++ cursor.braces := by
  obtain ⟨above, before, rfl, hline, hoffset⟩ := h
  refine ⟨ScriptServer.braces 0 above ++ bracesInLine cursor.line 0 before, ?_⟩
  rw [braces_append, Nat.zero_add, hline, ScriptServer.braces, bracesInLine_append, Nat.zero_add,
    hoffset, Cursor.braces]
  simp only [List.append_assoc]

/-- A cursor further on the same line. -/
theorem IsIn.forward {line offset : Nat} {skipped here : Line} {below code : List Line}
    (h : IsIn ⟨line, offset, skipped ++ here, below⟩ code) :
    IsIn ⟨line, offset + size skipped, here, below⟩ code := by
  obtain ⟨above, before, rfl, hline, hoffset⟩ := h
  refine ⟨above, before ++ skipped, by simp, hline, ?_⟩
  rw [size_append, hoffset]

/-- A cursor at the beginning of the next line. -/
theorem IsIn.nextLine {line offset : Nat} {here next : Line} {below code : List Line}
    (h : IsIn ⟨line, offset, here, next :: below⟩ code) : IsIn ⟨line + 1, 0, next, below⟩ code := by
  obtain ⟨above, before, rfl, hline, -⟩ := h
  refine ⟨above ++ [before ++ here], [], by simp, ?_, rfl⟩
  rw [List.length_append, hline]
  rfl

end Cursor

/-- The parenthesis that closes a list stands between what is inside and what comes after. -/
theorem eq_append_of_scanParens {depth : Nat} {line inside after : Line}
    (h : scanParens depth line = .closed inside after) : line = inside ++ ')' :: after := by
  -- the scan of a longer line is the scan of the rest with one more character in front
  have hcons : ∀ {c scan inside after}, ParenScan.cons c scan = .closed inside after →
      ∃ rest, inside = c :: rest ∧ scan = .closed rest after := by
    intro c scan inside after hscan
    cases scan with
    | closed rest later =>
      cases hscan
      exact ⟨rest, rfl, rfl⟩
    | broken => cases hscan
    | unclosed => cases hscan
  fun_induction scanParens depth line generalizing inside with
  | case1 => cases h
  | case2 depth rest ih =>
    obtain ⟨inner, rfl, hrest⟩ := hcons h
    rw [ih hrest, List.cons_append]
  | case3 rest =>
    cases h
    rfl
  | case4 depth rest ih =>
    obtain ⟨inner, rfl, hrest⟩ := hcons h
    rw [ih hrest, List.cons_append]
  | case5 => cases h
  | case6 depth c rest _ _ _ _ ih =>
    obtain ⟨inner, rfl, hrest⟩ := hcons h
    rw [ih hrest, List.cons_append]

/-- How a parameter list is read: it is closed on a line, or goes on behind the blanks of the
    next. -/
inductive ReadsList : Nat → Line → Nat → Nat → Line → List Line → ParameterList → Prop where
  | closed {depth line offset : Nat} {captured here inside after : Line} {below : List Line}
      (hscan : scanParens depth here = .closed inside after) :
      ReadsList depth captured line offset here below
        (.ending captured line offset inside after below)
  | next {depth depth' line offset : Nat} {captured here next : Line} {below : List Line}
      {list : ParameterList} (hscan : scanParens depth here = .unclosed depth')
      (h : ReadsList depth' (capture captured here) (line + 1) (size (next.takeWhile isBlank))
        (trimStart next) below list) :
      ReadsList depth captured line offset here (next :: below) (list.prepend ⟨line, offset, here⟩)

theorem readsList_of_readParameters {below : List Line} {depth line offset : Nat}
    {captured here : Line} {list : ParameterList}
    (h : readParameters depth captured line offset here below = .ok list) :
    ReadsList depth captured line offset here below list := by
  induction below generalizing depth line offset captured here list with
  | nil =>
    unfold readParameters at h
    split at h
    next inside after hscan =>
      cases h
      exact .closed hscan
    next => cases h
    next => cases h
  | cons next below ih =>
    unfold readParameters at h
    split at h
    next inside after hscan =>
      cases h
      exact .closed hscan
    next => cases h
    next depth' hscan =>
      cases hrest : readParameters depth' (capture captured here) (line + 1)
          (size (next.takeWhile isBlank)) (trimStart next) below with
      | error => rw [hrest] at h; cases h
      | ok later =>
        rw [hrest] at h
        cases h
        exact .next hscan (ih hrest)

/-- Reading parameters leads from a place in the code to a later one. -/
theorem isIn_of_readParameters {code below : List Line} {depth line offset : Nat}
    {captured here : Line} {list : ParameterList}
    (hstart : Cursor.IsIn ⟨line, offset, here, below⟩ code)
    (h : readParameters depth captured line offset here below = .ok list) :
    list.cursor.IsIn code := by
  replace h := readsList_of_readParameters h
  induction h with
  | @closed depth line offset captured here inside after below hscan =>
    have hforward : Cursor.IsIn ⟨line, offset, (inside ++ [')']) ++ after, below⟩ code := by
      simpa [eq_append_of_scanParens hscan] using hstart
    have hnext := hforward.forward
    rw [size_append, ← Nat.add_assoc] at hnext
    exact hnext
  | @next depth depth' line offset captured here next below list hscan hrest ih =>
    -- the list goes on behind the blanks of the next line
    have hblanks : Cursor.IsIn ⟨line + 1, 0, next.takeWhile isBlank ++ trimStart next, below⟩
        code := by
      rw [takeWhile_append_trimStart]
      exact hstart.nextLine
    have hforward := hblanks.forward
    rw [Nat.zero_add] at hforward
    exact ih hforward

theorem isIn_of_braceInLine? {code below : List Line} {line offset : Nat} {here : Line}
    {cursor : Cursor} (hstart : Cursor.IsIn ⟨line, offset, here, below⟩ code)
    (h : braceInLine? line offset here below = some cursor) :
    cursor.IsIn code ∧ ∃ rest, cursor.here = '{' :: rest := by
  unfold braceInLine? at h
  cases hrest : here.dropWhile (· != '{') with
  | nil => rw [hrest] at h; cases h
  | cons c rest =>
    rw [hrest] at h
    cases h
    have hc : c = '{' := by
      have hhead := List.head?_dropWhile_not (· != '{') here
      rw [hrest] at hhead
      simpa using hhead
    refine ⟨?_, rest, by rw [hc]⟩
    have hsplit := List.takeWhile_append_dropWhile (p := (· != '{')) (l := here)
    rw [hrest] at hsplit
    rw [← hsplit] at hstart
    exact hstart.forward

/-- Looking for a body leads to an opening brace of the code. -/
theorem isIn_of_findBody {code below : List Line} {line offset : Nat} {here : Line}
    {body : Cursor} (hstart : Cursor.IsIn ⟨line, offset, here, below⟩ code)
    (h : findBody line offset here below = .ok body) :
    body.IsIn code ∧ ∃ rest, body.here = '{' :: rest := by
  induction below generalizing line offset here with
  | nil =>
    unfold findBody at h
    split at h
    next cursor hbrace =>
      cases h
      exact isIn_of_braceInLine? hstart hbrace
    next => cases h
  | cons next below ih =>
    unfold findBody at h
    split at h
    next cursor hbrace =>
      cases h
      exact isIn_of_braceInLine? hstart hbrace
    next =>
      split at h
      · cases h
      · exact ih hstart.nextLine h

/-! ### The braces of a body -/

/-- A brace that counting finds from a cursor on is matched with the brace at the cursor. -/
theorem Cursor.IsIn.matched {source : Source} {cursor : Cursor} {rest : Line} {closes : Spot}
    (h : cursor.IsIn source.code) (hhere : cursor.here = '{' :: rest)
    (hcloses : cursor.partner? = some closes) :
    source.Matched ⟨cursor.line, cursor.offset⟩ closes := by
  obtain ⟨earlier, hearlier⟩ := h.exists_braces
  obtain ⟨between, after, htail, hbalanced⟩ := matchingClose?_eq_some hcloses
  have hbraces : cursor.braces = ⟨true, ⟨cursor.line, cursor.offset⟩⟩ :: cursor.braces.tail := by
    simp [Cursor.braces, hhere, bracesInLine]
  rw [← Source.matchedIn_braces_iff]
  refine ⟨earlier, between, after, ?_, by simpa using hbalanced⟩
  rw [hearlier, hbraces, htail]
  simp

/-- **The body of a function is a block:** the braces that a header leads to are matched. -/
theorem matched_of_readHeader {source : Source} {above below : List Line} {text : Line}
    {head : HeadStart} {header : Header} (hcode : source.code = above ++ text :: below)
    (hhead : head ∈ headStarts none 0 text)
    (hread : readHeader above.length head below = .ok header) :
    source.Matched header.opens header.closes := by
  obtain ⟨list, body, closes, hlist, hbody, hcloses, rfl⟩ := readHeader_eq_ok hread
  obtain ⟨before, rest, rfl, hstart⟩ := exists_headAt?_of_mem_headStarts hhead
  obtain ⟨gap, parenGap, rfl, hkeyword, hname, hparen, -⟩ := headAt?_eq_some hstart
  -- behind the opening parenthesis
  have hin : Cursor.IsIn ⟨above.length, head.paren + 1, head.rest, below⟩ source.code := by
    refine ⟨above, before ++ ['d', 'e', 'f'] ++ gap ++ head.name ++ parenGap ++ ['('], ?_, rfl, ?_⟩
    · rw [hcode]
      simp
    · rw [hparen, hname]
      simp only [size_append, size, Nat.zero_add]
      have hsizes : 'd'.utf8Size = 1 ∧ 'e'.utf8Size = 1 ∧ 'f'.utf8Size = 1 ∧ '('.utf8Size = 1 := by
        decide
      omega
  obtain ⟨hopens, rest, hhere⟩ := isIn_of_findBody (isIn_of_readParameters hin hlist) hbody
  exact hopens.matched hhere hcloses

end Declaration

end ScriptServer

import ScriptServer.Proofs.Assignment
import ScriptServer.Proofs.ModulePath
import ScriptServer.Proofs.Text.Slice

namespace ScriptServer

/-!
# Offsets found in code, used in the line as written

Declarations are looked for in the code, and their names are cut out of the line as it is written.
So an offset found in one of the two has to be a boundary of the other.

* `Text.IsEdge` — an offset next to a visible character; in the line as written it is a boundary.
* `ModuleSyntax.exists_of_statement?` — a statement as it stands in its line.
* `Declaration.matchOffsets` — all offsets that the search for declarations, imports and braces
  finds in a line of code.
* `Declaration.isBoundary_of_mem_matchOffsets` — they are boundaries of the line as written.
* `Text.masks_keep_shape` — what the masks keep, and that no piece is missing.
-/

namespace Text

/-- An offset before or behind a visible character of a line. -/
def IsEdge (line : Line) (offset : Nat) : Prop :=
  ∃ before c after, line = before ++ c :: after ∧ c ≠ ' '
    ∧ (offset = size before ∨ offset = size before + c.utf8Size)

/-- **Next to a visible character** the line as written has a boundary. -/
theorem Blanks.isBoundary_of_isEdge {raw masked : Line} (h : Blanks raw masked) {offset : Nat}
    (hedge : IsEdge masked offset) : IsBoundary raw offset := by
  obtain ⟨before, c, after, rfl, hc, hoffset⟩ := hedge
  obtain ⟨left, right, rfl, hleft, -⟩ := h.exists_of_visible hc
  rw [hleft.size_eq] at hoffset
  rcases hoffset with rfl | rfl
  · exact ⟨left, c :: right, rfl, rfl⟩
  · exact ⟨left ++ [c], right, by simp, by simp [size]⟩

/-- The ends of a word that begins and ends with visible characters. -/
theorem isEdge_of_word {before word after : Line} (hne : word ≠ [])
    (hfirst : ∀ c ∈ word.head?, c ≠ ' ') (hlast : ∀ c ∈ word.getLast?, c ≠ ' ') :
    IsEdge (before ++ word ++ after) (size before)
      ∧ IsEdge (before ++ word ++ after) (size before + size word) := by
  constructor
  · obtain ⟨c, rest, rfl⟩ := List.exists_cons_of_ne_nil hne
    exact ⟨before, c, rest ++ after, by simp, hfirst c rfl, .inl rfl⟩
  · obtain ⟨most, c, rfl⟩ := (List.eq_nil_or_concat word).resolve_left hne
    rw [List.concat_eq_append] at hlast ⊢
    refine ⟨before ++ most, c, after, by simp, hlast c List.getLast?_concat, .inr ?_⟩
    simp only [size_append, size]
    omega

/-- Names are visible. -/
theorem IsName.ne_space {name : Line} (h : IsName name) : ∀ c ∈ name, c ≠ ' ' := by
  rintro c hc rfl
  exact h.not_mem (by decide) hc

theorem IsName.isEdge {name : Line} (h : IsName name) (before after : Line) :
    IsEdge (before ++ name ++ after) (size before)
      ∧ IsEdge (before ++ name ++ after) (size before + size name) :=
  isEdge_of_word h.ne_nil (fun c hc => h.ne_space c (List.mem_of_mem_head? hc))
    fun c hc => h.ne_space c (List.mem_of_getLast? hc)

end Text

open Text

/-! ### Statements -/

namespace ModuleSyntax

variable {syn : ModuleSyntax}

theorem eq_append_of_readSegment? {text taken rest : Line}
    (h : syn.readSegment? text = some (taken, rest)) : text = taken ++ rest := by
  simp only [readSegment?, Option.bind_eq_bind, Option.bind_eq_some_iff, Option.pure_def,
    Option.some.injEq, Prod.mk.injEq, Prod.exists] at h
  obtain ⟨afterSeparator, hsep, name, rest', hname, rfl, rfl⟩ := h
  calc text = text.takeWhile isBlank ++ trimStart text := (takeWhile_append_trimStart text).symm
    _ = text.takeWhile isBlank ++ (syn.separator ++ afterSeparator) := by
      rw [after?_eq_some_iff.mp hsep]
    _ = text.takeWhile isBlank ++ (syn.separator
          ++ (afterSeparator.takeWhile isBlank ++ (name ++ rest'))) := by
      rw [← (readName?_eq_some hname).1, takeWhile_append_trimStart]
    _ = _ := by simp

/-- The segments that are read stand at the beginning of the text. -/
theorem readSegments_isPrefix (syn : ModuleSyntax) (text : Line) :
    syn.readSegments text <+: text := by
  fun_induction readSegments syn text with
  | case1 text => exact List.nil_prefix
  | case2 text taken rest hsome ih =>
    rw [eq_append_of_readSegment? hsome]
    exact (List.prefix_append_right_inj taken).mpr ih

/-- **A statement in its line:** perhaps blanks, the keyword, blanks, the path, and what follows. -/
theorem exists_of_statement? {keyword line : Line} {statement : Statement}
    (h : syn.statement? keyword line = some statement) :
    ∃ gap gap' after, line = statement.before ++ statement.path ++ after
      ∧ statement.before = gap ++ keyword ++ gap' ∧ isBlankLine gap = true
      ∧ isBlankLine gap' = true ∧ gap' ≠ [] ∧ ∃ names, syn.Spells names statement.path := by
  simp only [statement?, Option.bind_eq_bind, Option.bind_eq_some_iff, Option.pure_def,
    Option.some.injEq] at h
  obtain ⟨rest, hkeyword, text, htext, path, hpath, rfl⟩ := h
  have hnames := exists_spells_of_readPath? hpath
  simp only [readPath?, Option.bind_eq_bind, Option.bind_eq_some_iff, Option.pure_def,
    Option.some.injEq, Prod.exists] at hpath
  obtain ⟨name, rest', hname, rfl⟩ := hpath
  obtain ⟨after, hafter⟩ := readSegments_isPrefix syn rest'
  refine ⟨line.takeWhile isBlank, rest.takeWhile isBlank, after, ?_, rfl,
    isBlankLine_takeWhile line, isBlankLine_takeWhile rest,
    takeWhile_ne_nil_of_skipBlanks? htext, hnames⟩
  calc line = line.takeWhile isBlank ++ trimStart line := (takeWhile_append_trimStart line).symm
    _ = line.takeWhile isBlank ++ (keyword ++ rest) := by rw [after?_eq_some_iff.mp hkeyword]
    _ = line.takeWhile isBlank ++ (keyword ++ (rest.takeWhile isBlank ++ text)) := by
      rw [← skipBlanks?_eq_some htext]
    _ = line.takeWhile isBlank ++ (keyword ++ (rest.takeWhile isBlank
          ++ (name ++ (syn.readSegments rest' ++ after)))) := by
      rw [hafter, ← (readName?_eq_some hname).1]
    _ = _ := by simp

/-- A path begins and ends with a name. -/
theorem Spells.exists_ends {names : List Line} {path : Line} (h : syn.Spells names path) :
    (∃ first rest, IsName first ∧ path = first ++ rest)
      ∧ ∃ front last, IsName last ∧ path = front ++ last := by
  induction h with
  | @one name hname => exact ⟨⟨name, [], hname, by simp⟩, [], name, hname, rfl⟩
  | @more name gap gap' rest names hname _ _ _ ih =>
    obtain ⟨-, front, last, hlast, rfl⟩ := ih
    exact ⟨⟨name, gap ++ syn.separator ++ gap' ++ (front ++ last), hname, by simp⟩,
      name ++ gap ++ syn.separator ++ gap' ++ front, last, hlast, by simp⟩

/-- The ends of the path of a statement are visible. -/
theorem isEdge_of_statement? {keyword line : Line} {statement : Statement}
    (h : syn.statement? keyword line = some statement) :
    IsEdge line (size statement.before) ∧ IsEdge line statement.stop := by
  obtain ⟨_, _, after, hline, -, -, -, -, names, hnames⟩ := exists_of_statement? h
  obtain ⟨⟨first, rest, hfirst, hpath⟩, front, last, hlast, hpath'⟩ := hnames.exists_ends
  constructor
  · have hedge := (hfirst.isEdge statement.before (rest ++ after)).1
    rw [hline, hpath]
    simpa using hedge
  · have hedge := (hlast.isEdge (statement.before ++ front) after).2
    rw [Statement.stop, hline, hpath', size_append, ← Nat.add_assoc, ← size_append]
    simpa using hedge

end ModuleSyntax

/-! ### All offsets of a line -/

namespace Declaration

/-- A header as it stands in its line. -/
theorem exists_of_mem_headStarts {code : Line} {head : HeadStart}
    (h : head ∈ headStarts none 0 code) :
    ∃ before gap parenGap,
      code = before ++ ['d', 'e', 'f'] ++ gap ++ head.name ++ parenGap ++ '(' :: head.rest
        ∧ IsName head.name ∧ head.keyword = size before
        ∧ head.nameStart = size (before ++ ['d', 'e', 'f'] ++ gap)
        ∧ head.paren = size (before ++ ['d', 'e', 'f'] ++ gap ++ head.name ++ parenGap) := by
  obtain ⟨before, text, rfl, hhead⟩ := exists_headAt?_of_mem_headStarts h
  obtain ⟨gap, parenGap, rfl, hkeyword, hname, hparen, -⟩ := headAt?_eq_some hhead
  have hsize : size ['d', 'e', 'f'] = 3 := by decide
  refine ⟨before, gap, parenGap, by simp, isName_of_headAt? hhead, by omega, ?_, ?_⟩
  · simp only [size_append, hsize]
    omega
  · simp only [size_append, hsize]
    omega

/-- An assigned name as it stands in its line. -/
theorem exists_of_mem_assignments {code : Line} {assigned : Assigned}
    (h : assigned ∈ assignments code) :
    ∃ before after, code = before ++ assigned.name ++ after ∧ IsName assigned.name
      ∧ size before = assigned.offset := by
  obtain ⟨seen, hseen, heq⟩ := exists_seen code
  rw [heq] at h
  obtain ⟨b, hb, rfl⟩ := List.mem_map.mp h
  obtain ⟨rfl, hassigns, -⟩ := (hseen.mem_iff b).mp hb
  exact ⟨b.front ++ b.gap, b.space ++ ['='] ++ b.right,
    by simp [Binding.line, Binding.upToEquals, Binding.assigned], hassigns.name, rfl⟩

/-- The byte offsets that the search for functions, variables, modules and braces finds in a line of
    code, those of the parentheses that could end a list of parameters, and the two ends of the
    line. -/
def matchOffsets (syn : ModuleSyntax) (code : Line) : List Nat :=
  [0, size code]
    ++ (headStarts none 0 code).flatMap (fun head =>
      [head.keyword, head.nameStart, head.nameStart + size head.name, head.paren, head.paren + 1])
    ++ (assignments code).flatMap (fun found => [found.offset, found.offset + size found.name])
    ++ ((syn.moduleStatement? code).toList ++ (syn.useStatement? code).toList).flatMap
      (fun statement => [size statement.before, statement.stop])
    ++ (bracesInLine 0 0 code).map (·.spot.offset)
    ++ ((lineStream 0 0 code).filter (·.1 = ')')).flatMap
      (fun char => [char.2.offset, char.2.offset + 1])

/-- **Whatever is found in code is found next to a visible character**, or at an end of the line. -/
theorem isEdge_of_mem_matchOffsets {syn : ModuleSyntax} {code : Line} {offset : Nat}
    (h : offset ∈ matchOffsets syn code) :
    offset = 0 ∨ offset = size code ∨ IsEdge code offset := by
  simp only [matchOffsets, List.mem_append, List.mem_cons, List.mem_flatMap, List.mem_map,
    List.not_mem_nil, or_false, Option.mem_toList, List.mem_filter, decide_eq_true_eq] at h
  rcases h with ((((hends | ⟨head, hhead, hoffset⟩) | ⟨assigned, hassigned, hoffset⟩)
    | ⟨statement, hstatement, hoffset⟩) | ⟨brace, hbrace, rfl⟩)
    | ⟨⟨c, spot⟩, ⟨hchar, rfl⟩, hoffset⟩
  · exact hends.imp_right .inl
  · right; right
    obtain ⟨before, gap, parenGap, rfl, hname, hkeyword, hstart, hparen⟩ :=
      exists_of_mem_headStarts hhead
    have hword := hname.isEdge (before ++ ['d', 'e', 'f'] ++ gap) (parenGap ++ '(' :: head.rest)
    rw [← hstart] at hword
    rcases hoffset with rfl | rfl | rfl | rfl | rfl
    · exact ⟨before, 'd', ['e', 'f'] ++ gap ++ head.name ++ parenGap ++ '(' :: head.rest, by simp,
        by decide, .inl hkeyword⟩
    · simpa using hword.1
    · simpa using hword.2
    · exact ⟨_, '(', head.rest, rfl, by decide, .inl hparen⟩
    · exact ⟨_, '(', head.rest, rfl, by decide, .inr (by rw [hparen]; rfl)⟩
  · right; right
    obtain ⟨before, after, rfl, hname, hsize⟩ := exists_of_mem_assignments hassigned
    have hword := hname.isEdge before after
    rw [hsize] at hword
    rcases hoffset with rfl | rfl
    · exact hword.1
    · exact hword.2
  · right; right
    have hedges : IsEdge code (size statement.before) ∧ IsEdge code statement.stop := by
      rcases hstatement with hmodule | huse
      · exact ModuleSyntax.isEdge_of_statement? hmodule
      · exact ModuleSyntax.isEdge_of_statement? huse
    rcases hoffset with rfl | rfl
    · exact hedges.1
    · exact hedges.2
  · right; right
    rw [bracesInLine_eq, List.mem_filterMap] at hbrace
    obtain ⟨char, hchar, hbrace⟩ := hbrace
    obtain rfl := brace?_eq_some.mp hbrace
    obtain ⟨before, after, rfl, hspot⟩ := mem_lineStream.mp hchar
    refine ⟨before, _, after, rfl, ?_, .inl (by rw [hspot]; exact Nat.zero_add _)⟩
    split <;> decide
  · right; right
    obtain ⟨before, after, rfl, rfl⟩ := mem_lineStream.mp hchar
    rw [Nat.zero_add] at hoffset
    exact ⟨before, ')', after, rfl, by decide, hoffset⟩

/-- **Offsets found in code are boundaries** of the line as written. -/
theorem isBoundary_of_mem_matchOffsets {syn : ModuleSyntax} {raw code : Line} (h : Blanks raw code)
    {offset : Nat} (hoffset : offset ∈ matchOffsets syn code) : IsBoundary raw offset := by
  rcases isEdge_of_mem_matchOffsets hoffset with rfl | rfl | hedge
  · exact isBoundary_zero raw
  · exact ⟨raw, [], (List.append_nil raw).symm, h.size_eq.symm⟩
  · exact h.isBoundary_of_isEdge hedge

end Declaration

/-! ### The masks of a script -/

namespace Text

open Declaration

/-- Line by line, a mask is the given line with characters blanked. -/
theorem exists_blanks_of_getElem? {lines masked : List Line} (h : List.Forall₂ Blanks lines masked)
    {n : Nat} {raw : Line} (hraw : lines[n]? = some raw) :
    ∃ code, masked[n]? = some code ∧ Blanks raw code := by
  have hn := (List.getElem?_eq_some_iff.mp hraw).1
  have hlength := h.length_eq
  refine ⟨masked[n], List.getElem?_eq_getElem (by omega), ?_⟩
  have hblanks := h.get hn (by omega)
  rw [List.getElem?_eq_getElem hn] at hraw
  obtain rfl := Option.some.inj hraw
  exact hblanks

/-- **Masks keep the shape of a text.**  There are as many lines, each with the bytes, the
    boundaries and the visible characters of the line as written.  Blanking goes from byte to byte,
    and what it leaves is read as the mask, so that no byte has to be replaced.  And no piece is
    missing: the cursor cuts the line as written and the one without comments.  Offsets found in
    the code cut it and the line as written, and so do all offsets next to a visible character, as
    the words of a list of parameters have. -/
theorem masks_keep_shape (syn : ModuleSyntax) (lines : List Line) :
    (List.Forall₂ KeepsShape lines (maskComments lines)
        ∧ List.Forall₂ KeepsShape lines (maskCode lines))
      ∧ (blankBytes (· == .comment) false (lines.map bytes) = (maskComments lines).map bytes
        ∧ blankBytes (· != .code) false (lines.map bytes) = (maskCode lines).map bytes
        ∧ ∀ line ∈ maskComments lines ++ maskCode lines,
          Uri.textOfBytes? (bytes line) = some (String.ofList line))
      ∧ (∀ (n column : Nat) (raw : Line), lines[n]? = some raw →
        ∃ masked, (maskComments lines)[n]? = some masked
          ∧ slice? raw 0 (offsetAt raw column)
            = some (splitAtOffset raw (offsetAt raw column)).1
          ∧ slice? masked 0 (offsetAt raw column)
            = some (splitAtOffset masked (offsetAt raw column)).1
          ∧ slice? masked (offsetAt raw column) (size masked)
            = some (splitAtOffset masked (offsetAt raw column)).2)
      ∧ ∀ (n : Nat) (raw : Line), lines[n]? = some raw →
        ∃ code, (maskCode lines)[n]? = some code
          ∧ ∀ start stop, start ∈ matchOffsets syn code ∨ IsEdge code start →
            stop ∈ matchOffsets syn code ∨ IsEdge code stop → start ≤ stop →
            (slice? raw start stop).isSome = true ∧ (slice? code start stop).isSome = true := by
  have hcomments : List.Forall₂ Blanks lines (maskComments lines) := forall₂_blanks _ false lines
  have hcode : List.Forall₂ Blanks lines (maskCode lines) := forall₂_blanks _ false lines
  refine ⟨⟨hcomments.imp fun _ _ => Blanks.keepsShape, hcode.imp fun _ _ => Blanks.keepsShape⟩,
    ⟨blankBytes_map_bytes _ false lines, blankBytes_map_bytes _ false lines,
      fun line _ => Uri.textOfBytes?_bytesOf line⟩, ?_, ?_⟩
  · intro n column raw hraw
    obtain ⟨masked, hmasked, hblanks⟩ := exists_blanks_of_getElem? hcomments hraw
    obtain ⟨head, tail, hline, hoffset⟩ := exists_offsetAt_eq raw column
    have hboundary : IsBoundary raw (offsetAt raw column) := ⟨head, tail, hline, hoffset.symm⟩
    exact ⟨masked, hmasked, (slice?_of_isBoundary hboundary).1,
      slice?_of_isBoundary (hblanks.isBoundary hboundary)⟩
  · intro n raw hraw
    obtain ⟨code, hmasked, hblanks⟩ := exists_blanks_of_getElem? hcode hraw
    have hboundary : ∀ offset, offset ∈ matchOffsets syn code ∨ IsEdge code offset →
        IsBoundary raw offset := by
      rintro offset (hmem | hedge)
      · exact isBoundary_of_mem_matchOffsets hblanks hmem
      · exact hblanks.isBoundary_of_isEdge hedge
    refine ⟨code, hmasked, fun start stop hstart hstop hle => ?_⟩
    have hstarts := hboundary start hstart
    have hstops := hboundary stop hstop
    exact ⟨isSome_slice?_iff.mpr ⟨hle, hstarts, hstops⟩,
      isSome_slice?_iff.mpr ⟨hle, hblanks.isBoundary hstarts, hblanks.isBoundary hstops⟩⟩

end Text

end ScriptServer

import ScriptServer.Proofs.ParameterSearch
import ScriptServer.Proofs.SharedBody

namespace ScriptServer

/-!
# Where parameters are placed

The parameters of a function follow it in the symbol table.  They are placed where the search in its
list finds them, which is not always at their identifiers.

* `Outline.WrittenList` — the list of a function as it stands in the code.
* `Outline.exists_writtenList` — every function that is found has one, and its parameters are read
  from it.
* `Outline.parameters_at_identifiers_unless_misled` — parameters are placed at their identifiers if
  the search is not misled, and otherwise one is not.
-/

open Text

namespace Source

/-- A name begins at a visible spot. -/
theorem visible_after {text : String} {front rest : List Char} {name : Line}
    (hname : IsName name)
    (h : maskText .code none text.toList = front ++ name ++ rest) :
    (ofText text).Visible (Spot.origin.after front) := by
  obtain ⟨c, word, rfl, hc, -⟩ := hname
  have hline : c ≠ '\n' := by rintro rfl; exact absurd hc (by decide)
  have hblank : c ≠ ' ' := by rintro rfl; exact absurd hc (by decide)
  rw [List.append_assoc, List.cons_append] at h
  exact ⟨c, mem_stream_after hline h, hblank⟩

end Source

namespace Outline

open Declaration

/-- The parameter list of a function as it stands in the code: behind the name of the function and
    an opening parenthesis, up to the parenthesis that closes it. -/
structure WrittenList (text : String) (s : Symbol) where
  front : List Char
  gap : List Char
  list : List Char
  rest : List Char
  code_eq : maskText .code none text.toList
    = front ++ s.name.toList ++ (gap ++ '(' :: (list ++ ')' :: rest))
  position_eq : s.position = (Source.ofText text).position (Spot.origin.after front)
  blank : Blank gap
  parens : ParensMatch list

/-- Where the list begins. -/
def WrittenList.spot {text : String} {s : Symbol} (written : WrittenList text s) : Spot :=
  Spot.origin.after (written.front ++ s.name.toList ++ (written.gap ++ ['(']))

/-- **The text tells the list:** there are no two. -/
theorem WrittenList.list_eq {text : String} {s : Symbol} (hname : IsName s.name.toList)
    (a b : WrittenList text s) : a.list = b.list ∧ a.spot = b.spot := by
  have hcode := a.code_eq.symm.trans b.code_eq
  rw [List.append_assoc, List.append_assoc] at hcode
  have hspot : Spot.origin.after a.front = Spot.origin.after b.front :=
    Source.eq_of_position_eq (Source.visible_after hname a.code_eq)
      (Source.visible_after hname b.code_eq) (a.position_eq.symm.trans b.position_eq)
  -- a longer front would end further on
  have hsame : ∀ {front more : List Char},
      Spot.origin.after front = Spot.origin.after (front ++ more) → more = [] := by
    intro front more heq
    by_contra hne
    have hlt := (Spot.origin.after front).lt_after hne
    rw [← Spot.after_append, ← heq, Spot.lt_def] at hlt
    omega
  have hfront : a.front = b.front := by
    rcases List.append_eq_append_iff.mp hcode with ⟨more, hmore, -⟩ | ⟨more, hmore, -⟩
    · rw [hmore] at hspot
      rw [hmore, hsame hspot, List.append_nil]
    · rw [hmore] at hspot
      rw [hmore, hsame hspot.symm, List.append_nil]
  rw [hfront, List.append_cancel_left_eq, List.append_cancel_left_eq] at hcode
  have hgap : a.gap = b.gap := by
    have hparen : isBlank '(' = false := by decide
    rw [← takeWhile_isBlank_append a.blank hparen, hcode, takeWhile_isBlank_append b.blank hparen]
  rw [hgap, List.append_cancel_left_eq, List.cons_eq_cons] at hcode
  refine ⟨a.parens.eq_of_append b.parens hcode.2, ?_⟩
  rw [WrittenList.spot, WrittenList.spot, hfront, hgap]

/-- **The list of a function that is found** is what its parameters are read from. -/
theorem exists_writtenList {syn : ModuleSyntax} {text : String} {header : Header} (uri : Uri)
    (h : .function header ∈ findings syn (Source.ofText text).code) :
    ∃ (written : WrittenList text (functionSymbol (.ofText uri text) header))
      (list : ParameterList), IsName header.name.toList
        ∧ list.ReadFrom 0 [] written.spot written.list
        ∧ header.parameters = locateParameters list.segments (splitParameters list.text) := by
  rcases exists_line_of_mem_findings h with ⟨_, _, habsurd⟩ | ⟨above, line, below, hcode, hon⟩
  · cases habsurd
  cases hon with
  | @function head _ hhead hread =>
    obtain ⟨list, body, closes, hlist, -, -, rfl⟩ := readHeader_eq_ok hread
    obtain ⟨before, start, rfl, hstart⟩ := exists_headAt?_of_mem_headStarts hhead
    have hname := isName_of_headAt? hstart
    obtain ⟨gap, parenGap, rfl, hkeyword, hnameStart, hparen, -, hgap, hparenGap⟩ :=
      headAt?_eq_some hstart
    have hmasked : maskText .code none text.toList
        = ['\n'].intercalate (Source.ofText text).code := by
      rw [Source.ofText, maskCode_splitLines, intercalate_splitAtChar]
    have hlines : ∀ line ∈ (Source.ofText text).code, '\n' ∉ line := by
      intro line hline
      rw [Source.ofText, maskCode_splitLines] at hline
      exact not_mem_of_mem_splitAtChar hline
    rw [hcode] at hmasked hlines
    obtain ⟨habove, hhere, hbelow⟩ : (∀ line ∈ above, '\n' ∉ line)
        ∧ '\n' ∉ before ++ (['d', 'e', 'f'] ++ gap ++ head.name ++ parenGap ++ '(' :: head.rest)
        ∧ ∀ line ∈ below, '\n' ∉ line := by
      rwa [List.forall_mem_append, List.forall_mem_cons] at hlines
    simp only [List.mem_append, List.mem_cons, not_or] at hhere
    obtain ⟨hbefore, ⟨⟨⟨-, hgapLine⟩, hnameLine⟩, hparenLine⟩, -, hrestLine⟩ := hhere
    obtain ⟨inside, rest, htext, hreadFrom⟩ :=
      exists_readFrom hlist (List.forall_mem_cons.mpr ⟨hrestLine, hbelow⟩)
    -- the code before the name, and its place
    let front := above.flatMap (· ++ ['\n']) ++ (before ++ ['d', 'e', 'f'] ++ gap)
    have hfront : Spot.origin.after front = ⟨above.length, head.nameStart⟩ := by
      have hline : '\n' ∉ before ++ ['d', 'e', 'f'] ++ gap := by
        simp only [List.mem_append, not_or]
        exact ⟨⟨hbefore, by decide⟩, hgapLine⟩
      have hsize : size ['d', 'e', 'f'] = 3 := by decide
      rw [Spot.after_append, Spot.origin, Spot.after_lines habove, Spot.after_of_not_mem _ hline,
        hnameStart]
      simp only [size_append, hsize, Nat.zero_add]
    have hspot : Spot.origin.after (front ++ head.name ++ (parenGap ++ ['(']))
        = ⟨above.length, head.paren + 1⟩ := by
      have hline : '\n' ∉ head.name ++ (parenGap ++ ['(']) := by
        simp only [List.mem_append, not_or]
        exact ⟨hnameLine, hparenLine, by decide⟩
      have hsize : size ['('] = 1 := by decide
      rw [List.append_assoc, Spot.after_append, hfront, Spot.after_of_not_mem _ hline, hparen]
      simp only [size_append, hsize, Nat.add_assoc]
    refine ⟨⟨front, parenGap, inside, rest, ?_, ?_, hparenGap, hreadFrom.closes⟩, list, ?_, ?_, rfl⟩
    · have hrest := intercalate_append_cons '\n' [] head.rest below
      rw [List.nil_append, htext] at hrest
      rw [hmasked, intercalate_append_cons]
      simp [front, functionSymbol, hrest]
    · rw [hfront]
      rfl
    · simpa using hname
    · show list.ReadFrom 0 [] (Spot.origin.after
        (front ++ (String.ofList head.name).toList ++ (parenGap ++ ['(']))) inside
      rw [String.toList_ofList, hspot]
      exact hreadFrom

/-- A function is followed by the symbols of its parameters. -/
theorem exists_symbols_eq {syn : ModuleSyntax} {text : String} {header : Header} (uri : Uri)
    (h : .function header ∈ findings syn (Source.ofText text).code) :
    ∃ earlier later, (table syn uri text).symbols
        = earlier ++ functionSymbol (.ofText uri text) header
          :: header.parameters.map (parameterSymbol (.ofText uri text) header) ++ later
      ∧ ∀ next ∈ later.head?, next.kind ≠ .param := by
  obtain ⟨before, after, hfound⟩ := List.append_of_mem h
  exact ⟨_, _, symbols_eq_of_findings uri hfound, kind_head_symbols _ after⟩

section Search

variable {text : String} {s : Symbol} (written : WrittenList text s) {list : ParameterList}
  {pieces : List Piece}

theorem WrittenList.closed_eq (h : splitAtChar ',' written.list = pieces.map Piece.text) :
    Piece.closed pieces = written.list ++ [')'] := by
  rw [Piece.closed, ← h, intercalate_splitAtChar]

/-- The code that is searched is that of the pieces. -/
theorem WrittenList.tiles (hread : list.ReadFrom 0 [] written.spot written.list)
    (h : splitAtChar ',' written.list = pieces.map Piece.text) :
    Tiles written.spot ([] ++ Piece.closed pieces) list.segments := by
  rw [List.nil_append, written.closed_eq h]
  exact hread.tiles

/-- A name in a list begins at a visible spot. -/
theorem WrittenList.visible {front behind : List Char} {name : Line} (hname : IsName name)
    (h : written.list ++ [')'] = front ++ name ++ behind) :
    (Source.ofText text).Visible (written.spot.after front) := by
  have hcode := written.code_eq
  rw [List.append_cons written.list, h] at hcode
  have hsplit : maskText .code none text.toList
      = written.front ++ s.name.toList ++ (written.gap ++ ['(']) ++ front ++ name
        ++ (behind ++ written.rest) := by
    rw [hcode]
    simp
  rw [WrittenList.spot, ← Spot.after_append]
  exact Source.visible_after hname hsplit

/-- What the search gives for a list that does not mislead it. -/
theorem WrittenList.locateParameters_eq (hread : list.ReadFrom 0 [] written.spot written.list)
    (hpieces : Piece.MakeUp pieces written.list) (h : ¬ Misled [] pieces) :
    (locateParameters list.segments (pieces.map Piece.name)).map (·.2)
      = (Piece.spans written.spot pieces).map some := by
  rcases hpieces with hsplit | ⟨rfl, -⟩
  · have hspans := locateParameters_of_not_misled (written.tiles hread hsplit) (by simp) h
    exact hspans
  · rfl

/-- What it gives for one that does. -/
theorem WrittenList.exists_position_lt (hread : list.ReadFrom 0 [] written.spot written.list)
    (hpieces : Piece.MakeUp pieces written.list)
    (hident : ∀ piece ∈ pieces, ∀ c ∈ piece.name, isIdent c = true) (h : Misled [] pieces) :
    ∃ (i : Nat) (found own : Span),
      ((locateParameters list.segments (pieces.map Piece.name)).map (·.2))[i]? = some (some found)
        ∧ (Piece.spans written.spot pieces)[i]? = some own
        ∧ ((Source.ofText text).range found).first < ((Source.ofText text).range own).first := by
  rcases hpieces with hsplit | ⟨rfl, -⟩
  · obtain ⟨i, name, found, own, behind, behind', hname, hfound, hown, heq, heq', hlt⟩ :=
      exists_before_of_misled hident (written.tiles hread hsplit) (by simp) h
    rw [List.nil_append, written.closed_eq hsplit] at heq heq'
    refine ⟨i, _, _, hfound, hown, ?_⟩
    -- what is shorter ends earlier
    have hfoundBegins : found <+: written.list ++ [')'] :=
      ⟨name ++ behind, by rw [heq, List.append_assoc]⟩
    have hownBegins : own <+: written.list ++ [')'] :=
      ⟨name ++ behind', by rw [heq', List.append_assoc]⟩
    obtain ⟨more, rfl⟩ :=
      List.prefix_of_prefix_length_le hfoundBegins hownBegins (Nat.le_of_lt hlt)
    have hne : more ≠ [] := by
      rintro rfl
      simp at hlt
    have hspot : written.spot.after found < written.spot.after (found ++ more) := by
      rw [Spot.after_append]
      exact Spot.lt_after _ hne
    exact (Source.position_lt_iff (written.visible hname heq) (written.visible hname heq')).mpr hspot
  · cases h

end Search

/-- **Parameters and their identifiers.**  Let the list of a function be made up of pieces between
    commas, each with an identifier that may be marked as mutable and may have a default value.
    Then the function is followed by one symbol for each piece, with the identifier as its name.  All
    of them are placed at their identifiers if no name occurs in another role on the way to its
    piece.  Otherwise, where names are made of letters, digits and underscores, one of them is placed
    before its identifier. -/
theorem parameters_at_identifiers_unless_misled (syn : ModuleSyntax) (uri : Uri) (text : String)
    {s : Symbol} (hs : s ∈ (table syn uri text).functions) :
    Nonempty (WrittenList text s)
      ∧ ∀ (written : WrittenList text s) (pieces : List Piece), Piece.MakeUp pieces written.list →
        ∃ earlier params later,
          (table syn uri text).symbols = earlier ++ s :: params ++ later
            ∧ (∀ param ∈ params, param.kind = .param)
            ∧ (∀ next ∈ later.head?, next.kind ≠ .param)
            ∧ params.map (·.name) = pieces.map (String.ofList ·.name)
            ∧ (¬ Misled [] pieces →
                params.map (·.range)
                  = (Piece.spans written.spot pieces).map (Source.ofText text).range)
            ∧ ((∀ piece ∈ pieces, ∀ c ∈ piece.name, isIdent c = true) → Misled [] pieces →
                ∃ (i : Nat) (param : Symbol) (own : Range), params[i]? = some param
                  ∧ ((Piece.spans written.spot pieces).map (Source.ofText text).range)[i]? = some own
                  ∧ param.range.first < own.first) := by
  obtain ⟨header, hheader, rfl⟩ := exists_header_of_mem_functions hs
  obtain ⟨written, list, hname, hread, hparameters⟩ := exists_writtenList uri hheader
  refine ⟨⟨written⟩, fun written' pieces hpieces => ?_⟩
  obtain ⟨earlier, later, hsymbols, hlater⟩ := exists_symbols_eq uri hheader
  obtain ⟨hlist, hspot⟩ := written'.list_eq hname written
  rw [hspot]
  rw [hlist] at hpieces
  rw [splitParameters_of_captures hpieces hread.captures] at hparameters
  refine ⟨earlier, _, later, hsymbols, ?_, hlater, ?_, ?_, ?_⟩
  · intro param hparam
    obtain ⟨_, -, rfl⟩ := List.mem_map.mp hparam
    rfl
  · rw [List.map_map, hparameters]
    exact (map_fst_locateParameters _ _).trans (List.map_map ..)
  · intro hmisled
    have hspans := written.locateParameters_eq hread hpieces hmisled
    rw [← hparameters] at hspans
    calc (header.parameters.map (parameterSymbol (.ofText uri text) header)).map (·.range)
        = (header.parameters.map (·.2)).map
            fun place => (Source.ofText text).range (place.getD header.span) := by
          rw [List.map_map, List.map_map]
          rfl
      _ = (Piece.spans written.spot pieces).map (Source.ofText text).range := by
          rw [hspans, List.map_map]
          rfl
  · intro hident hmisled
    obtain ⟨i, found, own, hfound, hown, hlt⟩ :=
      written.exists_position_lt hread hpieces hident hmisled
    rw [← hparameters, List.getElem?_map, Option.map_eq_some_iff] at hfound
    obtain ⟨parameter, hparameter, hplace⟩ := hfound
    refine ⟨i, parameterSymbol (.ofText uri text) header parameter, (Source.ofText text).range own,
      by rw [List.getElem?_map, hparameter]; rfl, by rw [List.getElem?_map, hown]; rfl, ?_⟩
    show ((Source.ofText text).range (parameter.2.getD header.span)).first < _
    rw [hplace]
    exact hlt

/-- A list over two lines, with a marked parameter, a default value and a name that occurs in the
    word before it. -/
theorem spread_parameters_at_identifiers :
    ∃ f earlier params later,
      f ∈ (table .standard ⟨"file:///f"⟩ "def f(mutable\n a = g(1), ab) \x7b\x7d").functions
        ∧ (table .standard ⟨"file:///f"⟩ "def f(mutable\n a = g(1), ab) \x7b\x7d").symbols
          = earlier ++ f :: params ++ later
        ∧ params.map (·.name) = ["a", "ab"]
        ∧ params.map (·.range) = [⟨⟨1, 1⟩, ⟨1, 2⟩⟩, ⟨⟨1, 11⟩, ⟨1, 13⟩⟩] := by
  let f : Symbol := ⟨"f", ⟨⟨0, 4⟩, ⟨0, 5⟩⟩, ⟨"file:///f"⟩,
    .func ["a", "ab"] none ⟨⟨0, 0⟩, ⟨1, 17⟩⟩ ⟨⟨1, 15⟩, ⟨1, 16⟩⟩ true⟩
  have hf : f ∈ (table .standard ⟨"file:///f"⟩
      "def f(mutable\n a = g(1), ab) \x7b\x7d").functions := by decide
  let written : WrittenList "def f(mutable\n a = g(1), ab) \x7b\x7d" f :=
    ⟨"def ".toList, [], "mutable\n a = g(1), ab".toList, " \x7b\x7d".toList, by decide, by decide,
      rfl, by decide⟩
  let pieces : List Piece :=
    [⟨"mutable\n ".toList, ['a'], " = g(1)".toList,
        @Leads.mutable [] [' '] '\n' rfl (.inr rfl) rfl, by decide,
        @Trails.default [' '] rfl " g(1)".toList⟩,
      ⟨[' '], ['a', 'b'], [], .blank rfl, by decide, .blank rfl⟩]
  obtain ⟨earlier, params, later, hsymbols, -, -, hnames, hranges, -⟩ :=
    (parameters_at_identifiers_unless_misled .standard ⟨"file:///f"⟩ _ hf).2 written pieces
      (.inl (by decide))
  refine ⟨f, earlier, params, later, hf, hsymbols, hnames.trans (by decide), ?_⟩
  exact (hranges (by decide)).trans (by decide)

/-- A default value that names a later parameter takes the place of its identifier. -/
theorem parameter_placed_in_default_value :
    ∃ (f a b : Symbol) (written : WrittenList "def f(a = b, b) \x7b\x7d" f) (pieces : List Piece),
      (table .standard ⟨"file:///f"⟩ "def f(a = b, b) \x7b\x7d").symbols = [f, a, b]
        ∧ f.kind = .func ∧ a.kind = .param ∧ b.kind = .param
        ∧ Piece.MakeUp pieces written.list
        ∧ [a.range, b.range] ≠ (Piece.spans written.spot pieces).map
            (Source.ofText "def f(a = b, b) \x7b\x7d").range := by
  refine ⟨⟨"f", ⟨⟨0, 4⟩, ⟨0, 5⟩⟩, ⟨"file:///f"⟩,
      .func ["a", "b"] none ⟨⟨0, 0⟩, ⟨0, 18⟩⟩ ⟨⟨0, 16⟩, ⟨0, 17⟩⟩ true⟩,
    ⟨"a", ⟨⟨0, 6⟩, ⟨0, 7⟩⟩, ⟨"file:///f"⟩, .param "f" ⟨⟨0, 16⟩, ⟨0, 17⟩⟩⟩,
    ⟨"b", ⟨⟨0, 10⟩, ⟨0, 11⟩⟩, ⟨"file:///f"⟩, .param "f" ⟨⟨0, 16⟩, ⟨0, 17⟩⟩⟩,
    ⟨"def ".toList, [], "a = b, b".toList, " \x7b\x7d".toList, by decide, by decide, rfl,
      by decide⟩,
    [⟨[], ['a'], " = b".toList, .blank rfl, by decide, @Trails.default [' '] rfl " b".toList⟩,
      ⟨[' '], ['b'], [], .blank rfl, by decide, .blank rfl⟩],
    by decide, rfl, rfl, rfl, .inl (by decide), by decide⟩

end Outline

end ScriptServer

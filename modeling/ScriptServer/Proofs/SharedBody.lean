import Mathlib.Data.List.Chain
import ScriptServer.Proofs.BodySearch
import ScriptServer.Proofs.NameOrder
import ScriptServer.Proofs.ParameterList
import ScriptServer.Proofs.Recovery

namespace ScriptServer

/-!
# Functions that share a body

The body of a function is looked for behind its parameter list, up to a semicolon.  Another
declaration does not end the search.  So a function without a body of its own takes the next block
that there is, and that may be the body of the function declared next.

* `Declaration.Cursor.Reaches` — a cursor leads to another one and passes over no opening brace.
* `Source.OpensBehind` — the first opening brace behind a name.
* `Declaration.opensBehind_of_mem_findings` — every body begins there.
* `Outline.bodies_shared_exactly_before_brace` — so two functions share a body exactly when the
  second is declared before the body of the first begins.
-/

open Text

theorem lineStream_append (number offset : Nat) (a b : Line) :
    lineStream number offset (a ++ b)
      = lineStream number offset a ++ lineStream number (offset + size a) b := by
  induction a generalizing offset with
  | nil => rfl
  | cons c rest ih => simp only [List.cons_append, lineStream, ih, size, Nat.add_assoc]

theorem codeStream_append (number : Nat) (a b : List Line) :
    codeStream number (a ++ b) = codeStream number a ++ codeStream (number + a.length) b := by
  induction a generalizing number with
  | nil => rfl
  | cons line rest ih =>
    rw [List.cons_append, codeStream, codeStream, ih, List.append_assoc, List.length_cons,
      Nat.add_comm rest.length 1, ← Nat.add_assoc]

/-- A character that does not stand in a line is none of its characters with their spots. -/
theorem ne_of_mem_lineStream {number offset : Nat} {line : Line} {c : Char} (h : c ∉ line) :
    ∀ char ∈ lineStream number offset line, char.1 ≠ c := by
  rintro ⟨d, spot⟩ hmem rfl
  obtain ⟨before, after, rfl, -⟩ := mem_lineStream.mp hmem
  simp at h

namespace Declaration

/-! ### The way to the body -/

namespace Cursor

/-- The characters of the code from a cursor on, each with its spot. -/
def stream (cursor : Cursor) : List (Char × Spot) :=
  lineStream cursor.line cursor.offset cursor.here ++ codeStream (cursor.line + 1) cursor.below

/-- The characters from a cursor on are the last ones of the code. -/
theorem IsIn.exists_stream {cursor : Cursor} {source : Source} (h : cursor.IsIn source.code) :
    ∃ earlier, source.stream = earlier ++ cursor.stream := by
  obtain ⟨above, before, hcode, hline, hoffset⟩ := h
  refine ⟨codeStream 0 above ++ lineStream cursor.line 0 before, ?_⟩
  rw [Source.stream, hcode, codeStream_append, Nat.zero_add, hline, codeStream, lineStream_append,
    Nat.zero_add, hoffset, stream]
  simp only [List.append_assoc]

/-- A cursor leads to another one, and no opening brace stands between them. -/
def Reaches (a b : Cursor) : Prop :=
  ∃ skipped, a.stream = skipped ++ b.stream ∧ ∀ char ∈ skipped, char.1 ≠ '{'

theorem Reaches.trans {a b c : Cursor} (hab : a.Reaches b) (hbc : b.Reaches c) : a.Reaches c := by
  obtain ⟨skipped, hskipped, hnone⟩ := hab
  obtain ⟨skipped', hskipped', hnone'⟩ := hbc
  refine ⟨skipped ++ skipped', by rw [hskipped, hskipped', List.append_assoc], ?_⟩
  intro char hchar
  rcases List.mem_append.mp hchar with hchar | hchar
  · exact hnone char hchar
  · exact hnone' char hchar

/-- A cursor reaches the places further on its line, as far as there is no opening brace. -/
theorem reaches_forward {skipped : Line} (h : '{' ∉ skipped) (line offset : Nat) (here : Line)
    (below : List Line) :
    Reaches ⟨line, offset, skipped ++ here, below⟩ ⟨line, offset + size skipped, here, below⟩ := by
  refine ⟨lineStream line offset skipped, ?_, ne_of_mem_lineStream h⟩
  rw [stream, lineStream_append, List.append_assoc]
  rfl

/-- From a line without an opening brace a cursor reaches the next one. -/
theorem reaches_nextLine {here : Line} (h : '{' ∉ here) (line offset : Nat) (next : Line)
    (below : List Line) :
    Reaches ⟨line, offset, here, next :: below⟩ ⟨line + 1, 0, next, below⟩ :=
  ⟨lineStream line offset here, rfl, ne_of_mem_lineStream h⟩

end Cursor

/-- Reading parameters passes over no opening brace. -/
theorem reaches_of_readParameters {below : List Line} {depth line offset : Nat}
    {captured here : Line} {list : ParameterList}
    (h : readParameters depth captured line offset here below = .ok list) :
    Cursor.Reaches ⟨line, offset, here, below⟩ list.cursor := by
  replace h := readsList_of_readParameters h
  induction h with
  | @closed depth line offset captured here inside after below hscan =>
    have hpasses := passes_scanParens depth here
    rw [hscan] at hpasses
    have hnone : '{' ∉ inside ++ [')'] := by
      rw [List.mem_append, not_or]
      exact ⟨hpasses.2, by decide⟩
    have hreaches := Cursor.reaches_forward hnone line offset after below
    rw [List.append_assoc, List.singleton_append, ← eq_append_of_scanParens hscan, size_append,
      ← Nat.add_assoc] at hreaches
    exact hreaches
  | @next depth depth' line offset captured here next below list hscan hrest ih =>
    have hpasses := passes_scanParens depth here
    rw [hscan] at hpasses
    -- the list goes on behind the blanks of the next line
    have hnone : '{' ∉ next.takeWhile isBlank :=
      not_mem_of_isBlankLine (isBlankLine_takeWhile next) (by decide)
    have hblanks := Cursor.reaches_forward hnone (line + 1) 0 (trimStart next) below
    rw [takeWhile_append_trimStart, Nat.zero_add] at hblanks
    exact ((Cursor.reaches_nextLine hpasses.2 line offset next below).trans hblanks).trans ih

/-- A line is passed over up to its first opening brace. -/
theorem reaches_of_braceInLine? {below : List Line} {line offset : Nat} {here : Line}
    {cursor : Cursor} (h : braceInLine? line offset here below = some cursor) :
    Cursor.Reaches ⟨line, offset, here, below⟩ cursor := by
  unfold braceInLine? at h
  split at h
  next => cases h
  next rest _ =>
    cases h
    have hnone : '{' ∉ here.takeWhile (· != '{') := by
      intro hmem
      simpa using List.mem_takeWhile_imp hmem
    have hreaches := Cursor.reaches_forward hnone line offset (here.dropWhile (· != '{')) below
    rw [List.takeWhile_append_dropWhile] at hreaches
    exact hreaches

/-- A line in which no opening brace is found has none. -/
theorem not_mem_of_braceInLine? {below : List Line} {line offset : Nat} {here : Line}
    (h : braceInLine? line offset here below = none) : '{' ∉ here := by
  unfold braceInLine? at h
  split at h
  next hnil =>
    intro hmem
    simpa using List.dropWhile_eq_nil_iff.mp hnil '{' hmem
  next => cases h

/-- Looking for a body passes over no opening brace. -/
theorem reaches_of_findBody {below : List Line} {line offset : Nat} {here : Line} {body : Cursor}
    (h : findBody line offset here below = .ok body) :
    Cursor.Reaches ⟨line, offset, here, below⟩ body := by
  induction below generalizing line offset here with
  | nil =>
    unfold findBody at h
    split at h
    next cursor hbrace =>
      cases h
      exact reaches_of_braceInLine? hbrace
    next => cases h
  | cons next below ih =>
    unfold findBody at h
    split at h
    next cursor hbrace =>
      cases h
      exact reaches_of_braceInLine? hbrace
    next hnone =>
      split at h
      · cases h
      · exact (Cursor.reaches_nextLine (not_mem_of_braceInLine? hnone) line offset next below).trans
          (ih h)

end Declaration

/-! ### The first brace behind a name -/

namespace Source

/-- The first opening brace of the code behind a name, whose first character stands at a spot. -/
def OpensBehind (source : Source) (name opens : Spot) : Prop :=
  ∃ earlier c between later,
    source.stream = earlier ++ (c, name) :: between ++ ('{', opens) :: later
      ∧ startsName c = true ∧ ∀ char ∈ between, char.1 ≠ '{'

namespace OpensBehind

variable {source : Source} {name opens : Spot}

theorem visible (h : source.OpensBehind name opens) : source.Visible name := by
  obtain ⟨earlier, c, between, later, hstream, hc, -⟩ := h
  exact ⟨c, by simp [hstream], ne_space_of_startsName hc⟩

theorem mem_stream (h : source.OpensBehind name opens) : ('{', opens) ∈ source.stream := by
  obtain ⟨earlier, c, between, later, hstream, -⟩ := h
  simp [hstream]

/-- The name stands before the brace. -/
theorem lt (h : source.OpensBehind name opens) : name < opens := by
  obtain ⟨earlier, c, between, later, hstream, -⟩ := h
  have hsorted := pairwise_codeStream 0 source.code
  rw [show codeStream 0 source.code = source.stream from rfl, hstream, List.append_assoc,
    List.pairwise_append, List.cons_append, List.pairwise_cons] at hsorted
  exact hsorted.2.1.1 ('{', opens) (by simp)

/-- No opening brace behind the name comes earlier. -/
theorem le_of_lt (h : source.OpensBehind name opens) {other : Spot}
    (hother : ('{', other) ∈ source.stream) (hlt : name < other) : opens ≤ other := by
  obtain ⟨earlier, c, between, later, hstream, -, hbetween⟩ := h
  have hsorted := pairwise_codeStream 0 source.code
  rw [show codeStream 0 source.code = source.stream from rfl, hstream, List.append_assoc,
    List.pairwise_append, List.cons_append, List.pairwise_cons, List.pairwise_append,
    List.pairwise_cons] at hsorted
  rw [hstream, List.append_assoc, List.mem_append, List.cons_append, List.mem_cons,
    List.mem_append, List.mem_cons] at hother
  rw [Spot.lt_def] at hlt
  rcases hother with hearlier | heq | hbetween' | heq | hlater
  · have hbefore : other < name := hsorted.2.2 _ hearlier _ List.mem_cons_self
    rw [Spot.lt_def] at hbefore
    omega
  · obtain ⟨-, rfl⟩ := Prod.mk.inj heq
    omega
  · exact absurd rfl (hbetween _ hbetween')
  · obtain ⟨-, rfl⟩ := Prod.mk.inj heq
    exact .inr ⟨rfl, Nat.le_refl _⟩
  · have hbehind : opens < other := hsorted.2.1.2.2.1.1 _ hlater
    rw [Spot.lt_def] at hbehind
    rw [Spot.le_def]
    omega

/-- **Two names find the same brace** exactly when the second stands before the brace that the first
    one finds. -/
theorem eq_iff {name' opens' : Spot} (h : source.OpensBehind name opens)
    (h' : source.OpensBehind name' opens') (hlt : name < name') :
    opens = opens' ↔ name' < opens := by
  constructor
  · rintro rfl
    exact h'.lt
  · intro hbefore
    have hle := h'.le_of_lt h.mem_stream hbefore
    have hbehind := h'.lt
    have hge := h.le_of_lt h'.mem_stream (by rw [Spot.lt_def] at *; omega)
    rw [Spot.le_def] at hle hge
    obtain ⟨line, offset⟩ := opens
    obtain ⟨line', offset'⟩ := opens'
    simp only [Spot.mk.injEq] at hle hge ⊢
    omega

end OpensBehind

end Source

namespace Declaration

/-- **The body of a function** begins with the first opening brace behind its name. -/
theorem opensBehind_of_mem_findings {syn : ModuleSyntax} {source : Source} {header : Header}
    (h : .function header ∈ findings syn source.code) :
    source.OpensBehind ⟨header.span.line, header.span.start⟩ header.opens := by
  rcases exists_line_of_mem_findings h with ⟨_, _, habsurd⟩ | ⟨above, text, below, hcode, hon⟩
  · cases habsurd
  cases hon with
  | @function head _ hhead hread =>
    obtain ⟨list, body, closes, hlist, hbody, -, rfl⟩ := readHeader_eq_ok hread
    obtain ⟨before, rest, rfl, hstart⟩ := exists_headAt?_of_mem_headStarts hhead
    obtain ⟨gap, parenGap, rfl, hkeyword, hname, hparen, -, hgap, hparenGap⟩ := headAt?_eq_some hstart
    have hin : Cursor.IsIn ⟨above.length, head.nameStart,
        head.name ++ parenGap ++ ['('] ++ head.rest, below⟩ source.code := by
      refine ⟨above, before ++ ['d', 'e', 'f'] ++ gap, by rw [hcode]; simp, rfl, ?_⟩
      have hsize : size ['d', 'e', 'f'] = 3 := by decide
      simp only [size_append]
      omega
    have hnames := isName_of_headAt? hstart
    -- up to the opening parenthesis there is no brace, and from there on none is passed over
    have hnone : '{' ∉ head.name ++ parenGap ++ ['('] := by
      simp only [List.mem_append, not_or]
      exact ⟨⟨hnames.not_mem (by decide), not_mem_of_isBlankLine hparenGap (by decide)⟩, by decide⟩
    have hparens := Cursor.reaches_forward hnone above.length head.nameStart head.rest below
    have hoffset : head.nameStart + size (head.name ++ parenGap ++ ['(']) = head.paren + 1 := by
      have hsize : size ['('] = 1 := by decide
      simp only [size_append]
      omega
    have hparensIn := hin.forward
    rw [hoffset] at hparens hparensIn
    obtain ⟨skipped, hskipped, hnone⟩ :=
      (hparens.trans (reaches_of_readParameters hlist)).trans (reaches_of_findBody hbody)
    obtain ⟨-, tail, hopens⟩ := isIn_of_findBody (isIn_of_readParameters hparensIn hlist) hbody
    obtain ⟨earlier, hearlier⟩ := hin.exists_stream
    obtain ⟨c, word, hfirst, hc, -⟩ := hnames
    have hbrace : body.stream = ('{', ⟨body.line, body.offset⟩) :: body.stream.tail := by
      rw [Cursor.stream, hopens]
      rfl
    cases skipped with
    | nil =>
      -- the name would begin with the brace
      rw [List.nil_append, hbrace, Cursor.stream, hfirst] at hskipped
      obtain ⟨hbegin, -⟩ := List.cons_eq_cons.mp hskipped
      obtain ⟨rfl, -⟩ := Prod.mk.inj hbegin
      exact absurd hc (by decide)
    | cons char between =>
      have hbegin : char = (c, ⟨above.length, head.nameStart⟩) := by
        rw [Cursor.stream, hfirst] at hskipped
        exact (List.cons_eq_cons.mp hskipped).1.symm
      refine ⟨earlier, c, between, body.stream.tail, ?_, hc, fun char hchar =>
        hnone char (List.mem_cons_of_mem _ hchar)⟩
      rw [hearlier, hskipped, ← hbegin, ← hbrace, List.append_assoc]

end Declaration

/-- The block that belongs to a symbol: the body of a function, and of the function of a parameter.
    For other symbols it is the range in which they can be used. -/
def Symbol.body (s : Symbol) : Range :=
  match s.role with
  | .func _ _ _ body _ => body
  | _ => s.scope

namespace Outline

open Declaration

/-- The header of a function that is found. -/
def header? : Finding → Option Header
  | .function header => some header
  | _ => none

theorem eq_function_of_header? {found : Finding} {header : Header}
    (h : header? found = some header) : found = .function header := by
  cases found with
  | function => cases h; rfl
  | _ => cases h

/-- The functions of a text are those of the headers in it. -/
theorem functions_table (syn : ModuleSyntax) (uri : Uri) (text : String) :
    (table syn uri text).functions
      = ((findings syn (Source.ofText text).code).filterMap header?).map
          (functionSymbol (.ofText uri text)) := by
  show ((findings syn (Source.ofText text).code).flatMap (symbols (.ofText uri text))).filter _ = _
  induction findings syn (Source.ofText text).code with
  | nil => rfl
  | cons found rest ih =>
    rw [List.flatMap_cons, List.filter_append, ih]
    cases found with
    | function header =>
      have hparameters : (header.parameters.map (parameterSymbol (.ofText uri text) header)).filter
          (fun s => s.kind = .func) = [] := by
        rw [List.filter_eq_nil_iff]
        intro s hs
        obtain ⟨parameter, -, rfl⟩ := List.mem_map.mp hs
        exact of_decide_eq_false rfl
      show List.filter _ (functionSymbol _ header :: _) ++ _ = _
      rw [List.filter_cons_of_pos (by rfl), hparameters]
      rfl
    | _ => rfl

theorem exists_header_of_mem_functions {syn : ModuleSyntax} {uri : Uri} {text : String} {f : Symbol}
    (h : f ∈ (table syn uri text).functions) :
    ∃ header, .function header ∈ findings syn (Source.ofText text).code
      ∧ f = functionSymbol (.ofText uri text) header := by
  rw [functions_table] at h
  obtain ⟨header, hheader, rfl⟩ := List.mem_map.mp h
  obtain ⟨found, hfound, hsome⟩ := List.mem_filterMap.mp hheader
  obtain rfl := eq_function_of_header? hsome
  exact ⟨header, hfound, rfl⟩

section Bodies

variable {syn : ModuleSyntax} {text : String} {header header' : Header}
  (hfound : .function header ∈ findings syn (Source.ofText text).code)
  (hfound' : .function header' ∈ findings syn (Source.ofText text).code)

include hfound in
theorem body_mem_blocks_of_mem_findings (uri : Uri) :
    (functionSymbol (.ofText uri text) header).body ∈ (Source.ofText text).blocks :=
  Source.mem_blocks_iff.mpr ⟨_, _, matched_of_mem_findings hfound, rfl⟩

include hfound hfound' in
/-- Bodies are the same when they begin with the same brace. -/
theorem body_eq_iff (uri : Uri) :
    (functionSymbol (.ofText uri text) header).body
        = (functionSymbol (.ofText uri text) header').body ↔ header.opens = header'.opens := by
  have hmatched := matched_of_mem_findings hfound
  have hmatched' := matched_of_mem_findings hfound'
  constructor
  · intro heq
    exact Source.eq_of_position_eq hmatched.visible.1 hmatched'.visible.1 (Range.mk.inj heq).1
  · intro heq
    have hcloses := (Source.partner?_eq_some_iff hmatched.mem_stream).mpr hmatched
    have hcloses' := (Source.partner?_eq_some_iff hmatched'.mem_stream).mpr hmatched'
    rw [heq, hcloses', Option.some.injEq] at hcloses
    simp [Symbol.body, functionSymbol, heq, hcloses]

include hfound hfound' in
/-- A function is declared before the body of another one begins exactly when its name stands before
    the brace. -/
theorem position_lt_body_iff (uri : Uri) :
    (functionSymbol (.ofText uri text) header').position
        < (functionSymbol (.ofText uri text) header).body.first
      ↔ (⟨header'.span.line, header'.span.start⟩ : Spot) < header.opens :=
  Source.position_lt_iff (opensBehind_of_mem_findings hfound').visible
    (matched_of_mem_findings hfound).visible.1

end Bodies

end Outline

/-- A function is declared inside another one: its name and its body stand in the body of that
    one. -/
def Symbol.IsInside (g f : Symbol) : Prop :=
  f.body.contains g.position = true ∧ f.body.StrictlyEncloses g.body

namespace Outline

open Declaration

/-- A body inside the body of another function belongs to a function that is declared inside that
    one. -/
theorem isInside_of_strictlyEncloses {syn : ModuleSyntax} {uri : Uri} {text : String} {f g : Symbol}
    (hf : f ∈ (table syn uri text).functions) (hg : g ∈ (table syn uri text).functions)
    (h : f.body.StrictlyEncloses g.body) : g.IsInside f := by
  obtain ⟨header, hfound, rfl⟩ := exists_header_of_mem_functions hf
  obtain ⟨header', hfound', rfl⟩ := exists_header_of_mem_functions hg
  have hopens := matched_of_mem_findings hfound
  have hopens' := matched_of_mem_findings hfound'
  have hbehind := opensBehind_of_mem_findings hfound'
  refine ⟨Range.contains_iff.mpr ⟨?_, ?_⟩, h⟩
  · -- otherwise the body of `g` would begin no later than the body of `f`
    by_contra hnot
    have hbefore := (position_lt_body_iff hfound hfound' uri).mp (Position.not_le.mp hnot)
    have hle := hbehind.le_of_lt hopens.mem_stream hbefore
    have hle' := (Source.position_le_iff hopens'.visible.1 hopens.visible.1).mpr hle
    exact Position.not_le.mpr h.1 hle'
  · have hname := (Source.position_lt_iff hbehind.visible hopens'.visible.1).mpr hbehind.lt
    have hbody := Source.first_lt_last_of_mem_blocks (body_mem_blocks_of_mem_findings hfound' uri)
    exact Position.le_of_lt (Position.lt_trans (Position.lt_trans hname hbody) h.2)

/-- **Bodies that overlap** are the same, or one function is declared inside the other. -/
theorem eq_or_isInside {syn : ModuleSyntax} {uri : Uri} {text : String} {f g : Symbol}
    (hf : f ∈ (table syn uri text).functions) (hg : g ∈ (table syn uri text).functions)
    {point : Position} (hpoint : f.body.contains point = true)
    (hpoint' : g.body.contains point = true) : f.body = g.body ∨ g.IsInside f ∨ f.IsInside g := by
  by_cases heq : f.body = g.body
  · exact .inl heq
  have hblock : ∀ s ∈ (table syn uri text).functions, s.body ∈ (Source.ofText text).blocks := by
    intro s hs
    obtain ⟨header, hfound, rfl⟩ := exists_header_of_mem_functions hs
    exact body_mem_blocks_of_mem_findings hfound uri
  rw [Range.contains_iff] at hpoint hpoint'
  have hoverlaps : f.body.overlaps g.body = true := by
    simp [Range.overlaps, Position.le_trans hpoint.1 hpoint'.2,
      Position.le_trans hpoint'.1 hpoint.2]
  rcases Source.nested_or_apart (hblock f hf) (hblock g hg) heq with hapart | hinside | hinside
  · rw [hapart] at hoverlaps
    cases hoverlaps
  · exact .inr (.inl (isInside_of_strictlyEncloses hf hg hinside))
  · exact .inr (.inr (isInside_of_strictlyEncloses hg hf hinside))

/-! ### Parameters -/

/-- A parameter has the body of the symbol before it. -/
def KeepsBody (before s : Symbol) : Prop := s.kind = .param → s.body = before.body

/-- The symbols of one finding have one body. -/
theorem body_of_mem_symbols (page : Page) (header : Header) :
    ∀ s ∈ symbols page (.function header), s.body = (functionSymbol page header).body := by
  intro s hs
  rcases List.mem_cons.mp hs with rfl | hparameter
  · rfl
  · obtain ⟨parameter, -, rfl⟩ := List.mem_map.mp hparameter
    rfl

theorem isChain_symbols (page : Page) (found : List Finding) :
    (found.flatMap (symbols page)).IsChain KeepsBody := by
  induction found with
  | nil => exact .nil
  | cons finding found ih =>
    rw [List.flatMap_cons, List.isChain_append]
    refine ⟨?_, ih, ?_⟩
    · cases finding with
      | function header =>
        refine (List.pairwise_of_forall_mem_list fun a ha b hb _ => ?_).isChain
        rw [body_of_mem_symbols page header a ha, body_of_mem_symbols page header b hb]
      | _ => exact .singleton _
    · intro _ _ s hs hkind
      exact absurd hkind (kind_head_symbols page found s hs)

/-- What follows a symbol and are parameters has its body. -/
theorem body_eq_of_isChain {s : Symbol} {params : List Symbol}
    (h : (s :: params).IsChain KeepsBody) (hparams : ∀ p ∈ params, p.kind = .param) :
    ∀ p ∈ params, p.body = s.body := by
  induction params generalizing s with
  | nil => exact fun _ hp => nomatch hp
  | cons q params ih =>
    obtain ⟨hq, hrest⟩ := List.isChain_cons_cons.mp h
    obtain ⟨hkind, hkinds⟩ := List.forall_mem_cons.mp hparams
    refine List.forall_mem_cons.mpr ⟨hq hkind, fun p hp => ?_⟩
    rw [ih hrest hkinds p hp, hq hkind]

theorem scope_eq_body {p : Symbol} (h : p.kind = .param) : p.scope = p.body := by
  obtain ⟨name, range, uri, role⟩ := p
  cases role with
  | param owner scope => rfl
  | _ => cases h

/-- **Functions that share a body.**  Functions are listed in the order of their names.  Two of them
    have the same body exactly when the second is declared before the body of the first begins; the
    first has no body of its own then.  A parameter can be used in the body of another function only
    if the two share their body or one is declared inside the other. -/
theorem bodies_shared_exactly_before_brace (syn : ModuleSyntax) (uri : Uri) (text : String) :
    (table syn uri text).functions.Pairwise (fun f g =>
        f.position < g.position ∧ (f.body = g.body ↔ g.position < f.body.first))
      ∧ ∀ before f params after, (table syn uri text).symbols = before ++ f :: params ++ after →
          f.kind = .func → (∀ p ∈ params, p.kind = .param) →
          ∀ p ∈ params, ∀ g ∈ (table syn uri text).functions, ∀ point,
            p.scope.contains point = true → g.body.contains point = true →
            f.body = g.body ∨ g.IsInside f ∨ f.IsInside g := by
  constructor
  · have hordered := pairwise_findings syn (Source.ofText text).code
    rw [functions_table, List.pairwise_map, List.pairwise_filterMap]
    refine hordered.imp_of_mem ?_
    intro found found' hfound hfound' hprecedes header hheader header' hheader'
    obtain rfl := eq_function_of_header? hheader
    obtain rfl := eq_function_of_header? hheader'
    have hlt := hprecedes _ rfl _ rfl
    have hbehind := opensBehind_of_mem_findings hfound
    have hbehind' := opensBehind_of_mem_findings hfound'
    refine ⟨(Source.position_lt_iff hbehind.visible hbehind'.visible).mpr hlt, ?_⟩
    rw [body_eq_iff hfound hfound', position_lt_body_iff hfound hfound', hbehind.eq_iff hbehind' hlt]
  · intro before f params after hsymbols hkind hparams p hp g hg point hpoint hpoint'
    have hchain := isChain_symbols (.ofText uri text) (findings syn (Source.ofText text).code)
    rw [show (findings syn (Source.ofText text).code).flatMap (symbols (.ofText uri text))
      = before ++ f :: params ++ after from hsymbols, List.append_assoc] at hchain
    have hbody := body_eq_of_isChain hchain.right_of_append.left_of_append hparams p hp
    have hf : f ∈ (table syn uri text).functions :=
      List.mem_filter.mpr ⟨by simp [hsymbols], by simp [hkind]⟩
    rw [scope_eq_body (hparams p hp), hbody] at hpoint
    exact eq_or_isInside hf hg hpoint hpoint'

/-- The parameter of a function that can be used in the body of another one, declared inside it. -/
theorem parameter_in_body_of_inner_function :
    ∃ f p g, (table .standard ⟨"file:///f"⟩ "def f(a) \x7bdef g() \x7b\x7d\x7d").symbols = [f, p, g]
      ∧ f.kind = .func ∧ p.kind = .param ∧ g.kind = .func
      ∧ p.scope.contains ⟨0, 18⟩ = true ∧ g.body.contains ⟨0, 18⟩ = true
      ∧ (f.body = g.body ∨ g.IsInside f ∨ f.IsInside g) := by
  have hsymbols : (table .standard ⟨"file:///f"⟩ "def f(a) \x7bdef g() \x7b\x7d\x7d").symbols
      = [] ++ ⟨"f", ⟨⟨0, 4⟩, ⟨0, 5⟩⟩, ⟨"file:///f"⟩,
          .func ["a"] none ⟨⟨0, 0⟩, ⟨0, 21⟩⟩ ⟨⟨0, 9⟩, ⟨0, 20⟩⟩ true⟩
        :: [⟨"a", ⟨⟨0, 6⟩, ⟨0, 7⟩⟩, ⟨"file:///f"⟩, .param "f" ⟨⟨0, 9⟩, ⟨0, 20⟩⟩⟩]
        ++ [⟨"g", ⟨⟨0, 14⟩, ⟨0, 15⟩⟩, ⟨"file:///f"⟩,
          .func [] none ⟨⟨0, 9⟩, ⟨0, 20⟩⟩ ⟨⟨0, 18⟩, ⟨0, 19⟩⟩ false⟩] := by decide
  refine ⟨_, _, _, hsymbols, rfl, rfl, rfl, by decide, by decide, ?_⟩
  exact (bodies_shared_exactly_before_brace .standard ⟨"file:///f"⟩ _).2 _ _ _ _ hsymbols rfl
    (by simp [Symbol.kind]) _ List.mem_cons_self _ (by decide) ⟨0, 18⟩ (by decide) (by decide)

/-- A function without a body takes that of the next one, and its parameter can be used there. -/
theorem parameter_in_body_of_next_function :
    ∃ f p g, f ∈ (table .standard ⟨"file:///f"⟩ "def f(a)\ndef g(b) \x7b\x7d").functions
      ∧ g ∈ (table .standard ⟨"file:///f"⟩ "def f(a)\ndef g(b) \x7b\x7d").functions
      ∧ p ∈ (table .standard ⟨"file:///f"⟩ "def f(a)\ndef g(b) \x7b\x7d").symbols
      ∧ f.name = "f" ∧ g.name = "g" ∧ p.name = "a" ∧ f.body = g.body
      ∧ g.body.contains ⟨1, 9⟩ = true ∧ p.scope.contains ⟨1, 9⟩ = true := by
  refine ⟨⟨"f", ⟨⟨0, 4⟩, ⟨0, 5⟩⟩, ⟨"file:///f"⟩,
      .func ["a"] none ⟨⟨0, 0⟩, ⟨1, 11⟩⟩ ⟨⟨1, 9⟩, ⟨1, 10⟩⟩ true⟩,
    ⟨"a", ⟨⟨0, 6⟩, ⟨0, 7⟩⟩, ⟨"file:///f"⟩, .param "f" ⟨⟨1, 9⟩, ⟨1, 10⟩⟩⟩,
    ⟨"g", ⟨⟨1, 4⟩, ⟨1, 5⟩⟩, ⟨"file:///f"⟩,
      .func ["b"] none ⟨⟨0, 0⟩, ⟨1, 11⟩⟩ ⟨⟨1, 9⟩, ⟨1, 10⟩⟩ true⟩, ?_⟩
  decide

end Outline

end ScriptServer

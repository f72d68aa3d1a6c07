import ScriptServer.Proofs.Body
import ScriptServer.Proofs.Innermost
import ScriptServer.Workspace.Symbols

namespace ScriptServer

/-!
# Where a symbol can be used

The scope of a symbol is a range that is stored with it.  Here the same positions are described by
the code: by the keyword or the name that declares the symbol and the braces around it.

* `Source.DeclaresFunction`, `Source.AssignsName` — the code that declares a function or a variable.
* `Source.BlockAround` — the block around a spot, told by the braces.
* `Outline.HasWindow` — the positions where a symbol can be used, by kinds.
* `Outline.usable_exactly_in_window` — every symbol of a text can be used exactly there.
-/

open Text

namespace Source

/-- The code declares a function: the keyword, blanks, the name, perhaps blanks, the opening
    parenthesis. -/
def DeclaresFunction (source : Source) (keyword nameSpot : Spot) (name : Line) : Prop :=
  ∃ before gap parenGap rest,
    source.code.getD keyword.line []
        = before ++ ['d', 'e', 'f'] ++ gap ++ name ++ parenGap ++ '(' :: rest
      ∧ size before = keyword.offset
      ∧ nameSpot = ⟨keyword.line, keyword.offset + 3 + size gap⟩
      ∧ gap ≠ [] ∧ isBlankLine gap = true ∧ isBlankLine parenGap = true

/-- The code assigns a name that begins at a spot. -/
def AssignsName (source : Source) (spot : Spot) (name : Line) : Prop :=
  Declaration.AssignedIn (source.code.getD spot.line []) name spot.offset

/-- The block around a spot: from the opening to the closing brace of the smallest matched pair
    around it, or the whole file when no pair is around it. -/
def BlockAround (source : Source) (spot : Spot) (block : Range) : Prop :=
  (∃ pair, source.Smallest pair spot
      ∧ block = ⟨source.position pair.1, source.position pair.2⟩)
    ∨ (∀ pair, ¬ source.Surrounds pair spot) ∧ block = source.whole

theorem blockAround_innermost {text : String} {spot : Spot} (h : (ofText text).Visible spot) :
    (ofText text).BlockAround spot
      (innermost (ofText text).blocks ((ofText text).position spot) (ofText text).whole) := by
  rcases innermost_cases h (ofText text).whole with ⟨pair, hpair, heq⟩ | ⟨hnone, heq⟩
  · exact .inl ⟨pair, hpair, heq⟩
  · exact .inr ⟨hnone, heq⟩

/-- No block is the whole file: its closing brace comes before the end. -/
theorem whole_not_mem_blocks (text : String) : (ofText text).whole ∉ (ofText text).blocks := by
  intro hmem
  obtain ⟨opens, closes, hmatched, heq⟩ := mem_blocks_iff.mp hmem
  have hlt := position_lt_whole hmatched.visible.2
  rw [heq] at hlt
  exact Position.lt_irrefl hlt

/-- The innermost block around a visible spot is the whole file exactly when no matched braces are
    around the spot. -/
theorem innermost_eq_whole_iff {text : String} {spot : Spot} (h : (ofText text).Visible spot) :
    innermost (ofText text).blocks ((ofText text).position spot) (ofText text).whole
        = (ofText text).whole
      ↔ ∀ pair, ¬ (ofText text).Surrounds pair spot := by
  rcases innermost_cases h (ofText text).whole with ⟨pair, hpair, heq⟩ | ⟨hnone, heq⟩
  · have hblock : (ofText text).rangeOf pair ∈ (ofText text).blocks :=
      mem_blocks_iff.mpr ⟨pair.1, pair.2, hpair.1.1, rfl⟩
    constructor
    · intro hwhole
      rw [← heq, hwhole] at hblock
      exact absurd hblock (whole_not_mem_blocks text)
    · intro hnone
      exact absurd hpair.1 (hnone pair)
  · exact ⟨fun _ => hnone, fun _ => heq⟩

end Source

namespace Outline

open Declaration

/-- The symbols of a text come from its findings. -/
theorem exists_finding_of_mem_table {syn : ModuleSyntax} {uri : Uri} {text : String} {s : Symbol}
    (h : s ∈ (table syn uri text).symbols) :
    ∃ found ∈ findings syn (Source.ofText text).code, s ∈ symbols (.ofText uri text) found :=
  List.mem_flatMap.mp h

/-- The positions where a symbol can be used, by kinds.

    * A function: in the block around its keyword.  It counts as being at the top level exactly when
      no matched braces are around the keyword, and exactly when its scope is the whole file.
    * A variable: from its name on, up to the end of the block around the name.
    * A parameter: in the body of its function, which stands before it and the other parameters.
    * A module: in the whole file. -/
def HasWindow (source : Source) (symbols : List Symbol) (s : Symbol)
    (usable : Position → Prop) : Prop :=
  match s.role with
  | .func _ _ scope _ topLevel =>
    ∃ keyword nameSpot block, source.DeclaresFunction keyword nameSpot s.name.toList
      ∧ s.position = source.position nameSpot
      ∧ source.BlockAround keyword block
      ∧ (∀ point, usable point ↔ block.contains point)
      ∧ (topLevel = true ↔ ∀ pair, ¬ source.Surrounds pair keyword)
      ∧ (topLevel = true ↔ scope = source.whole)
  | .var _ _ =>
    ∃ nameSpot block, source.AssignsName nameSpot s.name.toList
      ∧ s.position = source.position nameSpot
      ∧ source.BlockAround nameSpot block
      ∧ ∀ point, usable point ↔ s.position ≤ point ∧ point ≤ block.last
  | .param owner _ =>
    ∃ before function params after names doc scope body topLevel,
      symbols = before ++ function :: params ++ after
      ∧ function.role = .func names doc scope body topLevel
      ∧ s ∈ params ∧ owner = function.name ∧ params.map (·.name) = names
      ∧ body ∈ source.blocks
      ∧ ∀ point, usable point ↔ body.contains point
  | .mod _ => ∀ point, usable point ↔ source.whole.contains point

/-- A header that is found stands in the code. -/
theorem declaresFunction_of_mem_findings {syn : ModuleSyntax} {source : Source} {header : Header}
    (h : .function header ∈ findings syn source.code) :
    source.DeclaresFunction header.keyword ⟨header.span.line, header.span.start⟩
      header.name.toList := by
  rcases exists_line_of_mem_findings h with ⟨_, _, habsurd⟩ | ⟨above, line, below, hcode, hon⟩
  · cases habsurd
  · cases hon with
    | @function head _ hhead hread =>
      obtain ⟨list, body, closes, -, -, -, rfl⟩ := readHeader_eq_ok hread
      obtain ⟨before, rest, rfl, hstart⟩ := exists_headAt?_of_mem_headStarts hhead
      obtain ⟨gap, parenGap, rfl, hkeyword, hname, -, hgap, hblank, hblank'⟩ :=
        headAt?_eq_some hstart
      rw [Nat.zero_add] at hkeyword hname
      refine ⟨before, gap, parenGap, head.rest, ?_, hkeyword.symm, ?_, hgap, hblank, hblank'⟩
      · rw [hcode]
        simp
      · rw [hname, hkeyword]

/-- The braces of the body of a function are matched. -/
theorem matched_of_mem_findings {syn : ModuleSyntax} {source : Source} {header : Header}
    (h : .function header ∈ findings syn source.code) :
    source.Matched header.opens header.closes := by
  rcases exists_line_of_mem_findings h with ⟨_, _, habsurd⟩ | ⟨above, line, below, hcode, hon⟩
  · cases habsurd
  · cases hon with
    | function hhead hread => exact matched_of_readHeader hcode hhead hread

/-- A name that is found to be assigned stands in the code. -/
theorem assignsName_of_mem_findings {syn : ModuleSyntax} {source : Source} {name : String}
    {span : Span} (h : .assigns name span ∈ findings syn source.code) :
    source.AssignsName ⟨span.line, span.start⟩ name.toList := by
  rcases exists_line_of_mem_findings h with ⟨_, _, habsurd⟩ | ⟨above, line, below, hcode, hon⟩
  · cases habsurd
  · cases hon with
    | assigns hassigned =>
      have hin := assignedIn_of_mem_assignments hassigned
      simpa [Source.AssignsName, hcode] using hin

/-- Where a function or a variable begins, code is visible. -/
theorem visible_start_of_mem_findings {syn : ModuleSyntax} {text : String} {found : Finding}
    {spot : Spot} (h : found ∈ findings syn (Source.ofText text).code)
    (hspot : found.start? = some spot) :
    (Source.ofText text).Visible spot := by
  obtain ⟨c, hc, hmem⟩ := mem_stream_of_mem_findings h hspot
  exact ⟨c, hmem, hc⟩

/-- A function can be used in the block around its keyword. -/
theorem hasWindow_function {syn : ModuleSyntax} (uri : Uri) {text : String} {header : Header}
    (hfound : .function header ∈ findings syn (Source.ofText text).code)
    (symbols : List Symbol) :
    HasWindow (Source.ofText text) symbols (functionSymbol (.ofText uri text) header)
      (fun point => (functionSymbol (.ofText uri text) header).scope.contains point) := by
  have hvisible : (Source.ofText text).Visible header.keyword :=
    visible_start_of_mem_findings hfound rfl
  have hany := Source.any_contains_iff hvisible
  have htop : (!(Source.ofText text).blocks.any
        (·.contains ((Source.ofText text).position header.keyword))) = true
      ↔ ∀ pair, ¬ (Source.ofText text).Surrounds pair header.keyword := by
    rw [Bool.not_eq_true', ← Bool.not_eq_true, hany, not_exists]
  simp only [HasWindow, functionSymbol, Page.ofText, Symbol.scope, Symbol.position, Source.range]
  refine ⟨header.keyword, _, _, declaresFunction_of_mem_findings hfound, rfl,
    Source.blockAround_innermost hvisible, fun _ => Iff.rfl, htop, ?_⟩
  rw [htop]
  exact (Source.innermost_eq_whole_iff hvisible).symm

/-- A variable can be used from its name on, up to the end of the block around it. -/
theorem hasWindow_variable {syn : ModuleSyntax} (uri : Uri) {text name : String} {span : Span}
    (hfound : .assigns name span ∈ findings syn (Source.ofText text).code)
    (symbols : List Symbol) :
    HasWindow (Source.ofText text) symbols (variableSymbol (.ofText uri text) name span)
      (fun point => (variableSymbol (.ofText uri text) name span).scope.contains point) := by
  have hvisible : (Source.ofText text).Visible ⟨span.line, span.start⟩ :=
    visible_start_of_mem_findings hfound rfl
  simp only [HasWindow, variableSymbol, Page.ofText, Symbol.scope, Symbol.position, Source.range,
    Range.contains_iff]
  exact ⟨_, _, assignsName_of_mem_findings hfound, rfl, Source.blockAround_innermost hvisible,
    fun _ => Iff.rfl⟩

/-- The symbols of a header stand together in the table: the function, then its parameters. -/
theorem symbols_eq_of_findings {syn : ModuleSyntax} (uri : Uri) {text : String}
    {earlier later : List Finding} {header : Header}
    (h : findings syn (Source.ofText text).code = earlier ++ .function header :: later) :
    (table syn uri text).symbols
      = earlier.flatMap (symbols (.ofText uri text)) ++ functionSymbol (.ofText uri text) header
          :: header.parameters.map (parameterSymbol (.ofText uri text) header)
          ++ later.flatMap (symbols (.ofText uri text)) := by
  show (findings syn (Source.ofText text).code).flatMap (symbols (.ofText uri text)) = _
  rw [h, List.flatMap_append, List.flatMap_cons, ← List.append_assoc]
  rfl

/-- A parameter can be used in the body of its function. -/
theorem hasWindow_parameter {syn : ModuleSyntax} (uri : Uri) {text : String} {header : Header}
    (hfound : .function header ∈ findings syn (Source.ofText text).code)
    {parameter : String × Option Span} (hparameter : parameter ∈ header.parameters) :
    HasWindow (Source.ofText text) (table syn uri text).symbols
      (parameterSymbol (.ofText uri text) header parameter)
      (fun point =>
        (parameterSymbol (.ofText uri text) header parameter).scope.contains point) := by
  obtain ⟨earlier, later, hsplit⟩ := List.append_of_mem hfound
  have hbody := Source.mem_blocks_iff.mpr ⟨_, _, matched_of_mem_findings hfound, rfl⟩
  rw [symbols_eq_of_findings uri hsplit]
  simp only [HasWindow, parameterSymbol]
  refine ⟨_, _, _, _, _, _, _, _, _, rfl, rfl, List.mem_map_of_mem hparameter, rfl, ?_,
    hbody, fun _ => Iff.rfl⟩
  rw [List.map_map]
  rfl

/-- Every symbol has the window of its kind. -/
theorem hasWindow_scope {syn : ModuleSyntax} {uri : Uri} {text : String} {s : Symbol}
    (hs : s ∈ (table syn uri text).symbols) :
    HasWindow (Source.ofText text) (table syn uri text).symbols s
      (fun point => s.scope.contains point) := by
  obtain ⟨found, hfound, hmem⟩ := exists_finding_of_mem_table hs
  cases found with
  | declares name span =>
    cases List.mem_singleton.mp hmem
    exact fun _ => Iff.rfl
  | imports name span =>
    cases List.mem_singleton.mp hmem
    exact fun _ => Iff.rfl
  | function header =>
    rcases List.mem_cons.mp hmem with rfl | hparameter
    · exact hasWindow_function uri hfound _
    · obtain ⟨parameter, hin, rfl⟩ := List.mem_map.mp hparameter
      exact hasWindow_parameter uri hfound hin
  | assigns name span =>
    cases List.mem_singleton.mp hmem
    exact hasWindow_variable uri hfound _

/-- What can be used at a position after a document was read anew are the symbols of its text whose
    scope holds the position. -/
theorem mem_symbolsInScope_update (workspace : Workspace) (uri : Uri) (text : String) {s : Symbol}
    (hs : s ∈ (table workspace.syn uri text).symbols) (point : Position) :
    s ∈ (workspace.update uri text).symbolsInScope uri point ↔ s.scope.contains point := by
  simp [Workspace.symbolsInScope, Workspace.symbols, Workspace.table?, Workspace.update, inScope,
    hs]

/-- **Visibility windows.**  After a document was read, each of its symbols can be used exactly at
    the positions that the code gives it: a function throughout the block around its keyword, a
    variable from its name to the end of the block around it, a parameter in the body of its
    function, a module in the whole file. -/
theorem usable_exactly_in_window (workspace : Workspace) (uri : Uri) (text : String) {s : Symbol}
    (hs : s ∈ (table workspace.syn uri text).symbols) :
    HasWindow (Source.ofText text) (table workspace.syn uri text).symbols s
      (fun point => s ∈ (workspace.update uri text).symbolsInScope uri point) := by
  have husable : (fun point => s ∈ (workspace.update uri text).symbolsInScope uri point)
      = fun point => s.scope.contains point = true :=
    funext fun point => propext (mem_symbolsInScope_update workspace uri text hs point)
  rw [husable]
  exact hasWindow_scope hs

/-- A function in a block that takes up the whole line, from the first character to the last. -/
theorem usable_in_block_at_edges :
    ∃ s, s ∈ (table (Workspace.ofSettings {}).syn ⟨"file:///f"⟩
          "\x7b def f(x) \x7b y = 1 \x7d \x7d").symbols
      ∧ HasWindow (Source.ofText "\x7b def f(x) \x7b y = 1 \x7d \x7d")
          (table (Workspace.ofSettings {}).syn ⟨"file:///f"⟩
            "\x7b def f(x) \x7b y = 1 \x7d \x7d").symbols s
          (fun point => s ∈ ((Workspace.ofSettings {}).update ⟨"file:///f"⟩
            "\x7b def f(x) \x7b y = 1 \x7d \x7d").symbolsInScope ⟨"file:///f"⟩ point) := by
  refine ⟨⟨"f", ⟨⟨0, 6⟩, ⟨0, 7⟩⟩, ⟨"file:///f"⟩,
    .func ["x"] none ⟨⟨0, 0⟩, ⟨0, 21⟩⟩ ⟨⟨0, 11⟩, ⟨0, 19⟩⟩ false⟩, by decide, ?_⟩
  exact usable_exactly_in_window _ _ _ (by decide)

end Outline

end ScriptServer

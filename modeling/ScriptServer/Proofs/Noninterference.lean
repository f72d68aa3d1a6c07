import ScriptServer.Outline
import ScriptServer.Proofs.Declaration
import ScriptServer.Proofs.Innermost

namespace ScriptServer

/-!
# Comments and strings have no say

Two texts with the same code may differ in their comments and strings, and so in the columns of
everything behind these: a character that is hidden may take more bytes than columns.  Their symbol
tables are still the same, but for documentation and columns.

* `SymbolTable.coarse` — a table without documentation and columns.
* `Outline.symbols_coarse_eq` — the symbols of one finding, coarsely, are the same on two pages with
  the same code.
* `Outline.hidden_text_has_no_influence` — so are whole tables.
-/

/-! ### Tables without documentation and columns -/

/-- A range with its lines only. -/
def Range.coarse (r : Range) : Range := ⟨⟨r.first.line, 0⟩, ⟨r.last.line, 0⟩⟩

/-- A role without documentation, ranges with their lines only. -/
def Role.coarse : Role → Role
  | .func params _ scope body topLevel => .func params none scope.coarse body.coarse topLevel
  | .var _ scope => .var none scope.coarse
  | .param owner scope => .param owner scope.coarse
  | .mod scope => .mod scope.coarse

/-- A symbol without documentation, ranges with their lines only. -/
def Symbol.coarse (s : Symbol) : Symbol :=
  { s with range := s.range.coarse, role := s.role.coarse }

/-- A table without documentation, ranges with their lines only. -/
def SymbolTable.coarse (table : SymbolTable) : SymbolTable :=
  { table with symbols := table.symbols.map (·.coarse) }

/-! ### Two texts with the same code -/

section SameCode

variable {first second : String}

open Text

theorem length_lines_eq (h : maskCode (splitLines first) = maskCode (splitLines second)) :
    (Source.ofText first).lines.length = (Source.ofText second).lines.length := by
  have hlength := congrArg List.length h
  rw [length_maskCode, length_maskCode] at hlength
  exact hlength

@[simp] theorem Source.line_position (source : Source) (spot : Spot) :
    (source.position spot).line = spot.line := rfl

theorem Source.whole_coarse_eq (h : maskCode (splitLines first) = maskCode (splitLines second)) :
    (ofText first).whole.coarse = (ofText second).whole.coarse := by
  unfold whole
  rw [length_lines_eq h]
  rfl

/-- The innermost block around a visible spot is on the same lines in both texts, since it belongs
    to the same braces. -/
theorem Source.innermost_coarse_eq (h : maskCode (splitLines first) = maskCode (splitLines second))
    {spot : Spot} (hfirst : (ofText first).Visible spot) (hsecond : (ofText second).Visible spot) :
    (innermost (ofText first).blocks ((ofText first).position spot) (ofText first).whole).coarse
      = (innermost (ofText second).blocks ((ofText second).position spot)
          (ofText second).whole).coarse := by
  have hpairs : (ofText first).pairs = (ofText second).pairs :=
    congrArg (fun code => pairBraces [] (braces 0 code)) h
  rw [innermost_eq hfirst, innermost_eq hsecond, hpairs]
  cases innermostPair? (ofText second).pairs spot with
  | none => exact whole_coarse_eq h
  | some pair => rfl

/-- Whether a block is around a visible spot is the same in both texts. -/
theorem Source.any_contains_congr (h : maskCode (splitLines first) = maskCode (splitLines second))
    {spot : Spot} (hfirst : (ofText first).Visible spot) (hsecond : (ofText second).Visible spot) :
    (ofText first).blocks.any (·.contains ((ofText first).position spot))
      = (ofText second).blocks.any (·.contains ((ofText second).position spot)) := by
  have hpairs : (ofText first).pairs = (ofText second).pairs :=
    congrArg (fun code => pairBraces [] (braces 0 code)) h
  rw [any_contains_eq hfirst, any_contains_eq hsecond, hpairs]

end SameCode

namespace Outline

open Declaration Text

/-- One finding makes the same symbols on two pages with the same code, but for documentation and
    columns.  It begins where the code of both is visible. -/
theorem symbols_coarse_eq {first second : String} (uri : Uri)
    (h : maskCode (splitLines first) = maskCode (splitLines second)) {syn : ModuleSyntax}
    {found : Finding} (hfound : found ∈ findings syn (Source.ofText first).code) :
    (symbols (.ofText uri first) found).map (·.coarse)
      = (symbols (.ofText uri second) found).map (·.coarse) := by
  have hvisible : ∀ spot, found.start? = some spot →
      (Source.ofText first).Visible spot ∧ (Source.ofText second).Visible spot := by
    intro spot hspot
    obtain ⟨c, hc, hmem⟩ := mem_stream_of_mem_findings hfound hspot
    have hstream : (Source.ofText first).stream = (Source.ofText second).stream :=
      congrArg (codeStream 0) h
    exact ⟨⟨c, hmem, hc⟩, ⟨c, hstream ▸ hmem, hc⟩⟩
  have hrange : ∀ span, ((Source.ofText first).range span).coarse
      = ((Source.ofText second).range span).coarse := fun _ => rfl
  have hbody : ∀ header : Header, Range.coarse
        ⟨(Source.ofText first).position header.opens, (Source.ofText first).position header.closes⟩
      = Range.coarse ⟨(Source.ofText second).position header.opens,
          (Source.ofText second).position header.closes⟩ := fun _ => rfl
  cases found with
  | declares name span =>
    simp only [symbols, moduleSymbol, Page.ofText, Symbol.coarse, Role.coarse, List.map_cons,
      List.map_nil, hrange span, Source.whole_coarse_eq h]
  | imports name span =>
    simp only [symbols, moduleSymbol, Page.ofText, Symbol.coarse, Role.coarse, List.map_cons,
      List.map_nil, hrange span, Source.whole_coarse_eq h]
  | function header =>
    obtain ⟨hfirst, hsecond⟩ := hvisible header.keyword rfl
    have hparameter : ∀ parameter,
        (parameterSymbol (.ofText uri first) header parameter).coarse
          = (parameterSymbol (.ofText uri second) header parameter).coarse := by
      intro parameter
      simp only [parameterSymbol, Page.ofText, Symbol.coarse, Role.coarse, hrange, hbody]
    have hfunction : (functionSymbol (.ofText uri first) header).coarse
        = (functionSymbol (.ofText uri second) header).coarse := by
      simp only [functionSymbol, Page.ofText, Symbol.coarse, Role.coarse, hrange, hbody,
        Source.innermost_coarse_eq h hfirst hsecond, Source.any_contains_congr h hfirst hsecond]
    simp only [symbols, List.map_cons, List.map_map, Function.comp_def, hfunction, hparameter]
  | assigns name span =>
    obtain ⟨hfirst, hsecond⟩ := hvisible ⟨span.line, span.start⟩ rfl
    have hlast := congrArg (fun r : Range => r.last.line)
      (Source.innermost_coarse_eq h hfirst hsecond)
    simp only [Range.coarse] at hlast
    simp only [symbols, variableSymbol, Page.ofText, Symbol.coarse, Role.coarse, Range.coarse,
      Source.range, List.map_cons, List.map_nil, hlast, Source.line_position]

/-- **Noninterference.**  Two texts with the same code have the same symbol table, but for
    documentation and columns: nothing that stands in a comment or a string decides what is
    declared, where, in which block or with which parameters. -/
theorem hidden_text_has_no_influence (syn : ModuleSyntax) (uri : Uri) {first second : String}
    (h : maskCode (splitLines first) = maskCode (splitLines second)) :
    (table syn uri first).coarse = (table syn uri second).coarse := by
  have hcode : (Source.ofText first).code = (Source.ofText second).code := h
  have hsymbols : ((findings syn (Source.ofText first).code).flatMap
        (symbols (.ofText uri first))).map (·.coarse)
      = ((findings syn (Source.ofText second).code).flatMap
        (symbols (.ofText uri second))).map (·.coarse) := by
    rw [List.map_flatMap, List.map_flatMap, ← hcode]
    refine congrArg List.flatten (List.map_congr_left fun found hfound => ?_)
    exact symbols_coarse_eq uri h hfound
  simp only [table, SymbolTable.coarse, Page.ofText] at hsymbols ⊢
  rw [hsymbols, hcode]

/-- A brace in a string, or a letter of two bytes in place of two letters, changes no block. -/
theorem hidden_braces_have_no_influence :
    maskCode (splitLines "def f() \x7b s = \"é\"; t = 1 \x7d // \x7b")
        = maskCode (splitLines "def f() \x7b s = \"\x7d\x7b\"; t = 1 \x7d /**/")
      ∧ (table .standard ⟨"file:///f"⟩ "def f() \x7b s = \"é\"; t = 1 \x7d // \x7b").coarse
        = (table .standard ⟨"file:///f"⟩ "def f() \x7b s = \"\x7d\x7b\"; t = 1 \x7d /**/").coarse :=
  ⟨by decide, hidden_text_has_no_influence .standard _ (by decide)⟩

end Outline

end ScriptServer

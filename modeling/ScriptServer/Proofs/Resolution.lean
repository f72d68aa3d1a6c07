import ScriptServer.Proofs.BodySearch
import ScriptServer.Proofs.NameOrder
import ScriptServer.Proofs.Shadowing
import ScriptServer.Proofs.Text.Adjacent

namespace ScriptServer

/-!
# Variables under the cursor

With the cursor on the name of a variable, its declaration is found by reading the token there and
looking up what it means.  A token goes as far as identifier characters go, a declared name as far as
word characters go.

* `Token.at?_name` — the token on a name is the part of it that holds identifier characters.
* `Outline.resolveShadowing_variable` — at its name a variable hides all its namesakes.
* `Workspace.variable_resolves_to_itself_iff` — so a variable is found exactly when its name holds
  nothing but identifier characters.
-/

open Text

namespace Text

theorem isIdent_of_startsName {c : Char} (h : startsName c = true) : isIdent c = true := by
  rw [startsName, Bool.or_eq_true, beq_iff_eq] at h
  rcases h with halpha | rfl
  · rw [isIdent, isLetter_of_isAlpha halpha]
    rfl
  · decide

end Text

namespace Token

/-! ### The token on a name -/

/-- A character that neither goes on with a token nor calls it. -/
structure EndsToken (c : Char) : Prop where
  not_ident : isIdent c = false
  ne_colon : c ≠ ':'
  ne_paren : c ≠ '('

theorem endsToken_of_isBlank {c : Char} (h : isBlank c = true) : EndsToken c := by
  refine ⟨isIdent_eq_false_of_isBlank h, ?_, ?_⟩ <;>
  · rintro rfl
    exact absurd h (by decide)

/-- Without a separator no members are read. -/
theorem readMembers_eq_nil {text : Line} (h : ∀ c ∈ text.head?, c ≠ ':') :
    readMembers [':', ':'] text = [] := by
  have hnone : readMember? [':', ':'] text = none := by
    cases text with
    | nil => rfl
    | cons c rest => simp [readMember?, after?, Ne.symm (h c rfl)]
  rw [readMembers]
  split
  next => rfl
  next heq => rw [hnone] at heq; cases heq

/-- A token ends where neither an identifier character nor a separator follows. -/
theorem reach_eq {text : Line} (h : ∀ c ∈ (text.dropWhile isIdent).head?, c ≠ ':') :
    reach [':', ':'] text = text.takeWhile isIdent := by
  rw [reach, readMembers_eq_nil h, List.append_nil]

theorem reach_eq_nil {text : Line} (h : ∀ c ∈ text.head?, EndsToken c) :
    reach [':', ':'] text = [] := by
  cases text with
  | nil => rw [reach_eq (by simp)]; rfl
  | cons c rest =>
    have hc := h c rfl
    have hident : ¬ isIdent c = true := by simp [hc.not_ident]
    rw [reach_eq, List.takeWhile_cons_of_neg hident]
    rw [List.dropWhile_cons_of_neg hident]
    rintro d ⟨⟩
    exact hc.ne_colon

theorem takeWhile_isIdent_append {right : Line} (h : ∀ c ∈ right.head?, isIdent c = false)
    (name : Line) :
    (name ++ right).takeWhile isIdent = name.takeWhile isIdent
      ∧ (name ++ right).dropWhile isIdent = name.dropWhile isIdent ++ right := by
  induction name with
  | nil =>
    cases right with
    | nil => exact ⟨rfl, rfl⟩
    | cons c rest =>
      have hc : ¬ isIdent c = true := by simp [h c rfl]
      exact ⟨List.takeWhile_cons_of_neg hc, List.dropWhile_cons_of_neg hc⟩
  | cons c name ih =>
    by_cases hc : isIdent c = true
    · simp [hc, ih]
    · simp [hc]

/-- Behind the identifier characters of a name stands another word character or what follows the
    name. -/
theorem head?_dropWhile_name {name right : Line} (hname : IsName name)
    (hright : ∀ c ∈ right.head?, EndsToken c) :
    ∀ c ∈ (name.dropWhile isIdent ++ right).head?, c ≠ ':' ∧ c ≠ '(' := by
  intro c hc
  cases hrest : name.dropWhile isIdent with
  | nil =>
    rw [hrest, List.nil_append] at hc
    exact ⟨(hright c hc).ne_colon, (hright c hc).ne_paren⟩
  | cons d rest =>
    rw [hrest, List.cons_append, List.head?_cons] at hc
    obtain rfl := Option.some.inj hc
    have hword : isWord d = true :=
      hname.isWord d ((List.dropWhile_suffix isIdent).subset (by rw [hrest]; simp))
    constructor <;>
    · rintro rfl
      exact absurd hword (by decide)

/-- **The token on a name** is the part of it that holds identifier characters. -/
theorem inLine?_name {left name right : Line} (number : Nat) (hname : IsName name)
    (hleft : ∀ c ∈ left.getLast?, EndsToken c) (hright : ∀ c ∈ right.head?, EndsToken c) :
    inLine? number (left ++ name ++ right) (size left) [':', ':']
      = some ⟨name.takeWhile isIdent,
          ⟨⟨number, width left⟩, ⟨number, width left + width (name.takeWhile isIdent)⟩⟩, false⟩ := by
  obtain ⟨htake, hdrop⟩ :=
    takeWhile_isIdent_append (fun c hc => (hright c hc).not_ident) name
  have hstop := head?_dropWhile_name hname hright
  have hreach : reach [':', ':'] (name ++ right) = name.takeWhile isIdent := by
    rw [reach_eq (fun c hc => (hstop c (hdrop ▸ hc)).1), htake]
  have hback : reach [':', ':'] left.reverse = [] :=
    reach_eq_nil (by rwa [List.head?_reverse])
  have hfirst : (name ++ right).head?.any isIdent = true := by
    obtain ⟨c, word, rfl, hc, -⟩ := hname
    exact isIdent_of_startsName hc
  have hcut : name ++ right = name.takeWhile isIdent ++ (name.dropWhile isIdent ++ right) := by
    rw [← List.append_assoc, List.takeWhile_append_dropWhile]
  have hcall : ((name ++ right).drop (name.takeWhile isIdent).length).head? ≠ some '(' := by
    rw [hcut, List.drop_left]
    intro hparen
    exact (hstop '(' hparen).2 rfl
  have hlast : columnAt (left ++ (name ++ right)) (size left + size (name.takeWhile isIdent))
      = width left + width (name.takeWhile isIdent) := by
    rw [hcut, ← List.append_assoc, ← size_append, columnAt_size, width_append]
  have hreverse : [':', ':'].reverse = [':', ':'] := rfl
  rw [List.append_assoc, inLine?, splitAtOffset_size]
  simp only [hreverse, hback, hreach, hfirst, hlast, columnAt_size, Bool.or_true, if_true, size,
    List.reverse_nil, List.nil_append, Nat.sub_zero, beq_eq_false_iff_ne.mpr hcall]

end Token

namespace Declaration

/-- A variable that is found is assigned on its line. -/
theorem exists_binding_of_mem_findings {syn : ModuleSyntax} {code : List Line} {name : String}
    {span : Span} (h : .assigns name span ∈ findings syn code) :
    ∃ b : Binding, b.IsAssignment ∧ code[span.line]? = some b.line ∧ name = String.ofList b.name
      ∧ span = ⟨span.line, b.offset, b.offset + size b.name⟩ := by
  rcases exists_line_of_mem_findings h with ⟨_, _, habsurd⟩ | ⟨above, text, below, rfl, hon⟩
  · cases habsurd
  · cases hon with
    | assigns hassigned =>
      obtain ⟨seen, hseen, heq⟩ := exists_seen text
      rw [heq] at hassigned
      obtain ⟨b, hb, rfl⟩ := List.mem_map.mp hassigned
      obtain ⟨rfl, hassigns, -⟩ := (hseen.mem_iff b).mp hb
      exact ⟨b, hassigns, by simp, rfl, rfl⟩

open Token

/-- Before the name of a variable stands a blank, or the character that the statement follows. -/
theorem Binding.IsAssignment.endsToken_before {b : Binding} (hb : b.IsAssignment) {c : Char}
    (hc : c ∈ (b.front ++ b.gap).getLast?) : EndsToken c := by
  by_cases hgap : b.gap = []
  · rw [hgap, List.append_nil] at hc
    rcases hb.begins with hnil | hsemicolon | hbrace
    · rw [hnil] at hc
      cases hc
    · obtain rfl := Option.some.inj (hsemicolon.symm.trans hc)
      exact ⟨by decide, by decide, by decide⟩
    · obtain rfl := Option.some.inj (hbrace.symm.trans hc)
      exact ⟨by decide, by decide, by decide⟩
  · rw [List.getLast?_append_of_ne_nil _ hgap] at hc
    exact endsToken_of_isBlank (List.all_eq_true.mp hb.gap c (List.mem_of_getLast? hc))

/-- Behind the name of a variable stands a blank or the equals sign. -/
theorem Binding.IsAssignment.endsToken_behind {b : Binding} (hb : b.IsAssignment) {c : Char}
    (hc : c ∈ (b.space ++ '=' :: b.right).head?) : EndsToken c := by
  cases hspace : b.space with
  | nil =>
    rw [hspace] at hc
    obtain rfl := Option.some.inj hc
    exact ⟨by decide, by decide, by decide⟩
  | cons d space =>
    rw [hspace] at hc
    obtain rfl := Option.some.inj hc
    exact endsToken_of_isBlank (List.all_eq_true.mp hb.space d (by simp [hspace]))

/-- **The name of a variable as it is written:** nothing next to it goes on with it. -/
theorem Binding.IsAssignment.exists_written {text : String} {n : Nat} {b : Binding}
    (hb : b.IsAssignment) (hline : (Source.ofText text).code[n]? = some b.line) :
    ∃ left right, (splitLines text)[n]? = some (left ++ b.name ++ right) ∧ size left = b.offset
      ∧ (∀ c ∈ left.getLast?, EndsToken c) ∧ ∀ c ∈ right.head?, EndsToken c := by
  have hcut : b.line = (b.front ++ b.gap) ++ b.name ++ (b.space ++ '=' :: b.right) := by
    simp [Binding.line, Binding.upToEquals]
  rw [hcut] at hline
  obtain ⟨left, right, hwritten, hsize, hleft, hright⟩ :=
    exists_word_of_code hb.name.ne_nil hb.name.isWord hline
  -- a comment next to the name begins or ends with a slash
  have hslash : EndsToken '/' := ⟨by decide, by decide, by decide⟩
  refine ⟨left, right, hwritten, hsize, fun c hc => ?_, fun c hc => ?_⟩
  · rcases hleft c hc with rfl | hbefore
    · exact hslash
    · exact hb.endsToken_before hbefore
  · rcases hright c hc with rfl | hbehind
    · exact hslash
    · exact hb.endsToken_behind hbehind

end Declaration

namespace Outline

open Declaration

/-- A variable comes from a name that is assigned. -/
theorem eq_assigns_of_mem_symbols {page : Page} {found : Finding} {v : Symbol}
    (hv : v ∈ symbols page found) (hkind : v.kind = .var) :
    ∃ name span, found = .assigns name span ∧ v = variableSymbol page name span := by
  cases found with
  | assigns name span => exact ⟨name, span, rfl, List.mem_singleton.mp hv⟩
  | function header =>
    rcases List.mem_cons.mp hv with rfl | hparameter
    · cases hkind
    · obtain ⟨parameter, -, rfl⟩ := List.mem_map.mp hparameter
      cases hkind
  | _ =>
    cases List.mem_singleton.mp hv
    cases hkind

theorem exists_assigns_of_mem_table {syn : ModuleSyntax} {uri : Uri} {text : String} {v : Symbol}
    (hv : v ∈ (table syn uri text).symbols) (hkind : v.kind = .var) :
    ∃ name span, .assigns name span ∈ findings syn (Source.ofText text).code
      ∧ v = variableSymbol (.ofText uri text) name span := by
  obtain ⟨found, hfound, hmem⟩ := exists_finding_of_mem_table hv
  obtain ⟨name, span, rfl, heq⟩ := eq_assigns_of_mem_symbols hmem hkind
  exact ⟨name, span, hfound, heq⟩

/-- **The token on the name of a variable.** -/
theorem at?_variable {syn : ModuleSyntax} {uri : Uri} {text : String} {v : Symbol}
    (hv : v ∈ (table syn uri text).symbols) (hkind : v.kind = .var) :
    v.range = ⟨v.position, ⟨v.position.line, v.position.column + width v.name.toList⟩⟩
      ∧ Token.at? (splitLines text) v.position [':', ':']
        = some ⟨v.name.toList.takeWhile isIdent, ⟨v.position, ⟨v.position.line,
            v.position.column + width (v.name.toList.takeWhile isIdent)⟩⟩, false⟩ := by
  obtain ⟨name, ⟨n, start, stop⟩, hfound, rfl⟩ := exists_assigns_of_mem_table hv hkind
  obtain ⟨b, hb, hline, rfl, hspan⟩ := exists_binding_of_mem_findings hfound
  obtain ⟨left, right, hwritten, hsize, hleft, hright⟩ := hb.exists_written hline
  simp only [Span.mk.injEq, true_and] at hspan
  have hlines : (splitLines text).getD n [] = left ++ b.name ++ right := by
    rw [List.getD_eq_getElem?_getD, hwritten]
    rfl
  have hfirst : columnAt (left ++ b.name ++ right) start = width left := by
    rw [hspan.1, ← hsize, List.append_assoc, columnAt_size]
  have hlast : columnAt (left ++ b.name ++ right) stop = width left + width b.name := by
    rw [hspan.2, ← hsize, ← size_append, columnAt_size, width_append]
  have hrange : (variableSymbol (.ofText uri text) (String.ofList b.name) ⟨n, start, stop⟩).range
      = ⟨⟨n, width left⟩, ⟨n, width left + width b.name⟩⟩ := by
    rw [← hlast, ← hfirst, ← hlines]
    rfl
  have hname : (variableSymbol (.ofText uri text) (String.ofList b.name) ⟨n, start, stop⟩).name.toList
      = b.name := String.toList_ofList
  rw [Symbol.position, hrange, hname]
  refine ⟨rfl, ?_⟩
  have htoken := Token.inLine?_name n hb.name hleft hright
  have hoffset := Text.offsetAt_width left (b.name ++ right)
  rw [← List.append_assoc] at hoffset
  simp only [Token.at?, hwritten, Option.bind_eq_bind, Option.bind_some, hoffset, htoken]

/-! ### Namesakes of a variable -/

/-- Variables are listed in the order of their names. -/
theorem pairwise_variables (syn : ModuleSyntax) (uri : Uri) (text : String) :
    (table syn uri text).symbols.Pairwise fun a b =>
      a.kind = .var → b.kind = .var → a.position < b.position := by
  show ((findings syn (Source.ofText text).code).flatMap (symbols (.ofText uri text))).Pairwise _
  rw [List.pairwise_flatMap]
  constructor
  · intro found _
    cases found with
    | function header =>
      refine List.pairwise_of_forall_mem_list fun a ha b hb hkind => ?_
      obtain ⟨_, _, habsurd, -⟩ := eq_assigns_of_mem_symbols ha hkind
      cases habsurd
    | _ => exact List.pairwise_singleton _ _
  · refine (pairwise_findings syn (Source.ofText text).code).imp_of_mem ?_
    intro found found' hfound hfound' hprecedes a ha b hb hkind hkind'
    obtain ⟨name, span, rfl, rfl⟩ := eq_assigns_of_mem_symbols ha hkind
    obtain ⟨name', span', rfl, rfl⟩ := eq_assigns_of_mem_symbols hb hkind'
    exact (Source.position_lt_iff (visible_start_of_mem_findings hfound rfl)
      (visible_start_of_mem_findings hfound' rfl)).mpr (hprecedes _ rfl _ rfl)

/-- Two variables have two places. -/
theorem position_ne_of_ne {syn : ModuleSyntax} {uri : Uri} {text : String} {a b : Symbol}
    (ha : a ∈ (table syn uri text).symbols) (hkind : a.kind = .var)
    (hb : b ∈ (table syn uri text).symbols) (hkind' : b.kind = .var) (hne : a ≠ b) :
    a.position ≠ b.position := by
  have hordered := pairwise_variables syn uri text
  have hall := List.Pairwise.forall_of_forall_of_flip
    (R := fun a b : Symbol => a ≠ b → a.kind = .var → b.kind = .var → a.position ≠ b.position)
    (fun _ _ hself => absurd rfl hself)
    (hordered.imp fun hlt _ hkind hkind' heq =>
      Position.lt_irrefl (heq ▸ hlt hkind hkind'))
    (hordered.imp fun hlt _ hkind hkind' heq =>
      Position.lt_irrefl (heq ▸ hlt hkind' hkind))
  exact hall ha hb hne hkind hkind'

theorem scope_variableSymbol (page : Page) (name : String) (span : Span) :
    (variableSymbol page name span).scope = ⟨(page.source.range span).first,
      (innermost page.blocks (page.source.range span).first page.whole).last⟩ := rfl

/-- A variable can be used from its name on, and at the name already. -/
theorem scope_variable {syn : ModuleSyntax} {uri : Uri} {text : String} {v : Symbol}
    (hv : v ∈ (table syn uri text).symbols) (hkind : v.kind = .var) :
    v.scope.first = v.position ∧ v.scope.contains v.position = true := by
  obtain ⟨name, span, hfound, rfl⟩ := exists_assigns_of_mem_table hv hkind
  rw [scope_variableSymbol]
  refine ⟨rfl, Range.contains_iff.mpr ⟨Position.le_refl _, ?_⟩⟩
  simp only [Page.ofText, Symbol.position, variableSymbol]
  rcases Source.innermost_blocks_cases text ((Source.ofText text).range span).first
    (Source.ofText text).whole with ⟨r, -, hpoint, heq, -⟩ | ⟨-, heq⟩
  · rw [heq]
    exact (Range.contains_iff.mp hpoint).2
  · rw [heq]
    exact Position.le_of_lt (Source.position_lt_whole (visible_start_of_mem_findings hfound rfl))

/-- A spot holds one character. -/
theorem eq_of_mem_stream {source : Source} {c d : Char} {spot : Spot}
    (hc : (c, spot) ∈ source.stream) (hd : (d, spot) ∈ source.stream) : c = d := by
  obtain ⟨before, after, hline, hsize⟩ := Source.mem_stream.mp hc
  obtain ⟨before', after', hline', hsize'⟩ := Source.mem_stream.mp hd
  have hcut := splitAtOffset_size before (c :: after)
  have hcut' := splitAtOffset_size before' (d :: after')
  rw [← hline, hsize] at hcut
  rw [← hline', hsize', hcut] at hcut'
  exact (List.cons.inj (Prod.mk.inj hcut').2).1

/-- The scope of a parameter begins with a brace and not with a name. -/
theorem scope_first_ne_position {syn : ModuleSyntax} {uri : Uri} {text : String} {v p : Symbol}
    (hv : v ∈ (table syn uri text).symbols) (hkind : v.kind = .var)
    (hp : p ∈ (table syn uri text).symbols) (hparam : p.kind = .param) :
    p.scope.first ≠ v.position := by
  obtain ⟨name, span, hfound, rfl⟩ := exists_assigns_of_mem_table hv hkind
  obtain ⟨owner, scope, hrole⟩ : ∃ owner scope, p.role = .param owner scope := by
    cases hrole : p.role with
    | param owner scope => exact ⟨owner, scope, rfl⟩
    | _ => simp [Symbol.kind, hrole] at hparam
  have hblock := (body_mem_blocks hp).2 owner scope hrole
  obtain ⟨opens, closes, hmatched, rfl⟩ := Source.mem_blocks_iff.mp hblock
  intro heq
  have hscope : p.scope.first = (Source.ofText text).position opens := by
    simp [Symbol.scope, hrole]
  have hspot : opens = ⟨span.line, span.start⟩ :=
    Source.eq_of_position_eq hmatched.visible.1 (visible_start_of_mem_findings hfound rfl)
      (hscope.symm.trans heq)
  obtain ⟨b, hb, hline, rfl, hspan⟩ := exists_binding_of_mem_findings hfound
  obtain ⟨c, word, hname, hc, -⟩ := hb.name
  have hletter : (c, opens) ∈ (Source.ofText text).stream := by
    refine Source.mem_stream.mpr ⟨b.front ++ b.gap, word ++ b.space ++ '=' :: b.right, ?_, ?_⟩
    · rw [hspot, List.getD_eq_getElem?_getD, hline]
      simp [Binding.line, Binding.upToEquals, hname]
    · rw [hspot, hspan]
      rfl
  obtain rfl := eq_of_mem_stream hletter hmatched.mem_stream
  exact absurd hc (by decide)

/-- The latest beginning of a name is the beginning of a symbol with it. -/
theorem exists_of_latestStart? {name : String} {symbols : List Symbol} {best : Position}
    (h : latestStart? name symbols = some best) :
    ∃ s ∈ symbols, s.name = name ∧ s.scope.first = best := by
  induction symbols generalizing best with
  | nil => cases h
  | cons first rest ih =>
    have hlater : latestStart? name rest = some best →
        ∃ s ∈ first :: rest, s.name = name ∧ s.scope.first = best := by
      intro hrest
      obtain ⟨s, hs, heq⟩ := ih hrest
      exact ⟨s, List.mem_cons_of_mem _ hs, heq⟩
    rw [latestStart?] at h
    split at h
    next hname =>
      split at h
      next => exact ⟨first, List.mem_cons_self, hname, Option.some.inj h⟩
      next best' hrest =>
        rw [Position.latest] at h
        split at h
        · exact hlater (hrest.trans h)
        · exact ⟨first, List.mem_cons_self, hname, Option.some.inj h⟩
    next => exact hlater h

/-- Where nothing is called, variables and parameters fit. -/
theorem fits_iff {token : Token} (hcall : token.isCall = false) (s : Symbol) :
    Workspace.fits token s = true ↔ s.kind = .var ∨ s.kind = .param := by
  cases hkind : s.kind <;> simp [Workspace.fits, hkind, hcall]

/-- The scope of a namesake that is usable at the name of a variable begins before the name. -/
theorem first_lt_position {syn : ModuleSyntax} {uri : Uri} {text : String} {v s : Symbol}
    (hv : v ∈ (table syn uri text).symbols) (hkind : v.kind = .var)
    (hs : s ∈ (table syn uri text).symbols) (hkind' : s.kind = .var ∨ s.kind = .param)
    (husable : s.scope.contains v.position = true) (hne : s ≠ v) :
    s.scope.first < v.position := by
  have hle := (Range.contains_iff.mp husable).1
  have hdistinct : s.scope.first ≠ v.position := by
    rcases hkind' with hvar | hparam
    · rw [(scope_variable hs hvar).1]
      exact position_ne_of_ne hs hvar hv hkind hne
    · exact scope_first_ne_position hv hkind hs hparam
  exact Position.not_le.mp fun hge => hdistinct (Position.le_antisymm hle hge)

/-- **At its name a variable hides all its namesakes** that are variables or parameters, and it is
    listed once. -/
theorem resolveShadowing_variable {syn : ModuleSyntax} {uri : Uri} {text : String} {v : Symbol}
    (hv : v ∈ (table syn uri text).symbols) (hkind : v.kind = .var) {token : Token}
    (hcall : token.isCall = false) :
    resolveShadowing
      ((table syn uri text).symbols.filter fun s => s.name = v.name && Workspace.fits token s)
      v.position = [v] := by
  generalize hown : ((table syn uri text).symbols.filter fun s =>
    s.name = v.name && Workspace.fits token s) = own
  have hmem : ∀ s, s ∈ inScope own v.position ↔ s ∈ (table syn uri text).symbols ∧ s.name = v.name
      ∧ (s.kind = .var ∨ s.kind = .param) ∧ s.scope.contains v.position = true := by
    intro s
    simp only [← hown, inScope, List.mem_filter, Bool.and_eq_true, decide_eq_true_eq,
      fits_iff hcall, and_assoc]
  have hin : v ∈ inScope own v.position :=
    (hmem v).mpr ⟨hv, rfl, .inl hkind, (scope_variable hv hkind).2⟩
  have hbegins := (scope_variable hv hkind).1
  have hfirst : ∀ s ∈ inScope own v.position, s ≠ v → s.scope.first < v.scope.first := by
    intro s hs hne
    obtain ⟨hs, -, hkind', husable⟩ := (hmem s).mp hs
    rw [hbegins]
    exact first_lt_position hv hkind hs hkind' husable hne
  -- nothing but the variable is left
  have hall : ∀ s ∈ resolveShadowing own v.position, s = v := by
    intro s hs
    by_contra hne
    have hs' := (mem_resolveShadowing.mp hs).1
    exact not_mem_resolveShadowing hin ((hmem s).mp hs').2.1.symm (hfirst s hs' hne) hs
  have hself : v ∈ resolveShadowing own v.position := by
    refine mem_resolveShadowing.mpr ⟨hin, ?_⟩
    obtain ⟨best, hbest, hle⟩ := exists_latestStart? hin
    obtain ⟨s, hs, -, heq⟩ := exists_of_latestStart? hbest
    rw [hbest]
    by_cases hsv : s = v
    · rw [← heq, hsv]
    · have hlt := hfirst s hs hsv
      rw [heq] at hlt
      exact absurd hle (Position.not_le.mpr hlt)
  have hsorted : (resolveShadowing own v.position).Pairwise fun a b =>
      a.kind = .var → b.kind = .var → a.position < b.position := by
    rw [← hown]
    exact (((pairwise_variables syn uri text).filter _).filter _).filter _
  cases hfound : resolveShadowing own v.position with
  | nil => rw [hfound] at hself; cases hself
  | cons first rest =>
    rw [hfound] at hall hsorted
    obtain ⟨rfl, hrest⟩ := List.forall_mem_cons.mp hall
    cases rest with
    | nil => rfl
    | cons second rest =>
      obtain rfl := hrest second List.mem_cons_self
      exact absurd ((List.pairwise_cons.mp hsorted).1 second List.mem_cons_self hkind hkind)
        Position.lt_irrefl

end Outline

namespace Workspace

/-! ### Definitions -/

theorem symbols_openDocument (workspace : Workspace) (uri : Uri) (text : String) :
    (workspace.openDocument uri text).symbols uri
      = (Outline.table workspace.syn uri text).symbols := by
  simp [symbols, table?, openDocument, update, syn]

theorem syn_openDocument (workspace : Workspace) (uri : Uri) (text : String) :
    (workspace.openDocument uri text).syn = workspace.syn := rfl

/-- Only functions are taken from other modules. -/
theorem kind_of_mem_findAcrossImports {workspace : Workspace} {uri : Uri} {name : String}
    {s : Symbol} (h : s ∈ workspace.findAcrossImports uri name) : s.kind = .func := by
  have hfunction : ∀ module, s ∈ workspace.moduleFunctions module → s.kind = .func := by
    intro module hs
    obtain ⟨table, -, hexported⟩ := List.mem_flatMap.mp hs
    have htop := (List.mem_filter.mp hexported).2
    cases hrole : s.role with
    | func => simp [Symbol.kind, hrole]
    | _ => simp [Symbol.isTopLevelFunction, hrole] at htop
  unfold findAcrossImports at h
  split at h
  next module member _ => exact hfunction _ (List.mem_filter.mp h).1
  next =>
    obtain ⟨module, -, hs⟩ := List.mem_flatMap.mp (List.mem_filter.mp h).1
    exact hfunction module hs

/-- A name means symbols with this name, or functions of other modules. -/
theorem name_or_kind_of_mem_findSymbol {workspace : Workspace} {uri : Uri} {name : String}
    {point : Position} {accept : Symbol → Bool} {s : Symbol}
    (h : s ∈ workspace.findSymbol uri name point accept) : s.name = name ∨ s.kind = .func := by
  unfold findSymbol at h
  dsimp only at h
  split at h
  next => exact .inr (kind_of_mem_findAcrossImports (List.mem_filter.mp h).1)
  next =>
    have hown := (List.mem_filter.mp (mem_resolveShadowing.mp h).1).1
    have hname := (List.mem_filter.mp hown).2
    rw [Bool.and_eq_true, decide_eq_true_eq] at hname
    exact .inl hname.1

/-- The name of a module leads to modules. -/
theorem kind_of_mem_moduleTargets {workspace : Workspace} {name : String} {s : Symbol}
    (h : s ∈ workspace.moduleTargets name) : s.kind = .mod := by
  obtain ⟨entry, -, htarget⟩ := List.mem_filterMap.mp h
  simp only [moduleTarget?, Option.bind_eq_bind, Option.bind_eq_some_iff] at htarget
  obtain ⟨uri, -, htarget⟩ := htarget
  split at htarget
  next line hline =>
    obtain rfl := Option.some.inj htarget
    obtain ⟨table, -, hfind⟩ := Option.bind_eq_some_iff.mp hline
    have hkind := List.find?_some hfind
    rw [Bool.and_eq_true, decide_eq_true_eq] at hkind
    exact hkind.1
  next =>
    obtain rfl := Option.some.inj htarget
    rfl

/-- What a token leads to has its text as name, or is no variable. -/
theorem name_or_kind_of_mem_definition {workspace : Workspace} {uri : Uri} {text : String}
    {point : Position} {token : Token} {s : Symbol}
    (htoken : Token.at? (splitLines text) point workspace.syn.separator = some token)
    (h : s ∈ workspace.definition uri text point) :
    s.name = String.ofList token.text ∨ s.kind ≠ .var := by
  simp only [definition, resolve?, htoken, Option.bind_eq_bind, Option.bind_some] at h
  cases hfound : workspace.findSymbol uri (String.ofList token.text) point (fits token) with
  | nil =>
    rw [hfound] at h
    refine .inr ?_
    by_cases hcall : token.isCall = true
    · simp [hcall] at h
    · have htarget : s ∈ workspace.moduleTargets (String.ofList token.text) := by
        simpa [hcall] using h
      rw [kind_of_mem_moduleTargets htarget]
      decide
  | cons first rest =>
    have hs : s ∈ workspace.findSymbol uri (String.ofList token.text) point (fits token) := by
      rw [hfound] at h ⊢
      exact h
    refine (name_or_kind_of_mem_findSymbol hs).imp_right fun hkind => ?_
    rw [hkind]
    decide

section Opened

variable {workspace : Workspace} (hsyn : workspace.syn = .standard) {uri : Uri} {text : String}
  {v : Symbol} (hv : v ∈ (workspace.openDocument uri text).symbols uri) (hkind : v.kind = .var)

include hsyn hv hkind

theorem at?_opened :
    v.range = ⟨v.position, ⟨v.position.line, v.position.column + width v.name.toList⟩⟩
      ∧ Token.at? (splitLines text) v.position workspace.syn.separator
        = some ⟨v.name.toList.takeWhile isIdent, ⟨v.position, ⟨v.position.line,
            v.position.column + width (v.name.toList.takeWhile isIdent)⟩⟩, false⟩ := by
  rw [symbols_openDocument] at hv
  rw [hsyn]
  exact Outline.at?_variable hv hkind

/-- A variable whose name holds nothing but identifier characters is found. -/
theorem definition_eq_of_isIdent (h : ∀ c ∈ v.name.toList, isIdent c = true) :
    (workspace.openDocument uri text).definition uri text v.position = [v] := by
  obtain ⟨-, htoken⟩ := at?_opened hsyn hv hkind
  rw [List.takeWhile_eq_self_iff.mpr h] at htoken
  generalize htoken' : (⟨v.name.toList, _, false⟩ : Token) = token at htoken
  have hname : String.ofList token.text = v.name := by rw [← htoken', String.ofList_toList]
  have hcall : token.isCall = false := by rw [← htoken']
  have hfound : (workspace.openDocument uri text).findSymbol uri v.name v.position (fits token)
      = [v] := by
    rw [findSymbol, symbols_openDocument]
    rw [symbols_openDocument] at hv
    simp only [Outline.resolveShadowing_variable hv hkind hcall]
  simp only [definition, resolve?, syn_openDocument, htoken, Option.bind_eq_bind, Option.bind_some, hname,
    hfound]
  rfl

/-- A variable whose name holds another character is not found. -/
theorem not_mem_definition (h : ¬ ∀ c ∈ v.name.toList, isIdent c = true) :
    v ∉ (workspace.openDocument uri text).definition uri text v.position := by
  intro hmem
  obtain ⟨-, htoken⟩ := at?_opened hsyn hv hkind
  rw [← syn_openDocument workspace uri text] at htoken
  rcases name_or_kind_of_mem_definition htoken hmem with hname | hother
  · rw [← String.toList_inj, String.toList_ofList] at hname
    exact h (List.takeWhile_eq_self_iff.mp hname.symm)
  · exact hother hkind

end Opened

/-- **A variable under the cursor.**  After a document was opened, with the standard separator, the
    token on the name of a variable is the part of the name up to the first character that is no
    identifier character.  It is the whole name, with the range of the variable, exactly when there
    is no such character, and exactly then the definition found there is the variable itself. -/
theorem variable_resolves_to_itself_iff (workspace : Workspace) (hsyn : workspace.syn = .standard)
    (uri : Uri) (text : String) {v : Symbol}
    (hv : v ∈ (workspace.openDocument uri text).symbols uri) (hkind : v.kind = .var) :
    ((workspace.openDocument uri text).definition uri text v.position = [v]
        ↔ ∀ c ∈ v.name.toList, isIdent c = true)
      ∧ (Token.at? (splitLines text) v.position workspace.syn.separator
            = some ⟨v.name.toList, v.range, false⟩
          ↔ ∀ c ∈ v.name.toList, isIdent c = true)
      ∧ Token.at? (splitLines text) v.position workspace.syn.separator
        = some ⟨v.name.toList.takeWhile isIdent, ⟨v.position, ⟨v.position.line,
            v.position.column + width (v.name.toList.takeWhile isIdent)⟩⟩, false⟩ := by
  obtain ⟨hrange, htoken⟩ := at?_opened hsyn hv hkind
  refine ⟨⟨fun hfound => ?_, definition_eq_of_isIdent hsyn hv hkind⟩, ⟨fun hwhole => ?_, ?_⟩, htoken⟩
  · by_contra hnot
    exact not_mem_definition hsyn hv hkind hnot (by simp [hfound])
  · rw [htoken, Option.some.injEq, Token.mk.injEq] at hwhole
    exact List.takeWhile_eq_self_iff.mp hwhole.1
  · intro hident
    rw [htoken, List.takeWhile_eq_self_iff.mpr hident, ← hrange]

/-- A variable right behind a comment, in a text with a namesake. -/
theorem variable_behind_comment_resolves :
    ∃ v, (Workspace.ofSettings {}).syn = .standard
      ∧ v ∈ ((Workspace.ofSettings {}).openDocument ⟨"file:///f"⟩ "b = 1; /**/b = 2").symbols
          ⟨"file:///f"⟩
      ∧ v.kind = .var ∧ v.position = ⟨0, 11⟩
      ∧ ((Workspace.ofSettings {}).openDocument ⟨"file:///f"⟩ "b = 1; /**/b = 2").definition
          ⟨"file:///f"⟩ "b = 1; /**/b = 2" v.position = [v] := by
  have hv : ⟨"b", ⟨⟨0, 11⟩, ⟨0, 12⟩⟩, ⟨"file:///f"⟩, .var none ⟨⟨0, 11⟩, ⟨0, 16⟩⟩⟩
      ∈ ((Workspace.ofSettings {}).openDocument ⟨"file:///f"⟩ "b = 1; /**/b = 2").symbols
          ⟨"file:///f"⟩ := by decide
  refine ⟨_, by decide, hv, rfl, rfl, ?_⟩
  have hident : ∀ c ∈ ['b'], isIdent c = true := List.forall_mem_singleton.mpr (by decide)
  exact (variable_resolves_to_itself_iff (Workspace.ofSettings {}) (by decide) _ _ hv rfl).1.mpr
    hident

/-- A name with a combining accent goes on behind the token, and its variable is not found. -/
theorem accented_variable_not_found :
    ∃ v, v ∈ ((Workspace.ofSettings {}).openDocument ⟨"file:///f"⟩ "e\u0301 = 1").symbols
          ⟨"file:///f"⟩
      ∧ v.kind = .var ∧ v.position = ⟨0, 0⟩ ∧ v.name = "e\u0301"
      ∧ ((Workspace.ofSettings {}).openDocument ⟨"file:///f"⟩ "e\u0301 = 1").definition
          ⟨"file:///f"⟩ "e\u0301 = 1" v.position ≠ [v] := by
  have hv : ⟨"e\u0301", ⟨⟨0, 0⟩, ⟨0, 2⟩⟩, ⟨"file:///f"⟩, .var none ⟨⟨0, 0⟩, ⟨0, 6⟩⟩⟩
      ∈ ((Workspace.ofSettings {}).openDocument ⟨"file:///f"⟩ "e\u0301 = 1").symbols
          ⟨"file:///f"⟩ := by decide +kernel
  have hmark : ¬ ∀ c ∈ "e\u0301".toList, isIdent c = true :=
    fun h => absurd (h '\u0301' (by decide)) (by decide +kernel)
  refine ⟨_, hv, rfl, rfl, rfl, fun hfound => ?_⟩
  exact not_mem_definition (by decide) hv rfl hmark (by simp [hfound])

end Workspace

end ScriptServer

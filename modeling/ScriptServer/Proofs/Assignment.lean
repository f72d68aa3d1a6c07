import ScriptServer.Proofs.Header

namespace ScriptServer.Declaration

/-!
# The assignments of a line

A line of code is searched for assignments from left to right.  The character behind an equals sign
belongs to the assignment, so a statement that begins with this character is passed over.

* `Binding` — a place in a line where a name could be assigned, with the line around it.
* `Binding.IsAssignment` — a statement begins there, and a single equals sign follows the name.
* `Binding.Touches` — a statement begins with the character behind the equals sign of another one.
* `Seen` — some bindings are all the assignments from a place on, less those that touch one of them.
* `exists_seen` — what is found in a line are exactly such bindings.
-/

open Text

/-- A name in a line with an equals sign behind it, and all that stands around it. -/
structure Binding where
  /-- What stands before the statement. -/
  front : Line
  /-- The blanks before the name. -/
  gap : Line
  name : Line
  /-- The blanks between the name and the equals sign. -/
  space : Line
  /-- What stands behind the equals sign. -/
  right : Line

/-- A statement begins with the line, behind a semicolon or behind an opening brace. -/
def BeginsStatement (front : Line) : Prop :=
  front = [] ∨ front.getLast? = some ';' ∨ front.getLast? = some '{'

namespace Binding

/-- The line up to the equals sign, which is part of it. -/
def upToEquals (b : Binding) : Line := b.front ++ b.gap ++ b.name ++ b.space ++ ['=']

/-- The whole line. -/
def line (b : Binding) : Line := b.upToEquals ++ b.right

/-- The byte offset of the name. -/
def offset (b : Binding) : Nat := size (b.front ++ b.gap)

/-- The name as it is found. -/
def assigned (b : Binding) : Assigned := ⟨b.name, b.offset⟩

/-- The name is assigned: it is an identifier at the beginning of a statement, and the equals sign
    is not the first of two. -/
structure IsAssignment (b : Binding) : Prop where
  begins : BeginsStatement b.front
  gap : Blank b.gap
  name : IsName b.name
  space : Blank b.space
  single : b.right.head? ≠ some '='

/-- The second statement begins with the character behind the equals sign of the first. -/
def Touches (a b : Binding) : Prop := ∃ c, b.front = a.upToEquals ++ [c]

theorem line_eq (b : Binding) :
    b.line = b.front ++ (b.gap ++ b.name ++ b.space ++ ['='] ++ b.right) := by
  simp [line, upToEquals]

theorem front_isPrefix (b : Binding) : b.front <+: b.line := ⟨_, b.line_eq.symm⟩

theorem length_upToEquals (b : Binding) :
    b.upToEquals.length
      = b.front.length + b.gap.length + b.name.length + b.space.length + 1 := by
  simp [upToEquals]
  omega

end Binding

/-! ### One assignment -/

/-- How many characters an assignment takes up behind its equals sign. -/
def behindEquals (right : Line) : Nat := if right = [] then 0 else 1

/-- **An assignment at the beginning of a text:** perhaps blanks, a name, perhaps blanks, a single
    equals sign. -/
theorem assignmentAt?_eq_some_iff {text : Line} {found : Assignment} :
    assignmentAt? text = some found ↔ ∃ space right,
      text = found.gap ++ (found.name ++ (space ++ '=' :: right))
        ∧ Blank found.gap ∧ IsName found.name ∧ Blank space ∧ right.head? ≠ some '='
        ∧ found.length
          = found.gap.length + found.name.length + space.length + 1 + behindEquals right := by
  constructor
  · intro h
    simp only [assignmentAt?, Option.bind_eq_bind, Option.bind_eq_some_iff, Option.pure_def,
      Prod.exists] at h
    obtain ⟨name, rest, hname, right, hright, hfound⟩ := h
    have hword := isName_of_readName? hname
    have htext : trimStart text = name ++ rest := (readName?_eq_some hname).1
    have hrest : trimStart rest = '=' :: right := after?_eq_some_iff.mp hright
    have hline : text
        = text.takeWhile isBlank ++ (name ++ (rest.takeWhile isBlank ++ '=' :: right)) := by
      rw [← hrest, takeWhile_append_trimStart, ← htext, takeWhile_append_trimStart]
    cases right with
    | nil =>
      obtain rfl := Option.some.inj hfound
      exact ⟨_, [], hline, isBlankLine_takeWhile text, hword, isBlankLine_takeWhile rest, by simp,
        rfl⟩
    | cons c right =>
      simp only at hfound
      split at hfound
      · cases hfound
      · rename_i hc
        obtain rfl := Option.some.inj hfound
        exact ⟨_, c :: right, hline, isBlankLine_takeWhile text, hword,
          isBlankLine_takeWhile rest, by simpa using hc, by simp [behindEquals]⟩
  · obtain ⟨gap, name, length⟩ := found
    rintro ⟨space, right, rfl, hgap, hname, hspace, hsingle, hlength⟩
    simp only at hgap hname hlength ⊢
    have htake := takeWhile_isBlank_name hgap hname (space ++ '=' :: right)
    have htrim := trimStart_name hgap hname (space ++ '=' :: right)
    have hread : readName? (name ++ (space ++ '=' :: right)) = some (name, space ++ '=' :: right) :=
      readName?_append_stop hname (isWord_head_append hspace (by decide) right)
    have htrim' : trimStart (space ++ '=' :: right) = '=' :: right := by
      rw [trimStart_append hspace]
      exact trimStart_of_head (by decide) right
    have hequals : after? ['='] ('=' :: right) = some right := after?_eq_some_iff.mpr rfl
    have hspaces := takeWhile_isBlank_append hspace (show isBlank '=' = false by decide) right
    simp only [assignmentAt?, htake, htrim, hread, htrim', hequals, hspaces, Option.bind_eq_bind,
      Option.bind_some]
    cases right with
    | nil => simp [hlength, behindEquals]
    | cons c right =>
      have hc : c ≠ '=' := by simpa using hsingle
      simp [hc, hlength, behindEquals]

/-- What stands behind a statement's beginning tells whether an assignment begins there. -/
theorem Binding.IsAssignment.exists_assignmentAt? {b : Binding} (h : b.IsAssignment) {text : Line}
    (htext : b.line = b.front ++ text) :
    ∃ found, assignmentAt? text = some found ∧ found.gap = b.gap ∧ found.name = b.name := by
  refine ⟨⟨b.gap, b.name,
    b.gap.length + b.name.length + b.space.length + 1 + behindEquals b.right⟩, ?_, rfl, rfl⟩
  have hcut : text = b.gap ++ (b.name ++ (b.space ++ '=' :: b.right)) := by
    simpa [Binding.line, Binding.upToEquals] using htext.symm
  exact assignmentAt?_eq_some_iff.mpr
    ⟨b.space, b.right, hcut, h.gap, h.name, h.space, h.single, rfl⟩

/-- The line and the beginning of a statement leave no choice for the rest of an assignment. -/
theorem Binding.IsAssignment.eq_of_front {a b : Binding} (ha : a.IsAssignment)
    (hb : b.IsAssignment) (hline : a.line = b.line) (hfront : a.front = b.front) : a = b := by
  obtain ⟨front, gap, name, space, right⟩ := a
  obtain ⟨front', gap', name', space', right'⟩ := b
  obtain rfl : front = front' := hfront
  have htext : gap ++ (name ++ (space ++ '=' :: right))
      = gap' ++ (name' ++ (space' ++ '=' :: right')) := by
    simpa [Binding.line, Binding.upToEquals] using hline
  -- each part is as long as its characters go
  obtain rfl : gap = gap' := by
    have htake := congrArg (List.takeWhile isBlank) htext
    rwa [takeWhile_isBlank_name ha.gap ha.name, takeWhile_isBlank_name hb.gap hb.name] at htake
  have hread := congrArg readName? (List.append_cancel_left htext)
  rw [readName?_append_stop ha.name (isWord_head_append ha.space (by decide) right),
    readName?_append_stop hb.name (isWord_head_append hb.space (by decide) right')] at hread
  obtain ⟨rfl, hrest⟩ : name = name' ∧ space ++ '=' :: right = space' ++ '=' :: right' := by
    simpa using hread
  obtain rfl : space = space' := by
    have htake := congrArg (List.takeWhile isBlank) hrest
    rwa [takeWhile_isBlank_append ha.space (by decide),
      takeWhile_isBlank_append hb.space (by decide)] at htake
  obtain rfl : right = right' := by simpa using hrest
  rfl

/-! ### All assignments of a line -/

/-- The bindings are in order, and they are the assignments of the line whose statements begin no
    earlier than behind a number of characters, less those that touch one of the bindings. -/
structure Seen (line : Line) (start : Nat) (seen : List Binding) : Prop where
  sorted : seen.Pairwise fun a b => a.front.length < b.front.length
  mem_iff : ∀ b, b ∈ seen ↔ b.line = line ∧ b.IsAssignment ∧ start ≤ b.front.length
    ∧ ¬ ∃ a ∈ seen, a.Touches b

/-- A binding that touches another one begins before it. -/
theorem Binding.Touches.length_lt {a b : Binding} (h : a.Touches b) :
    a.front.length < b.front.length := by
  obtain ⟨c, hfront⟩ := h
  rw [hfront, List.length_append, a.length_upToEquals]
  omega

/-- Nothing begins behind the end of the line. -/
theorem seen_nil {line : Line} {start : Nat} (h : line.length < start) : Seen line start [] := by
  refine ⟨.nil, fun b => ⟨nofun, ?_⟩⟩
  rintro ⟨rfl, -, hstart, -⟩
  have hle := b.front_isPrefix.length_le
  omega

/-- A statement that begins no earlier than a place has all before the place in front of it. -/
theorem Binding.exists_front_eq {b : Binding} {front text : Line} (hline : b.line = front ++ text)
    (h : front.length ≤ b.front.length) : ∃ more, b.front = front ++ more ∧ more <+: text := by
  have hfrontOf : b.front <+: front ++ text := hline ▸ b.front_isPrefix
  obtain ⟨more, hmore⟩ := List.prefix_of_prefix_length_le (List.prefix_append front text) hfrontOf h
  rw [← hmore, List.prefix_append_right_inj] at hfrontOf
  exact ⟨more, hmore.symm, hfrontOf⟩

/-- Where no assignment begins, the next place is as good as this one. -/
theorem Seen.skip {line front text : Line} {seen : List Binding} (hline : line = front ++ text)
    (hnone : BeginsStatement front → assignmentAt? text = none)
    (h : Seen line (front.length + 1) seen) : Seen line front.length seen := by
  refine ⟨h.sorted, fun b => ?_⟩
  rw [h.mem_iff]
  constructor
  · rintro ⟨heq, hb, hstart, htouch⟩
    exact ⟨heq, hb, by omega, htouch⟩
  · rintro ⟨heq, hb, hstart, htouch⟩
    refine ⟨heq, hb, ?_, htouch⟩
    by_contra hshort
    -- the statement would begin right here
    obtain ⟨more, hfront, -⟩ := b.exists_front_eq (heq.trans hline) hstart
    obtain rfl : more = [] := by
      rw [hfront, List.length_append] at hshort
      exact List.eq_nil_of_length_eq_zero (by omega)
    rw [List.append_nil] at hfront
    have hcut : b.line = b.front ++ text := by rw [heq, hline, hfront]
    obtain ⟨found, hfound, -⟩ := hb.exists_assignmentAt? hcut
    rw [hnone (hfront ▸ hb.begins)] at hfound
    cases hfound

/-- The characters of an assignment up to its equals sign begin no statement. -/
theorem Binding.IsAssignment.not_separator {b : Binding} (h : b.IsAssignment) {c : Char}
    (hc : c = ';' ∨ c = '{') : c ∉ b.gap ++ b.name ++ b.space ++ ['='] := by
  have hblank : isBlank c = false := by rcases hc with rfl | rfl <;> decide
  have hword : isWord c = false := by rcases hc with rfl | rfl <;> decide
  have hequals : c ≠ '=' := by rcases hc with rfl | rfl <;> decide
  simp only [List.mem_append, List.mem_singleton, not_or]
  exact ⟨⟨⟨not_mem_of_isBlankLine h.gap hblank, h.name.not_mem hword⟩,
    not_mem_of_isBlankLine h.space hblank⟩, hequals⟩

/-- A statement that begins behind another one begins behind its equals sign. -/
theorem Binding.IsAssignment.exists_front_of_lt {a b : Binding} (ha : a.IsAssignment)
    (hb : b.IsAssignment) (hline : a.line = b.line) (hlt : a.front.length < b.front.length) :
    ∃ more, more ≠ [] ∧ b.front = a.upToEquals ++ more ∧ more <+: a.right := by
  obtain ⟨more, hfront, hmore⟩ := b.exists_front_eq (hline ▸ a.line_eq) hlt.le
  obtain ⟨c, hc, hlast⟩ : ∃ c, (c = ';' ∨ c = '{') ∧ more.getLast? = some c := by
    have hne : more ≠ [] := by rintro rfl; simp [hfront] at hlt
    have hlast : b.front.getLast? = more.getLast? := by
      rw [hfront, List.getLast?_append_of_ne_nil _ hne]
    rcases hb.begins with hnil | hsemicolon | hbrace
    · rw [hnil] at hlt
      cases hlt
    · exact ⟨';', .inl rfl, hlast ▸ hsemicolon⟩
    · exact ⟨'{', .inr rfl, hlast ▸ hbrace⟩
  -- the separator stands behind the equals sign
  rcases List.prefix_or_prefix_of_prefix hmore (List.prefix_append _ a.right) with
    hshort | ⟨rest, rfl⟩
  · exact absurd (hshort.subset (List.mem_of_getLast? hlast)) (ha.not_separator hc)
  · refine ⟨rest, ?_, ?_, (List.prefix_append_right_inj _).mp hmore⟩
    · rintro rfl
      rw [List.append_nil] at hlast
      exact ha.not_separator hc (List.mem_of_getLast? hlast)
    · rw [hfront]
      simp [upToEquals]

/-- Where an assignment begins, it comes first, and the search goes on behind what it takes up. -/
theorem Seen.cons {b : Binding} {seen : List Binding} (hb : b.IsAssignment)
    (h : Seen b.line (b.upToEquals.length + behindEquals b.right + 1) seen) :
    Seen b.line b.front.length (b :: seen) := by
  have hbehind : ∀ a ∈ seen, b.upToEquals.length + behindEquals b.right < a.front.length :=
    fun a ha => ((h.mem_iff a).mp ha).2.2.1
  have hlength := b.length_upToEquals
  refine ⟨List.pairwise_cons.mpr ⟨fun a ha => ?_, h.sorted⟩, fun a => ?_⟩
  · have := hbehind a ha
    omega
  constructor
  · intro ha
    rcases List.mem_cons.mp ha with rfl | hseen
    · refine ⟨rfl, hb, le_rfl, ?_⟩
      rintro ⟨c, hc, htouch⟩
      have hlt := htouch.length_lt
      rcases List.mem_cons.mp hc with rfl | hseen
      · omega
      · have := hbehind c hseen
        omega
    · obtain ⟨hline, ha, hstart, htouch⟩ := (h.mem_iff a).mp hseen
      refine ⟨hline, ha, by omega, ?_⟩
      rintro ⟨c, hc, htouch'⟩
      rcases List.mem_cons.mp hc with rfl | hc
      · -- the character behind the equals sign was passed over
        obtain ⟨d, hfront⟩ := htouch'
        have hright : c.right ≠ [] := by
          intro hnil
          have hle := a.front_isPrefix.length_le
          rw [hline, Binding.line, hnil, hfront, List.length_append, List.append_nil] at hle
          exact absurd hle (by simp)
        rw [hfront, behindEquals, if_neg hright, List.length_append] at hstart
        exact absurd hstart (by simp)
      · exact htouch ⟨c, hc, htouch'⟩
  · rintro ⟨hline, ha, hstart, htouch⟩
    rcases Nat.eq_or_lt_of_le hstart with heq | hlt
    · obtain ⟨more, hfront, -⟩ := a.exists_front_eq (hline.trans b.line_eq) hstart
      obtain rfl : more = [] := by
        rw [hfront, List.length_append] at heq
        exact List.eq_nil_of_length_eq_zero (by omega)
      rw [List.append_nil] at hfront
      exact List.mem_cons.mpr (.inl (ha.eq_of_front hb hline hfront))
    · obtain ⟨more, hne, hfront, hmore⟩ := hb.exists_front_of_lt ha hline.symm hlt
      refine List.mem_cons_of_mem b ((h.mem_iff a).mpr ⟨hline, ha, ?_, fun ⟨c, hc, htouch'⟩ =>
        htouch ⟨c, List.mem_cons_of_mem b hc, htouch'⟩⟩)
      have hright : b.right ≠ [] := by
        intro hnil
        rw [hnil, List.prefix_nil] at hmore
        exact hne hmore
      have hlong : more.length ≠ 1 := by
        intro hone
        obtain ⟨c, rfl⟩ := List.length_eq_one_iff.mp hone
        exact htouch ⟨b, List.mem_cons_self, c, hfront⟩
      have hpos := List.length_pos_iff.mpr hne
      rw [hfront, List.length_append, behindEquals, if_neg hright]
      omega

/-- The same for an assignment that is read from the text behind the beginning of a statement. -/
theorem Seen.found {front text : Line} {found : Assignment} {seen : List Binding}
    (hbegins : BeginsStatement front) (hfound : assignmentAt? text = some found)
    (h : Seen (front ++ text) (front.length + found.length + 1) seen) :
    ∃ b : Binding, b.assigned = ⟨found.name, size front + size found.gap⟩
      ∧ Seen (front ++ text) front.length (b :: seen) := by
  obtain ⟨space, right, rfl, hgap, hname, hspace, hsingle, hlength⟩ :=
    assignmentAt?_eq_some_iff.mp hfound
  let b : Binding := ⟨front, found.gap, found.name, space, right⟩
  have hline : front ++ (found.gap ++ (found.name ++ (space ++ '=' :: right))) = b.line := by
    simp [b, Binding.line, Binding.upToEquals]
  have hstart : front.length + found.length + 1
      = b.upToEquals.length + behindEquals b.right + 1 := by
    rw [hlength, b.length_upToEquals]
    simp only [b]
    omega
  rw [hline, hstart] at h
  refine ⟨b, ?_, ?_⟩
  · rw [← size_append]
    rfl
  · rw [hline]
    exact h.cons ⟨hbegins, hgap, hname, hspace, hsingle⟩

/-- **What the search for statements finds.**  It goes on from a place in the line, with some
    characters still to be passed over. -/
theorem exists_seen_after (rest : Line) (skip : Nat) (front : Line) :
    ∃ seen, Seen (front ++ rest) (front.length + skip + 1) seen
      ∧ assignmentsAfter skip (size front) rest = seen.map Binding.assigned := by
  induction rest generalizing skip front with
  | nil =>
    refine ⟨[], seen_nil (by rw [List.append_nil]; omega), ?_⟩
    cases skip <;> rfl
  | cons c rest ih =>
    have hline : front ++ c :: rest = (front ++ [c]) ++ rest := by simp
    have hlength : (front ++ [c]).length = front.length + 1 := by simp
    have hsize : size (front ++ [c]) = size front + c.utf8Size := by simp [size_append, size]
    cases skip with
    | succ skip =>
      obtain ⟨seen, hseen, heq⟩ := ih skip (front ++ [c])
      rw [← hline, hlength, Nat.add_right_comm front.length] at hseen
      exact ⟨seen, hseen, by rw [assignmentsAfter, ← hsize, heq]⟩
    | zero =>
      -- where no assignment begins, the search goes on with the next character
      have hskip : (BeginsStatement (front ++ [c]) → assignmentAt? rest = none) →
          ∃ seen, Seen (front ++ c :: rest) (front.length + 0 + 1) seen
            ∧ assignmentsAfter 0 (size front + c.utf8Size) rest
              = seen.map Binding.assigned := by
        intro hnone
        obtain ⟨seen, hseen, heq⟩ := ih 0 (front ++ [c])
        rw [← hline] at hseen
        have hhere := hseen.skip hline hnone
        rw [hlength] at hhere
        exact ⟨seen, hhere, by rw [← hsize, heq]⟩
      rw [assignmentsAfter]
      split
      next hc =>
        split
        next found hfound =>
          have hbegins : BeginsStatement (front ++ [c]) := by simpa [BeginsStatement] using hc
          obtain ⟨seen, hseen, heq⟩ := ih found.length (front ++ [c])
          obtain ⟨b, hassigned, hhere⟩ := hseen.found hbegins hfound
          rw [← hline, hlength] at hhere
          exact ⟨b :: seen, hhere, by rw [List.map_cons, hassigned, ← heq, hsize]⟩
        next hnone => exact hskip fun _ => hnone
      next hc =>
        refine hskip fun hbegins => absurd ?_ hc
        simpa [BeginsStatement] using hbegins

/-- **What is found in a line** are its assignments, less those that touch one that is found. -/
theorem exists_seen (line : Line) :
    ∃ seen, Seen line 0 seen ∧ assignments line = seen.map Binding.assigned := by
  rw [assignments]
  split
  next found hfound =>
    obtain ⟨seen, hseen, heq⟩ := exists_seen_after line found.length []
    obtain ⟨b, hassigned, hhere⟩ := hseen.found (.inl rfl) hfound
    refine ⟨b :: seen, hhere, ?_⟩
    rw [List.map_cons, hassigned, ← heq]
    simp [size]
  next hnone =>
    obtain ⟨seen, hseen, heq⟩ := exists_seen_after line 0 []
    exact ⟨seen, hseen.skip rfl fun _ => hnone, heq⟩

/-- Names come in the order of their statements. -/
theorem Binding.IsAssignment.offset_lt {a b : Binding} (ha : a.IsAssignment) (hb : b.IsAssignment)
    (hline : a.line = b.line) (hlt : a.front.length < b.front.length) : a.offset < b.offset := by
  obtain ⟨more, -, hfront, -⟩ := ha.exists_front_of_lt hb hline hlt
  have hpos := size_pos ha.name.ne_nil
  simp only [offset, hfront, upToEquals, size_append]
  omega

/-- Names are found from left to right. -/
theorem Seen.pairwise_offset {line : Line} {start : Nat} {seen : List Binding}
    (h : Seen line start seen) : seen.Pairwise fun a b => a.offset < b.offset := by
  refine h.sorted.imp_of_mem ?_
  intro a b ha hb hlt
  obtain ⟨hline, hassigns, -⟩ := (h.mem_iff a).mp ha
  obtain ⟨hline', hassigns', -⟩ := (h.mem_iff b).mp hb
  exact hassigns.offset_lt hassigns' (hline.trans hline'.symm) hlt

theorem pairwise_assignments (line : Line) :
    (assignments line).Pairwise fun a b => a.offset < b.offset := by
  obtain ⟨seen, hseen, heq⟩ := exists_seen line
  rw [heq, List.pairwise_map]
  exact hseen.pairwise_offset

end ScriptServer.Declaration

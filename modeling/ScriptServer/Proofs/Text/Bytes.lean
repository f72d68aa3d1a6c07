import ScriptServer.Proofs.Text.Projection
import ScriptServer.Proofs.Uri.FilePath

namespace ScriptServer.Text

/-!
# Masking byte by byte

The bytes of a mask can be had from the bytes of the lines without taking them for characters first.
Quotes, slashes, stars and backslashes are single bytes that occur in no other character, so reading
goes from character to character all the same, and blanking begins and ends between two of them.

* `bytes` — the bytes of a line.
* `ByteZone`, `ByteZone.step` — where reading stands between two bytes, and where a byte leads.
* `markBytes` — the marks of the bytes of a line.
* `agrees_markLine` — a byte has the mark of its character.
* `blankBytes`, `blankBytes_map_bytes` — blanking bytes gives the bytes of the mask.
-/

open Uri (bytesOf)

/-! ### The bytes of a line -/

/-- The bytes of a line in UTF-8. -/
def bytes (line : Line) : List Nat := line.flatMap bytesOf

@[simp] theorem bytes_nil : bytes [] = [] := rfl

@[simp] theorem bytes_cons (c : Char) (rest : Line) : bytes (c :: rest) = bytesOf c ++ bytes rest :=
  List.flatMap_cons

@[simp] theorem bytes_append (a b : Line) : bytes (a ++ b) = bytes a ++ bytes b :=
  List.flatMap_append

theorem length_bytesOf (c : Char) : (bytesOf c).length = c.utf8Size := by
  have h := congrArg List.length (Uri.map_toUInt8_bytesOf c)
  rwa [List.length_map, String.length_utf8EncodeChar] at h

/-- How many bytes a character has, by its first one. -/
def leadWidth (lead : Nat) : Nat :=
  if lead < 0x80 then 1 else if lead < 0xE0 then 2 else if lead < 0xF0 then 3 else 4

/-- The first byte of a character tells how many there are. -/
theorem exists_bytesOf_eq_cons (c : Char) :
    ∃ lead others, bytesOf c = lead :: others ∧ leadWidth lead = (bytesOf c).length := by
  have hlt := Uri.toNat_lt c
  unfold bytesOf
  generalize c.toNat = n at hlt
  dsimp only
  split
  · exact ⟨_, _, rfl, by simp [leadWidth, *]⟩
  · split
    · refine ⟨_, _, rfl, ?_⟩
      rw [leadWidth, if_neg (by omega), if_pos (by omega)]
      rfl
    · split
      · refine ⟨_, _, rfl, ?_⟩
        rw [leadWidth, if_neg (by omega), if_neg (by omega), if_pos (by omega)]
        rfl
      · refine ⟨_, _, rfl, ?_⟩
        rw [leadWidth, if_neg (by omega), if_neg (by omega), if_neg (by omega)]
        rfl

theorem bytesOf_of_lt {c : Char} (h : c.toNat < 0x80) : bytesOf c = [c.toNat] := if_pos h

/-- **A byte below 128 is a character of its own:** it occurs in the bytes of no other one. -/
theorem mem_bytesOf_iff {c d : Char} (hd : d.toNat < 0x80) : d.toNat ∈ bytesOf c ↔ c = d := by
  constructor
  · intro hmem
    by_cases hc : c.toNat < 0x80
    · rw [bytesOf_of_lt hc, List.mem_singleton] at hmem
      exact Char.toNat_inj.mp hmem.symm
    · unfold bytesOf at hmem
      rw [if_neg hc] at hmem
      split at hmem
      · simp only [List.mem_cons, List.not_mem_nil, or_false] at hmem
        omega
      · split at hmem
        · simp only [List.mem_cons, List.not_mem_nil, or_false] at hmem
          omega
        · simp only [List.mem_cons, List.not_mem_nil, or_false] at hmem
          omega
  · rintro rfl
    rw [bytesOf_of_lt hd]
    exact List.mem_singleton_self _

/-- The next byte is that of a character below 128 exactly when the character comes next. -/
theorem head?_bytes_eq_iff {d : Char} (hd : d.toNat < 0x80) (line : Line) :
    (bytes line).head? = some d.toNat ↔ line.head? = some d := by
  cases line with
  | nil => simp
  | cons c rest =>
    obtain ⟨lead, others, hbytes, -⟩ := exists_bytesOf_eq_cons c
    rw [bytes_cons, hbytes]
    simp only [List.cons_append, List.head?_cons, Option.some.injEq]
    constructor
    · rintro rfl
      exact (mem_bytesOf_iff hd).mp (by rw [hbytes]; exact List.mem_cons_self)
    · rintro rfl
      rw [bytesOf_of_lt hd] at hbytes
      exact (List.cons.inj hbytes).1.symm

/-! ### Reading bytes -/

/-- Where reading stands between two bytes. -/
inductive ByteZone where
  | code
  /-- In a string opened by this quote. -/
  | quoted (quote : Nat)
  /-- In a string, before the last so many bytes of a character behind a backslash. -/
  | escaped (quote left : Nat)
  /-- In a comment that ends with the line. -/
  | remark
  /-- Between the two bytes that open a block comment. -/
  | opening
  | comment
  /-- Between the two bytes that close a block comment. -/
  | closing
  deriving DecidableEq, Repr

namespace ByteZone

/-- What a byte belongs to, given the next one, and where it leads. -/
def step : ByteZone → Nat → Option Nat → Mark × ByteZone
  | .code, byte, next =>
    if byte = '"'.toNat ∨ byte = '\x27'.toNat then (.code, .quoted byte)
    else if byte = '/'.toNat ∧ next = some '/'.toNat then (.comment, .remark)
    else if byte = '/'.toNat ∧ next = some '*'.toNat then (.comment, .opening)
    else (.code, .code)
  | .quoted quote, byte, next =>
    if byte = quote then (.code, .code)
    else if byte = '\\'.toNat then
      (.literal, next.elim (.quoted quote) fun lead => .escaped quote (leadWidth lead))
    else (.literal, .quoted quote)
  | .escaped quote left, _, _ =>
    (.literal, if left ≤ 1 then .quoted quote else .escaped quote (left - 1))
  | .remark, _, _ => (.comment, .remark)
  | .opening, _, _ => (.comment, .comment)
  | .comment, byte, next =>
    (.comment, if byte = '*'.toNat ∧ next = some '/'.toNat then .closing else .comment)
  | .closing, _, _ => (.comment, .code)

/-- Where reading stands behind some bytes. -/
def after : ByteZone → List Nat → ByteZone
  | zone, [] => zone
  | zone, byte :: rest => (zone.step byte rest.head?).2.after rest

/-- The zone in which the bytes of a character are read. -/
def ofZone : Zone → ByteZone
  | .code => .code
  | .quoted quote => .quoted quote.toNat
  | .comment => .comment

end ByteZone

/-- The marks of bytes that begin in a zone. -/
def markBytes : ByteZone → List Nat → List (Nat × Mark)
  | _, [] => []
  | zone, byte :: rest =>
    (byte, (zone.step byte rest.head?).1) :: markBytes (zone.step byte rest.head?).2 rest

/-- Some bytes have the same mark and lead from a zone to another one, given the bytes behind. -/
structure LeadsTo (zone : ByteZone) (front : List Nat) (mark : Mark) (next : ByteZone)
    (rest : List Nat) : Prop where
  markBytes_eq : markBytes zone (front ++ rest) = front.map (·, mark) ++ markBytes next rest
  after_eq : zone.after (front ++ rest) = next.after rest

section LeadsTo

variable {zone next : ByteZone} {mark : Mark} {front rest : List Nat}

theorem leadsTo_single {byte : Nat} (h : zone.step byte rest.head? = (mark, next)) :
    LeadsTo zone [byte] mark next rest := by
  constructor
  · rw [List.singleton_append, markBytes, h]
    rfl
  · rw [List.singleton_append, ByteZone.after, h]

/-- Bytes that leave the zone as it is. -/
theorem leadsTo_same (h : ∀ byte ∈ front, ∀ next, zone.step byte next = (mark, zone)) :
    LeadsTo zone front mark zone rest := by
  induction front with
  | nil => exact ⟨rfl, rfl⟩
  | cons byte front ih =>
    obtain ⟨hbyte, hfront⟩ := List.forall_mem_cons.mp h
    obtain ⟨hmarks, hafter⟩ := ih hfront
    constructor
    · rw [List.cons_append, markBytes, hbyte, hmarks]
      rfl
    · rw [List.cons_append, ByteZone.after, hbyte, hafter]

/-- The bytes of a character behind a backslash. -/
theorem leadsTo_escaped (quote : Nat) (hne : front ≠ []) :
    LeadsTo (.escaped quote front.length) front .literal (.quoted quote) rest := by
  induction front with
  | nil => exact absurd rfl hne
  | cons byte front ih =>
    cases front with
    | nil => exact leadsTo_single rfl
    | cons other front =>
      obtain ⟨hmarks, hafter⟩ := ih (List.cons_ne_nil _ _)
      constructor
      · rw [List.cons_append, markBytes]
        exact congrArg _ hmarks
      · rw [List.cons_append, ByteZone.after]
        exact hafter

end LeadsTo

/-! ### Bytes and characters -/

/-- Reading the bytes of a line gives each the mark of its character, and stands in a comment behind
    them if reading the characters does. -/
structure Agrees (zone : ByteZone) (line : Line) (marked : Marked) : Prop where
  marks : markBytes zone (bytes line)
    = marked.chars.flatMap fun char => (bytesOf char.1).map (·, char.2)
  inComment : (zone.after (bytes line) = .comment) ↔ marked.inComment = true

/-- One more character whose bytes lead to where the rest is read from. -/
theorem Agrees.cons {zone next : ByteZone} {c : Char} {mark : Mark} {rest : Line} {marked : Marked}
    (hchar : LeadsTo zone (bytesOf c) mark next (bytes rest)) (h : Agrees next rest marked) :
    Agrees zone (c :: rest) (marked.cons c mark) := by
  constructor
  · rw [bytes_cons, hchar.markBytes_eq, h.marks]
    rfl
  · rw [bytes_cons, hchar.after_eq, h.inComment]
    rfl

/-- The bytes of a character are other bytes than that of a character below 128. -/
theorem ne_of_mem_bytesOf {c d : Char} {byte : Nat} (h : byte ∈ bytesOf c) (hcd : c ≠ d)
    (hd : d.toNat < 0x80) : byte ≠ d.toNat := by
  rintro rfl
  exact hcd ((mem_bytesOf_iff hd).mp h)

/-- A character of code that begins neither a string nor a comment. -/
theorem leadsTo_code {c : Char} {rest : Line} (hquote : ¬ (c = '"' ∨ c = '\x27'))
    (hremark : c = '/' → rest.head? ≠ some '/') (hcomment : c = '/' → rest.head? ≠ some '*') :
    LeadsTo .code (bytesOf c) .code .code (bytes rest) := by
  rw [not_or] at hquote
  by_cases hslash : c = '/'
  · have hnext : (bytes rest).head? ≠ some '/'.toNat ∧ (bytes rest).head? ≠ some '*'.toNat := by
      rw [Ne, Ne, head?_bytes_eq_iff (by decide), head?_bytes_eq_iff (by decide)]
      exact ⟨hremark hslash, hcomment hslash⟩
    subst hslash
    refine leadsTo_single ?_
    rw [ByteZone.step, if_neg (by decide), if_neg (fun h => hnext.1 h.2),
      if_neg (fun h => hnext.2 h.2)]
  · refine leadsTo_same fun byte hbyte next => ?_
    have hdouble := ne_of_mem_bytesOf hbyte hquote.1 (by decide)
    have hsingle := ne_of_mem_bytesOf hbyte hquote.2 (by decide)
    have hother := ne_of_mem_bytesOf hbyte hslash (by decide)
    rw [ByteZone.step, if_neg (by rw [not_or]; exact ⟨hdouble, hsingle⟩),
      if_neg (fun h => hother h.1), if_neg (fun h => hother h.1)]

/-- A character of a block comment that is not the star before its end. -/
theorem leadsTo_comment {c : Char} {rest : Line} (hends : c = '*' → rest.head? ≠ some '/') :
    LeadsTo .comment (bytesOf c) .comment .comment (bytes rest) := by
  by_cases hstar : c = '*'
  · have hnext : (bytes rest).head? ≠ some '/'.toNat := by
      rw [Ne, head?_bytes_eq_iff (by decide)]
      exact hends hstar
    subst hstar
    refine leadsTo_single ?_
    rw [ByteZone.step, if_neg (fun h => hnext h.2)]
  · refine leadsTo_same fun byte hbyte next => ?_
    have hother := ne_of_mem_bytesOf hbyte hstar (by decide)
    rw [ByteZone.step, if_neg (fun h => hother h.1)]

/-- A character of a string that neither ends it nor hides the next one. -/
theorem leadsTo_literal {quote c : Char} {rest : Line} (hquote : isQuote quote = true)
    (hc : c ≠ quote) (hslash : c = '\\' → rest = []) :
    LeadsTo (.quoted quote.toNat) (bytesOf c) .literal (.quoted quote.toNat) (bytes rest) := by
  have hascii : quote.toNat < 0x80 := by rcases isQuote_iff.mp hquote with rfl | rfl <;> decide
  by_cases hescape : c = '\\'
  · have hbyte : '\\'.toNat ≠ quote.toNat :=
      fun h => hc (by rw [hescape]; exact Char.toNat_inj.mp h)
    rw [hslash hescape, hescape]
    refine leadsTo_single ?_
    rw [ByteZone.step, if_neg hbyte]
    rfl
  · refine leadsTo_same fun byte hbyte next => ?_
    rw [ByteZone.step, if_neg (ne_of_mem_bytesOf hbyte hc hascii),
      if_neg (ne_of_mem_bytesOf hbyte hescape (by decide))]

/-- A backslash in a string. -/
theorem leadsTo_escape {quote : Char} (hquote : isQuote quote = true) (escaped : Char)
    (rest : List Nat) :
    LeadsTo (.quoted quote.toNat) (bytesOf '\\') .literal
      (.escaped quote.toNat (bytesOf escaped).length) (bytesOf escaped ++ rest) := by
  have hbyte : '\\'.toNat ≠ quote.toNat := by
    rcases isQuote_iff.mp hquote with rfl | rfl <;> decide
  obtain ⟨lead, others, hbytes, hwidth⟩ := exists_bytesOf_eq_cons escaped
  refine leadsTo_single ?_
  rw [ByteZone.step, if_neg hbyte, ← hwidth, hbytes]
  rfl

/-- **A byte has the mark of its character.**  One case for each case of marking a line. -/
theorem agrees_markLine {zone : Zone} (hzone : zone.WellQuoted) (line : Line) :
    Agrees (.ofZone zone) line (markLine zone line) := by
  have hempty : ∀ {zone : ByteZone} {inComment : Bool}, (zone = .comment ↔ inComment = true) →
      Agrees zone [] ⟨[], inComment⟩ := fun h => ⟨rfl, h⟩
  fun_induction markLine zone line with
  | case1 => exact hempty (by decide)
  | case2 => exact hempty (by decide)
  | case3 quote => exact hempty (by simp [ByteZone.ofZone])
  | case4 rest ih =>
    exact .cons (leadsTo_single rfl) (.cons (leadsTo_single rfl) (ih trivial))
  | case5 c rest hends ih => exact .cons (leadsTo_comment (head?_ne_of_not_pair hends)) (ih trivial)
  | case6 quote escaped rest ih =>
    have hne : bytesOf escaped ≠ [] := by
      obtain ⟨lead, others, hbytes, -⟩ := exists_bytesOf_eq_cons escaped
      rw [hbytes]
      exact List.cons_ne_nil _ _
    refine .cons (leadsTo_escape hzone escaped (bytes rest)) ?_
    exact .cons (leadsTo_escaped quote.toNat hne) (ih hzone)
  | case7 c rest _ ih =>
    refine .cons ?_ (ih trivial)
    rcases isQuote_iff.mp hzone with rfl | rfl <;> exact leadsTo_single rfl
  | case8 quote c rest hescape hc ih =>
    refine .cons (leadsTo_literal hzone hc fun hslash => ?_) (ih hzone)
    cases rest with
    | nil => rfl
    | cons d rest => exact absurd rfl (hescape d rest hslash)
  | case9 rest =>
    have hremark : ∀ line : Line,
        Agrees .remark line ⟨line.map fun c => (c, .comment), false⟩ := by
      intro line
      induction line with
      | nil => exact hempty (by decide)
      | cons c line ih => exact .cons (leadsTo_same fun _ _ _ => rfl) ih
    refine .cons ?_ (hremark ('/' :: rest))
    exact leadsTo_single rfl
  | case10 rest ih =>
    exact .cons (leadsTo_single rfl) (.cons (leadsTo_single rfl) (ih trivial))
  | case11 c rest _ _ hquote ih =>
    have hc : isQuote c = true := isQuote_iff.mpr hquote
    refine .cons ?_ (ih hc)
    rcases hquote with rfl | rfl <;> exact leadsTo_single rfl
  | case12 c rest hremark hcomment hquote ih =>
    refine .cons (leadsTo_code hquote ?_ ?_) (ih trivial)
    · exact head?_ne_of_not_pair hremark
    · exact head?_ne_of_not_pair hcomment

/-! ### Blanking bytes -/

/-- Lines of bytes with those of some marks blanked; the flag says whether the first line begins
    inside a block comment. -/
def blankBytes (hides : Mark → Bool) : Bool → List (List Nat) → List (List Nat)
  | _, [] => []
  | inComment, line :: rest =>
    let zone : ByteZone := if inComment then .comment else .code
    (markBytes zone line).map (fun byte => if hides byte.2 then ' '.toNat else byte.1)
      :: blankBytes hides (zone.after line = .comment) rest

/-- A blanked character has as many bytes as before, and each is a space. -/
theorem bytes_blank (c : Char) : bytes (blank c) = List.replicate c.utf8Size ' '.toNat := by
  rw [bytes, blank, List.flatMap_replicate, show bytesOf ' ' = [' '.toNat] from rfl]
  simp

/-- The bytes of a mask. -/
theorem bytes_render (hides : Mark → Bool) (chars : List (Char × Mark)) :
    bytes (render hides chars)
      = (chars.flatMap fun char => (bytesOf char.1).map (·, char.2)).map
          fun byte => if hides byte.2 then ' '.toNat else byte.1 := by
  induction chars with
  | nil => rfl
  | cons char rest ih =>
    rw [render_cons, bytes_append, ih, List.flatMap_cons, List.map_append, List.map_map]
    congr 1
    by_cases hhides : hides char.2 = true
    · simp [hhides, bytes_blank, Function.comp_def, length_bytesOf]
    · simp [hhides, Function.comp_def]

/-- **Blanking bytes gives the bytes of the mask.** -/
theorem blankBytes_map_bytes (hides : Mark → Bool) (inComment : Bool) (lines : List Line) :
    blankBytes hides inComment (lines.map bytes)
      = ((markLines inComment lines).map (render hides)).map bytes := by
  induction lines generalizing inComment with
  | nil => rfl
  | cons line rest ih =>
    have hagrees : Agrees (if inComment then .comment else .code) line
        (markLine (if inComment then .comment else .code) line) := by
      cases inComment with
      | true => exact agrees_markLine (show Zone.WellQuoted .comment from trivial) line
      | false => exact agrees_markLine (show Zone.WellQuoted .code from trivial) line
    have hflag : decide (ByteZone.after (if inComment then .comment else .code) (bytes line)
          = .comment)
        = (markLine (if inComment then .comment else .code) line).inComment := by
      rw [Bool.eq_iff_iff, decide_eq_true_iff]
      exact hagrees.inComment
    rw [List.map_cons, blankBytes, markLines, List.map_cons, List.map_cons, bytes_render,
      ← hagrees.marks, ← ih, hflag]

end ScriptServer.Text

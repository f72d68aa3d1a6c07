import Mathlib.Data.List.TakeWhile
import ScriptServer.Proofs.Path
import ScriptServer.Uri.FilePath

namespace ScriptServer

/-!
# The identifier of a file

* `Uri.textOfBytes?_bytesOf` — the bytes of a text are read as this text.
* `Uri.unescape_escape` — what is escaped stands for the bytes of the text.
* `Uri.parts_eq_of_ofPath?` — paths with the same identifier mean the same, so files are told apart
  by their identifiers.
* `Uri.exists_path?_of_ofPath?` — the identifier of a file leads back to the file.
-/

namespace Path

/-- After the root, an absolute path has the parts of its pieces. -/
theorem exists_pieces_of_isAbsolute {p : Path} (h : p.isAbsolute = true) :
    ∃ pieces : List Text.Line, p.parts = .root :: pieces.filterMap Part.ofPiece? := by
  obtain ⟨tail, htail⟩ := exists_tail_of_isAbsolute h
  exact ⟨_, parts_of_pieces (pieces_of_tail tail htail) (Text.splitAtChar_ne_nil _ _)⟩

end Path

namespace Uri

open Text

/-! ### Bytes and escapes -/

theorem toNat_lt (c : Char) : c.toNat < 0x110000 := by
  have hvalid := c.valid
  simp only [UInt32.isValidChar, Nat.isValidChar] at hvalid
  show c.val.toNat < 0x110000
  omega

theorem lt_of_mem_bytesOf {c : Char} {byte : Nat} (h : byte ∈ bytesOf c) : byte < 256 := by
  have hlt := toNat_lt c
  unfold bytesOf at h
  dsimp only at h
  split at h
  · simp only [List.mem_cons, List.not_mem_nil, or_false] at h
    omega
  · split at h
    · simp only [List.mem_cons, List.not_mem_nil, or_false] at h
      omega
    · split at h
      · simp only [List.mem_cons, List.not_mem_nil, or_false] at h
        omega
      · simp only [List.mem_cons, List.not_mem_nil, or_false] at h
        omega

theorem map_toUInt8_bytesOf (c : Char) :
    (bytesOf c).map Nat.toUInt8 = String.utf8EncodeChar c := by
  have hlt := toNat_lt c
  unfold bytesOf String.utf8EncodeChar
  rw [show c.val.toNat = c.toNat from rfl]
  generalize c.toNat = n at hlt
  dsimp only
  by_cases h1 : n < 0x80
  · rw [if_pos h1, if_pos (show n ≤ 127 by omega)]
    rfl
  · rw [if_neg h1, if_neg (show ¬ n ≤ 127 by omega)]
    by_cases h2 : n < 0x800
    · rw [if_pos h2, if_pos (show n ≤ 2047 by omega), Nat.mod_eq_of_lt (show n / 64 < 32 by omega),
        Nat.add_comm (n / 64), Nat.add_comm (n % 64)]
      rfl
    · rw [if_neg h2, if_neg (show ¬ n ≤ 2047 by omega)]
      by_cases h3 : n < 0x10000
      · rw [if_pos h3, if_pos (show n ≤ 65535 by omega),
          Nat.mod_eq_of_lt (show n / 4096 < 16 by omega), Nat.add_comm (n / 4096),
          Nat.add_comm (n / 64 % 64), Nat.add_comm (n % 64)]
        rfl
      · rw [if_neg h3, if_neg (show ¬ n ≤ 65535 by omega),
          Nat.mod_eq_of_lt (show n / 262144 < 8 by omega), Nat.add_comm (n / 262144),
          Nat.add_comm (n / 4096 % 64), Nat.add_comm (n / 64 % 64), Nat.add_comm (n % 64)]
        rfl

/-- The bytes of a text are read as this text. -/
theorem textOfBytes?_bytesOf (text : List Char) :
    textOfBytes? (text.flatMap bytesOf) = some (String.ofList text) := by
  have hbytes : (⟨((text.flatMap bytesOf).map Nat.toUInt8).toArray⟩ : ByteArray)
      = text.utf8Encode := by
    rw [ByteArray.ext_iff, List.utf8Encode, List.data_toByteArray, List.map_flatMap]
    simp only [map_toUInt8_bytesOf]
  unfold textOfBytes? String.fromUTF8?
  rw [dif_pos ⟨text, hbytes⟩, Option.some.injEq, ← String.toByteArray_inj]
  exact hbytes

theorem hexValue?_hexDigit {n : Nat} (h : n < 16) : hexValue? (hexDigit 'A' n) = some n := by
  have hall : ∀ n : Fin 16, hexValue? (hexDigit 'A' n) = some n.val := by decide
  exact hall ⟨n, h⟩

theorem unescape_escapeByte {byte : Nat} (h : byte < 256) (rest : List Char) :
    unescape (escapeByte byte ++ rest) = byte :: unescape rest := by
  have hhigh := hexValue?_hexDigit (show byte / 16 < 16 by omega)
  have hlow := hexValue?_hexDigit (show byte % 16 < 16 by omega)
  show unescape ('%' :: hexDigit 'A' (byte / 16) :: hexDigit 'A' (byte % 16) :: rest) = _
  rw [unescape, hhigh, hlow]
  show (byte / 16 * 16 + byte % 16) :: unescape rest = byte :: unescape rest
  rw [Nat.div_add_mod']

theorem unescape_cons {c : Char} (h : c ≠ '%') (rest : List Char) :
    unescape (c :: rest) = bytesOf c ++ unescape rest := by
  rw [unescape]
  intro a b others heq
  exact absurd heq h

/-- What is escaped stands for the bytes of the text, as long as percent signs are escaped too. -/
theorem unescape_escape {inSet : Char → Bool} (hset : inSet '%' = true) (text rest : List Char) :
    unescape (escape inSet text ++ rest) = text.flatMap bytesOf ++ unescape rest := by
  have hbytes : ∀ (bytes : List Nat) (rest : List Char), (∀ byte ∈ bytes, byte < 256) →
      unescape (bytes.flatMap escapeByte ++ rest) = bytes ++ unescape rest := by
    intro bytes rest hlt
    induction bytes with
    | nil => rfl
    | cons byte bytes ih =>
      have hbyte := List.forall_mem_cons.mp hlt
      rw [List.flatMap_cons, List.append_assoc, unescape_escapeByte hbyte.1, ih hbyte.2,
        List.cons_append]
  induction text with
  | nil => rfl
  | cons c text ih =>
    have hrest : escape inSet (c :: text) = (if isControl c || inSet c
        then (bytesOf c).flatMap escapeByte else [c]) ++ escape inSet text := List.flatMap_cons
    rw [hrest, List.append_assoc, List.flatMap_cons, List.append_assoc, ← ih]
    split
    · exact hbytes _ _ fun byte => lt_of_mem_bytesOf
    · rename_i hplain
      have hc : c ≠ '%' := by
        rintro rfl
        simp [hset] at hplain
      exact unescape_cons hc _

/-- A character that is escaped is gone, unless escapes are written with it. -/
theorem not_mem_escape {inSet : Char → Bool} {c : Char} (hset : inSet c = true) (hsign : c ≠ '%')
    (hdigit : ∀ n : Fin 16, hexDigit 'A' n ≠ c) (text : List Char) : c ∉ escape inSet text := by
  intro hmem
  obtain ⟨d, -, hd⟩ := List.mem_flatMap.mp hmem
  split at hd
  · obtain ⟨byte, hbyte, hc⟩ := List.mem_flatMap.mp hd
    have hlt := lt_of_mem_bytesOf hbyte
    simp only [escapeByte, List.mem_cons, List.not_mem_nil, or_false] at hc
    rcases hc with hc | hc | hc
    · exact hsign hc
    · exact hdigit ⟨byte / 16, by omega⟩ hc.symm
    · exact hdigit ⟨byte % 16, by omega⟩ hc.symm
  · rename_i hplain
    rw [List.mem_singleton] at hd
    subst hd
    simp [hset] at hplain

/-! ### Segments -/

/-- A segment is read back as the piece that its part stands for. -/
theorem textOfBytes?_segmentOf {piece : Line} {part : Part} (h : Part.ofPiece? piece = some part) :
    textOfBytes? (unescape (segmentOf part)) = some (String.ofList piece) := by
  have hread : ∀ text : List Char,
      textOfBytes? (unescape (escape inNameSet text)) = some (String.ofList text) := by
    intro text
    have hpercent : inNameSet '%' = true := by decide
    have hbytes := unescape_escape hpercent text []
    rw [List.append_nil, unescape, List.append_nil] at hbytes
    rw [hbytes, textOfBytes?_bytesOf]
  unfold Part.ofPiece? at h
  split at h
  · cases h
  · cases h
  · cases h
    exact hread ['.', '.']
  · cases h
    show textOfBytes? (unescape (escape inNameSet (String.ofList piece).toList)) = _
    rw [String.toList_ofList]
    exact hread piece

theorem not_mem_segmentOf (part : Part) : '/' ∉ segmentOf part := by
  cases part with
  | root => exact List.not_mem_nil
  | here => decide
  | up => decide
  | name text => exact not_mem_escape (by decide) (by decide) (by decide) _

/-- Segments tell their parts apart. -/
theorem eq_of_segmentOf {piece other : Line} {a b : Part} (ha : Part.ofPiece? piece = some a)
    (hb : Part.ofPiece? other = some b) (h : segmentOf a = segmentOf b) : a = b := by
  have hpiece := textOfBytes?_segmentOf ha
  rw [h, textOfBytes?_segmentOf hb, Option.some.injEq, String.ofList_inj] at hpiece
  rw [hpiece, ha, Option.some.injEq] at hb
  exact hb

theorem segmentOf_ne_nil {piece : Line} {part : Part} (h : Part.ofPiece? piece = some part) :
    segmentOf part ≠ [] := by
  intro hnil
  have hread := textOfBytes?_segmentOf h
  rw [hnil, show textOfBytes? (unescape []) = some (String.ofList []) from textOfBytes?_bytesOf [],
    Option.some.injEq, String.ofList_inj] at hread
  rw [← hread] at h
  cases h

/-- The segments of a path with these parts after the root. -/
def segments : List Part → List (List Char)
  | [] => [[]]
  | parts => parts.map segmentOf

theorem not_mem_of_mem_segments {parts : List Part} {segment : List Char}
    (h : segment ∈ segments parts) : '/' ∉ segment := by
  cases parts with
  | nil =>
    rw [List.mem_singleton.mp h]
    exact List.not_mem_nil
  | cons part parts =>
    obtain ⟨other, -, rfl⟩ := List.mem_map.mp h
    exact not_mem_segmentOf other

theorem segments_inj {as bs : List Part} (ha : ∀ a ∈ as, ∃ piece, Part.ofPiece? piece = some a)
    (hb : ∀ b ∈ bs, ∃ piece, Part.ofPiece? piece = some b) (h : segments as = segments bs) :
    as = bs := by
  have hmap : ∀ as bs : List Part, (∀ a ∈ as, ∃ piece, Part.ofPiece? piece = some a) →
      (∀ b ∈ bs, ∃ piece, Part.ofPiece? piece = some b) →
      as.map segmentOf = bs.map segmentOf → as = bs := by
    intro as
    induction as with
    | nil =>
      intro bs _ _ h
      exact (List.map_eq_nil_iff.mp h.symm).symm
    | cons a as ih =>
      intro bs ha hb h
      obtain ⟨b, rest, rfl, hhead, htail⟩ := List.map_eq_cons_iff.mp h.symm
      have ha := List.forall_mem_cons.mp ha
      have hb := List.forall_mem_cons.mp hb
      obtain ⟨piece, hpiece⟩ := ha.1
      obtain ⟨other, hother⟩ := hb.1
      rw [eq_of_segmentOf hpiece hother hhead.symm, ih rest ha.2 hb.2 htail.symm]
  -- only the root directory has a segment that is empty
  have hroot : ∀ part parts, (∃ piece, Part.ofPiece? piece = some part) →
      segments (part :: parts) ≠ segments [] := by
    rintro part parts ⟨piece, hpiece⟩ heq
    exact segmentOf_ne_nil hpiece (List.cons.inj heq).1
  cases as with
  | nil =>
    cases bs with
    | nil => rfl
    | cons b bs => exact absurd h.symm (hroot b bs (hb b List.mem_cons_self))
  | cons a as =>
    cases bs with
    | nil => exact absurd h (hroot a as (ha a List.mem_cons_self))
    | cons b bs => exact hmap _ _ ha hb h

/-! ### Identifiers -/

theorem ofPath?_eq {path : Path} {parts : List Part} (habsolute : path.isAbsolute = true)
    (h : path.parts = .root :: parts) :
    ofPath? path
      = some ⟨String.ofList ("file://".toList ++ (segments parts).flatMap fun s => '/' :: s)⟩ := by
  unfold ofPath?
  rw [habsolute, h, if_pos rfl]
  cases parts with
  | nil => rfl
  | cons part parts => simp [segments, List.flatMap_map]

theorem isAbsolute_of_ofPath? {path : Path} {uri : Uri} (h : ofPath? path = some uri) :
    path.isAbsolute = true := by
  unfold ofPath? at h
  split at h
  · assumption
  · cases h

/-- Paths with the same identifier mean the same. -/
theorem parts_eq_of_ofPath? {p q : Path} {uri : Uri} (hp : ofPath? p = some uri)
    (hq : ofPath? q = some uri) : p.parts = q.parts := by
  have habsolute := isAbsolute_of_ofPath? hp
  have habsolute' := isAbsolute_of_ofPath? hq
  obtain ⟨pieces, hpieces⟩ := Path.exists_pieces_of_isAbsolute habsolute
  obtain ⟨others, hothers⟩ := Path.exists_pieces_of_isAbsolute habsolute'
  have hpart : ∀ pieces : List Line, ∀ part ∈ pieces.filterMap Part.ofPiece?,
      ∃ piece, Part.ofPiece? piece = some part := by
    intro pieces part hpart
    obtain ⟨piece, -, hpiece⟩ := List.mem_filterMap.mp hpart
    exact ⟨piece, hpiece⟩
  rw [ofPath?_eq habsolute hpieces] at hp
  rw [ofPath?_eq habsolute' hothers, ← hp, Option.some.injEq, Uri.mk.injEq, String.ofList_inj,
    List.append_cancel_left_eq] at hq
  have hsegments := congrArg (splitAtChar '/') hq
  rw [splitAtChar_flatMap_cons fun _ => not_mem_of_mem_segments,
    splitAtChar_flatMap_cons fun _ => not_mem_of_mem_segments, List.cons.injEq] at hsegments
  rw [hpieces, hothers, segments_inj (hpart others) (hpart pieces) hsegments.2]

theorem exists_ofPath? {path : Path} (h : path.isAbsolute = true) :
    ∃ uri, ofPath? path = some uri := by
  obtain ⟨pieces, hpieces⟩ := Path.exists_pieces_of_isAbsolute h
  exact ⟨_, ofPath?_eq h hpieces⟩

/-! ### Back to the path -/

/-- The segment of a part is the escaped piece that the part is read from. -/
theorem segmentOf_eq {piece : Line} {part : Part} (h : Part.ofPiece? piece = some part) :
    segmentOf part = escape inNameSet piece := by
  unfold Part.ofPiece? at h
  split at h
  · cases h
  · cases h
  · cases h
    decide
  · cases h
    show escape inNameSet (String.ofList piece).toList = _
    rw [String.toList_ofList]

/-- The identifier of a file is made of the pieces of its path. -/
theorem exists_pieces_of_ofPath? {path : Path} {uri : Uri} (h : ofPath? path = some uri) :
    ∃ pieces : List Line, pieces ≠ [] ∧ (∀ piece ∈ pieces, '/' ∉ piece)
      ∧ path.parts = .root :: pieces.filterMap Part.ofPiece?
      ∧ uri.text.toList
        = "file://".toList ++ pieces.flatMap fun piece => '/' :: escape inNameSet piece := by
  have habsolute := isAbsolute_of_ofPath? h
  obtain ⟨tail, htail⟩ := Path.exists_tail_of_isAbsolute habsolute
  have hparts := Path.parts_of_pieces (Path.pieces_of_tail tail htail) (splitAtChar_ne_nil _ _)
  rw [ofPath?_eq habsolute hparts, Option.some.injEq] at h
  have hslash : ∀ piece ∈ splitAtChar '/' tail, '/' ∉ piece := fun _ => not_mem_of_mem_splitAtChar
  generalize splitAtChar '/' tail = pieces at *
  -- pieces that stand for nothing leave no segment
  have hsegments : ∃ kept : List Line, (∀ piece ∈ kept, '/' ∉ piece)
      ∧ kept.filterMap Part.ofPiece? = pieces.filterMap Part.ofPiece?
      ∧ (pieces.filterMap Part.ofPiece?).map segmentOf = kept.map (escape inNameSet) := by
    clear h hparts
    induction pieces with
    | nil => exact ⟨[], fun _ h => absurd h List.not_mem_nil, rfl, rfl⟩
    | cons piece pieces ih =>
      have hpieces := List.forall_mem_cons.mp hslash
      obtain ⟨kept, hkept, hsame, hmap⟩ := ih hpieces.2
      cases hpart : Part.ofPiece? piece with
      | none => exact ⟨kept, hkept, by simp [hpart, hsame], by simp [hpart, hmap]⟩
      | some part =>
        exact ⟨piece :: kept, List.forall_mem_cons.mpr ⟨hpieces.1, hkept⟩,
          by simp [hpart, hsame], by simp [hpart, hmap, segmentOf_eq hpart]⟩
  obtain ⟨kept, hkept, hsame, hmap⟩ := hsegments
  rw [← hsame] at hparts hmap h
  cases kept with
  | nil =>
    refine ⟨[[]], by simp, by simp, hparts, ?_⟩
    rw [← h]
    decide +kernel
  | cons piece kept =>
    refine ⟨piece :: kept, by simp, hkept, hparts, ?_⟩
    have hne : (piece :: kept).filterMap Part.ofPiece? ≠ [] := by
      intro hnil
      rw [hnil] at hmap
      cases hmap
    have hseg : segments ((piece :: kept).filterMap Part.ofPiece?)
        = (piece :: kept).map (escape inNameSet) := by
      rw [← hmap]
      unfold segments
      split
      · contradiction
      · rfl
    rw [← h, hseg, List.flatMap_map, String.toList_ofList]

theorem unescape_flatMap (pieces : List Line) :
    unescape (pieces.flatMap fun piece => '/' :: escape inNameSet piece)
      = (pieces.flatMap fun piece => '/' :: piece).flatMap bytesOf := by
  induction pieces with
  | nil => rfl
  | cons piece pieces ih =>
    rw [List.flatMap_cons, List.flatMap_cons, List.cons_append, unescape_cons (by decide),
      unescape_escape (by decide), ih, List.cons_append, List.flatMap_cons, List.flatMap_append]

theorem parts_closeDrive {text : String} (h : (Path.mk text).isAbsolute = true) :
    (Path.mk (closeDrive text)).parts = (Path.mk text).parts := by
  have hslash : (Path.mk (text ++ "/")).parts = (Path.mk text).parts := by
    obtain ⟨tail, htail⟩ := Path.exists_tail_of_isAbsolute h
    have htail' : (Path.mk (text ++ "/")).text.toList = '/' :: (tail ++ ['/']) := by
      show (text ++ "/").toList = _
      rw [String.toList_append, show text.toList = '/' :: tail from htail]
      rfl
    rw [Path.parts_of_pieces (Path.pieces_of_tail _ htail') (splitAtChar_ne_nil _ _),
      Path.parts_of_pieces (Path.pieces_of_tail _ htail) (splitAtChar_ne_nil _ _),
      splitAtChar_append, List.filterMap_append]
    simp [splitAtChar, Part.ofPiece?]
  unfold closeDrive
  split
  · split
    · exact hslash
    · rfl
  · rfl

/-- An identifier without a host, a query and a fragment is all path. -/
theorem rawPath?_eq {uri : Uri} {rest : List Char} (h : uri.afterScheme = '/' :: '/' :: '/' :: rest)
    (hquery : '?' ∉ rest) (hfragment : '#' ∉ rest) : uri.rawPath? = some ('/' :: rest) := by
  have hkept : rest.takeWhile (fun c => c != '?' && c != '#') = rest := by
    refine List.takeWhile_eq_self_iff.mpr fun c hc => ?_
    have hc' : c ≠ '?' := fun heq => hquery (heq ▸ hc)
    have hc'' : c ≠ '#' := fun heq => hfragment (heq ▸ hc)
    simp [hc', hc'']
  unfold rawPath?
  simp [h, endsAuthority, hkept, isLocal, cutLast?]

/-- **The identifier of a file leads back to it.** -/
theorem exists_path?_of_ofPath? {path : Path} {uri : Uri} (h : ofPath? path = some uri) :
    ∃ back, uri.path? = some back ∧ back.parts = path.parts := by
  obtain ⟨pieces, hne, hslash, hparts, htext⟩ := exists_pieces_of_ofPath? h
  have hraw : uri.rawPath? = some (pieces.flatMap fun piece => '/' :: escape inNameSet piece) := by
    have hnot : ∀ c, inNameSet c = true → c ≠ '%' → c ≠ '/' → (∀ n : Fin 16, hexDigit 'A' n ≠ c) →
        c ∉ pieces.flatMap fun piece => '/' :: escape inNameSet piece := by
      intro c hset hsign hslash hdigit hmem
      obtain ⟨piece, -, hmem⟩ := List.mem_flatMap.mp hmem
      rcases List.mem_cons.mp hmem with heq | hmem
      · exact hslash heq
      · exact not_mem_escape hset hsign hdigit piece hmem
    obtain ⟨piece, others, rfl⟩ := List.exists_cons_of_ne_nil hne
    have hquery := hnot '?' (by decide) (by decide) (by decide) (by decide)
    have hfragment := hnot '#' (by decide) (by decide) (by decide) (by decide)
    rw [List.flatMap_cons, List.cons_append, List.mem_cons, not_or] at hquery hfragment
    rw [List.flatMap_cons, List.cons_append]
    refine rawPath?_eq ?_ hquery.2 hfragment.2
    rw [afterScheme, htext]
    rfl
  have htexts : (Path.mk (String.ofList (pieces.flatMap fun piece => '/' :: piece))).parts
      = path.parts := by
    obtain ⟨piece, others, rfl⟩ := List.exists_cons_of_ne_nil hne
    rw [hparts, Path.parts_of_pieces _ (List.cons_ne_nil piece others)]
    rw [Path.pieces, String.toList_ofList]
    exact splitAtChar_flatMap_cons hslash
  have habsolute : (Path.mk (String.ofList (pieces.flatMap fun piece => '/' :: piece))).isAbsolute
      = true := by
    obtain ⟨piece, others, rfl⟩ := List.exists_cons_of_ne_nil hne
    simp [Path.isAbsolute]
  refine ⟨⟨closeDrive (String.ofList (pieces.flatMap fun piece => '/' :: piece))⟩, ?_, ?_⟩
  · rw [path?, hraw, Option.bind_eq_bind, Option.bind_some, unescape_flatMap, textOfBytes?_bytesOf]
    rfl
  · rw [parts_closeDrive habsolute, htexts]

end Uri

end ScriptServer

import ScriptServer.Path
import ScriptServer.Proofs.Text.Split

namespace ScriptServer

/-!
# Paths below a directory

* `Path.IsName` — a text that can name a file or a directory.
* `Path.parts_child`, `Path.parts_descend` — to go down is to add names to the parts.
* `Path.parent?_child` — the directory around a child means what the directory itself does.
* `Path.isUnder_iff` — a path lies under another one when it has the parts of that one in front.
* `Path.mem_insert`, `Path.mem_sorted` — what an ordered list of paths holds.
-/

namespace Path

open Text

/-- Whether a text can name a file or a directory. -/
structure IsName (name : String) : Prop where
  nonempty : name ≠ ""
  not_here : name ≠ "."
  not_up : name ≠ ".."
  no_slash : '/' ∉ name.toList

instance (name : String) : Decidable (IsName name) :=
  decidable_of_iff (name ≠ "" ∧ name ≠ "." ∧ name ≠ ".." ∧ '/' ∉ name.toList)
    ⟨fun h => ⟨h.1, h.2.1, h.2.2.1, h.2.2.2⟩,
      fun h => ⟨h.nonempty, h.not_here, h.not_up, h.no_slash⟩⟩

theorem IsName.ofPiece?_eq {name : String} (h : IsName name) :
    Part.ofPiece? name.toList = some (.name name) := by
  have hempty : ¬ name.toList = [] := fun he => h.nonempty (String.toList_inj.mp he)
  have hhere : ¬ name.toList = ['.'] := fun he => h.not_here (String.toList_inj.mp he)
  have hup : ¬ name.toList = ['.', '.'] := fun he => h.not_up (String.toList_inj.mp he)
  unfold Part.ofPiece?
  split
  · exact absurd ‹_› hempty
  · exact absurd ‹_› hhere
  · exact absurd ‹_› hup
  · rw [String.ofList_toList]

theorem ofPiece?_eq_none_of_isVoid {piece : Line} (h : isVoid piece = true) :
    Part.ofPiece? piece = none := by
  unfold isVoid at h
  rw [Bool.or_eq_true, decide_eq_true_eq, decide_eq_true_eq] at h
  rcases h with rfl | rfl
  · rfl
  · rfl

theorem IsName.isVoid_eq {name : String} (h : IsName name) : isVoid name.toList = false := by
  rw [Bool.eq_false_iff]
  intro hvoid
  have hnone := ofPiece?_eq_none_of_isVoid hvoid
  rw [h.ofPiece?_eq] at hnone
  cases hnone

theorem IsName.isAbsolute_eq {name : String} (h : IsName name) :
    (Path.mk name).isAbsolute = false := by
  unfold isAbsolute
  rw [beq_eq_false_iff_ne]
  intro hhead
  exact h.no_slash (List.mem_of_head? hhead)

/-! ### Absolute paths -/

theorem exists_tail_of_isAbsolute {p : Path} (h : p.isAbsolute = true) :
    ∃ tail, p.text.toList = '/' :: tail := by
  unfold isAbsolute at h
  rw [beq_iff_eq] at h
  exact List.head?_eq_some_iff.mp h

theorem pieces_of_tail {p : Path} (tail : Line) (h : p.text.toList = '/' :: tail) :
    p.pieces = [] :: splitAtChar '/' tail := by
  unfold pieces
  rw [h, splitAtChar, if_pos rfl]

theorem parts_of_pieces {p : Path} {rest : List Line} (h : p.pieces = [] :: rest)
    (hrest : rest ≠ []) : p.parts = .root :: rest.filterMap Part.ofPiece? := by
  obtain ⟨piece, others, rfl⟩ := List.exists_cons_of_ne_nil hrest
  unfold parts
  rw [h]

/-- The pieces of a child are those of the directory, void ones apart, and its name. -/
theorem exists_pieces_child {dir : Path} {name : String} (h : dir.isAbsolute = true)
    (hname : IsName name) :
    ∃ above, (dir.child name).pieces = [] :: (above ++ [name.toList])
      ∧ dir.parts = .root :: above.filterMap Part.ofPiece? ∧ ∀ piece ∈ above, '/' ∉ piece := by
  obtain ⟨tail, htail⟩ := exists_tail_of_isAbsolute h
  have hparts : dir.parts = .root :: (splitAtChar '/' tail).filterMap Part.ofPiece? :=
    parts_of_pieces (pieces_of_tail tail htail) (splitAtChar_ne_nil _ _)
  have hnonempty : dir.text.isEmpty = false := by
    rw [Bool.eq_false_iff]
    intro hempty
    rw [String.isEmpty_iff.mp hempty] at htail
    cases htail
  have hpieces := splitAtChar_of_not_mem hname.no_slash
  unfold child join
  rw [hname.isAbsolute_eq, hnonempty, Bool.false_or]
  by_cases hslash : dir.text.toList.getLast? = some '/'
  · -- the slash at the end of the directory is the one before the name
    rw [if_neg Bool.false_ne_true, if_pos (beq_iff_eq.mpr hslash)]
    rw [htail] at hslash
    rcases List.eq_nil_or_concat tail with rfl | ⟨front, last, rfl⟩
    · refine ⟨[], ?_, hparts, by simp⟩
      rw [pieces_of_tail name.toList (by rw [String.toList_append, htail]; rfl), hpieces]
      rfl
    · obtain rfl : last = '/' := by
        rw [List.concat_eq_append, ← List.cons_append, List.getLast?_concat, Option.some.injEq]
          at hslash
        exact hslash
      rw [List.concat_eq_append] at htail hparts
      refine ⟨splitAtChar '/' front, ?_, ?_, fun _ => not_mem_of_mem_splitAtChar⟩
      · rw [pieces_of_tail (front ++ '/' :: name.toList), splitAtChar_append, hpieces]
        rw [String.toList_append, htail]
        simp
      · rw [hparts, splitAtChar_append]
        simp [splitAtChar, Part.ofPiece?]
  · rw [if_neg Bool.false_ne_true, if_neg (by rw [beq_iff_eq]; exact hslash)]
    refine ⟨splitAtChar '/' tail, ?_, hparts, fun _ => not_mem_of_mem_splitAtChar⟩
    rw [pieces_of_tail (tail ++ '/' :: name.toList), splitAtChar_append, hpieces]
    rw [String.toList_append, String.toList_append, htail]
    simp

theorem parts_child {dir : Path} {name : String} (h : dir.isAbsolute = true)
    (hname : IsName name) : (dir.child name).parts = dir.parts ++ [.name name] := by
  obtain ⟨above, hpieces, hparts, -⟩ := exists_pieces_child h hname
  rw [parts_of_pieces hpieces (by simp), hparts, List.filterMap_append]
  simp [hname.ofPiece?_eq]

theorem endsInSlash_child {dir : Path} {name : String} (h : dir.isAbsolute = true)
    (hname : IsName name) : (dir.child name).endsInSlash = false := by
  obtain ⟨above, hpieces, -, -⟩ := exists_pieces_child h hname
  have hreverse : (dir.child name).pieces.reverse = name.toList :: (above.reverse ++ [[]]) := by
    rw [hpieces]
    simp
  unfold endsInSlash
  rw [hreverse]
  cases habove : above.reverse ++ [[]] with
  | nil => rfl
  | cons piece others => exact hname.isVoid_eq

/-- Void pieces make no difference to what a row of pieces means. -/
theorem filterMap_dropWhile_isVoid (pieces : List Line) :
    (pieces.dropWhile isVoid).filterMap Part.ofPiece? = pieces.filterMap Part.ofPiece? := by
  induction pieces with
  | nil => rfl
  | cons piece rest ih =>
    by_cases hvoid : isVoid piece = true
    · rw [List.dropWhile_cons_of_pos hvoid, ih,
        List.filterMap_cons_none (ofPiece?_eq_none_of_isVoid hvoid)]
    · rw [List.dropWhile_cons_of_neg hvoid]

/-- The directory around a child means what the directory itself does. -/
theorem parent?_child {dir : Path} {name : String} (h : dir.isAbsolute = true)
    (hname : IsName name) :
    ∃ parent, (dir.child name).parent? = some parent ∧ parent.parts = dir.parts := by
  obtain ⟨above, hpieces, hparts, hslash⟩ := exists_pieces_child h hname
  have hlast : (dir.child name).parts.getLast? = some (.name name) := by
    rw [parts_child h hname, List.getLast?_concat]
  have hreverse : (above ++ [name.toList]).reverse.dropWhile isVoid
      = name.toList :: above.reverse := by
    rw [List.reverse_concat, List.dropWhile_cons_of_neg]
    rw [hname.isVoid_eq]
    exact Bool.false_ne_true
  have hkept : (above.reverse.dropWhile isVoid).reverse.filterMap Part.ofPiece?
      = above.filterMap Part.ofPiece? := by
    rw [List.filterMap_reverse, filterMap_dropWhile_isVoid, ← List.filterMap_reverse,
      List.reverse_reverse]
  unfold parent?
  rw [hlast, hpieces]
  simp only [hreverse]
  cases hrest : above.reverse.dropWhile isVoid with
  | nil =>
    rw [hrest] at hkept
    refine ⟨⟨"/"⟩, rfl, ?_⟩
    rw [hparts, ← hkept]
    rfl
  | cons piece others =>
    refine ⟨_, rfl, ?_⟩
    have hnone : ∀ kept ∈ [] :: (piece :: others).reverse, '/' ∉ kept := by
      intro kept hkept
      rcases List.mem_cons.mp hkept with rfl | hkept
      · exact List.not_mem_nil
      · rw [List.mem_reverse, ← hrest] at hkept
        exact hslash kept (List.mem_reverse.mp ((List.dropWhile_sublist _).mem hkept))
    rw [hparts, ← hkept, hrest]
    refine parts_of_pieces ?_ (by simp)
    unfold pieces
    rw [String.toList_ofList]
    exact splitAtChar_intercalate [] _ hnone

/-! ### Going down -/

theorem text_child_eq (dir : Path) {name : String} (hname : IsName name) :
    ∃ middle, (dir.child name).text = dir.text ++ middle ++ name ∧ (middle = "" ∨ middle = "/") := by
  unfold child join
  rw [hname.isAbsolute_eq, if_neg Bool.false_ne_true]
  split
  · exact ⟨"", by simp, .inl rfl⟩
  · exact ⟨"/", rfl, .inr rfl⟩

/-- What is taken from an absolute path is absolute. -/
theorem isAbsolute_child {dir : Path} (h : dir.isAbsolute = true) (name : String) :
    (dir.child name).isAbsolute = true := by
  obtain ⟨tail, htail⟩ := exists_tail_of_isAbsolute h
  have happend : ∀ text : String, (Path.mk (dir.text ++ text)).isAbsolute = true := by
    intro text
    rw [isAbsolute, String.toList_append, htail]
    rfl
  unfold child join
  split
  · assumption
  · split
    · exact happend name
    · rw [String.append_assoc]
      exact happend ("/" ++ name)

theorem utf8ByteSize_le_child (dir : Path) {name : String} (hname : IsName name) :
    dir.text.utf8ByteSize ≤ (dir.child name).text.utf8ByteSize := by
  obtain ⟨middle, htext, -⟩ := text_child_eq dir hname
  rw [htext, String.utf8ByteSize_append, String.utf8ByteSize_append]
  omega

theorem not_mem_child {dir : Path} {name : String} {c : Char} (hname : IsName name) (hc : c ≠ '/')
    (hdir : c ∉ dir.text.toList) (h : c ∉ name.toList) : c ∉ (dir.child name).text.toList := by
  obtain ⟨middle, htext, hmiddle⟩ := text_child_eq dir hname
  rw [htext, String.toList_append, String.toList_append]
  rcases hmiddle with rfl | rfl
  · simp [hdir, h]
  · simp [hdir, h, hc]

section Descend

variable {dir : Path} {row : List String}

theorem descend_concat (dir : Path) (row : List String) (name : String) :
    dir.descend (row ++ [name]) = (dir.descend row).child name := by
  unfold descend
  rw [List.foldl_append]
  rfl

theorem descend_append (dir : Path) (row below : List String) :
    dir.descend (row ++ below) = (dir.descend row).descend below := by
  unfold descend
  rw [List.foldl_append]

theorem isAbsolute_descend (h : dir.isAbsolute = true) (row : List String) :
    (dir.descend row).isAbsolute = true := by
  induction row generalizing dir with
  | nil => exact h
  | cons name row ih => exact ih (isAbsolute_child h name)

theorem parts_descend (h : dir.isAbsolute = true) (hrow : ∀ name ∈ row, IsName name) :
    (dir.descend row).parts = dir.parts ++ row.map .name := by
  induction row generalizing dir with
  | nil => exact (List.append_nil _).symm
  | cons name row ih =>
    have hnames := List.forall_mem_cons.mp hrow
    show ((dir.child name).descend row).parts = _
    rw [ih (isAbsolute_child h name) hnames.2, parts_child h hnames.1, List.append_assoc]
    rfl

theorem utf8ByteSize_le_descend (dir : Path) (hrow : ∀ name ∈ row, IsName name) :
    dir.text.utf8ByteSize ≤ (dir.descend row).text.utf8ByteSize := by
  induction row generalizing dir with
  | nil => exact Nat.le_refl _
  | cons name row ih =>
    have hnames := List.forall_mem_cons.mp hrow
    exact Nat.le_trans (utf8ByteSize_le_child dir hnames.1) (ih (dir.child name) hnames.2)

theorem not_mem_descend {c : Char} (hc : c ≠ '/') (hdir : c ∉ dir.text.toList)
    (hrow : ∀ name ∈ row, IsName name ∧ c ∉ name.toList) : c ∉ (dir.descend row).text.toList := by
  induction row generalizing dir with
  | nil => exact hdir
  | cons name row ih =>
    have hnames := List.forall_mem_cons.mp hrow
    exact ih (not_mem_child hnames.1.1 hc hdir hnames.1.2) hnames.2

end Descend

/-! ### Paths below paths -/

theorem rowAfter?_eq_some {above row below : List Part} :
    rowAfter? above row = some below ↔ row = above ++ below := by
  induction above generalizing row with
  | nil => simp [rowAfter?]
  | cons part above ih =>
    cases row with
    | nil => simp [rowAfter?]
    | cons first row =>
      by_cases hfirst : part = first
      · simp [rowAfter?, hfirst, ih]
      · simp [rowAfter?, hfirst, Ne.symm hfirst]

theorem isUnder_iff {p dir : Path} : p.isUnder dir = true ↔ dir.parts <+: p.parts := by
  unfold isUnder relativeTo?
  rw [Option.isSome_iff_exists]
  constructor
  · rintro ⟨below, hbelow⟩
    exact ⟨below, (rowAfter?_eq_some.mp hbelow).symm⟩
  · rintro ⟨below, hbelow⟩
    exact ⟨below, rowAfter?_eq_some.mpr hbelow.symm⟩

theorem same_iff {p q : Path} : p.same q = true ↔ p.parts = q.parts := decide_eq_true_iff

theorem name_injective : Function.Injective Part.name := fun _ _ h => Part.name.inj h

/-- Rows of names below a directory are told apart by their paths. -/
theorem same_descend_iff {dir : Path} {row other : List String} (h : dir.isAbsolute = true)
    (hrow : ∀ name ∈ row, IsName name) (hother : ∀ name ∈ other, IsName name) :
    (dir.descend row).same (dir.descend other) = true ↔ row = other := by
  rw [same_iff, parts_descend h hrow, parts_descend h hother, List.append_cancel_left_eq,
    List.map_inj_right name_injective]

theorem isUnder_descend_iff {dir : Path} {row other : List String} (h : dir.isAbsolute = true)
    (hrow : ∀ name ∈ row, IsName name) (hother : ∀ name ∈ other, IsName name) :
    (dir.descend row).isUnder (dir.descend other) = true ↔ other <+: row := by
  rw [isUnder_iff, parts_descend h hrow, parts_descend h hother, List.prefix_append_right_inj,
    List.prefix_map_iff_of_injective name_injective]

/-! ### Ordered lists -/

theorem mem_insert {p q : Path} {set : List Path} (h : ∀ r ∈ set, p.same r = true → p = r) :
    q ∈ insert p set ↔ q = p ∨ q ∈ set := by
  induction set with
  | nil => simp [insert]
  | cons first rest ih =>
    have hset := List.forall_mem_cons.mp h
    unfold insert
    split
    · rename_i hsame
      rw [hset.1 hsame, List.mem_cons]
      exact or_self_left.symm
    · split
      · rw [List.mem_cons]
      · rw [List.mem_cons, List.mem_cons, ih hset.2]
        exact or_left_comm

/-- An ordered list holds the paths it is made of, when no two of these mean the same. -/
theorem mem_sorted {q : Path} {paths : List Path}
    (h : ∀ p ∈ paths, ∀ r ∈ paths, p.same r = true → p = r) : q ∈ sorted paths ↔ q ∈ paths := by
  have hfold : ∀ (paths set : List Path),
      (∀ p ∈ paths ++ set, ∀ r ∈ paths ++ set, p.same r = true → p = r) →
      (q ∈ paths.foldl (fun set p => insert p set) set ↔ q ∈ paths ∨ q ∈ set) := by
    intro paths
    induction paths with
    | nil => simp
    | cons p rest ih =>
      intro set hset
      have hinsert : ∀ r, r ∈ insert p set ↔ r = p ∨ r ∈ set := fun r =>
        mem_insert fun r hr => hset p (by simp) r (by simp [hr])
      rw [List.foldl_cons, ih, hinsert, List.mem_cons]
      · rw [or_assoc, or_left_comm]
      · have hmem : ∀ r ∈ rest ++ insert p set, r ∈ p :: rest ++ set := by
          intro r hr
          rw [List.mem_append, hinsert, or_left_comm] at hr
          rw [List.cons_append, List.mem_cons, List.mem_append]
          exact hr
        exact fun a ha b hb => hset a (hmem a ha) b (hmem b hb)
  have hpaths := hfold paths [] (by rwa [List.append_nil])
  rw [sorted, hpaths]
  simp

/-- An ordered list holds only paths it is made of. -/
theorem mem_of_mem_sorted {q : Path} {paths : List Path} (h : q ∈ sorted paths) : q ∈ paths := by
  have hinsert : ∀ (p : Path) (set : List Path), q ∈ insert p set → q = p ∨ q ∈ set := by
    intro p set
    fun_induction insert p set with
    | case1 => simp
    | case2 first rest => exact .inr
    | case3 first rest => exact List.mem_cons.mp
    | case4 first rest _ _ ih =>
      rw [List.mem_cons, List.mem_cons]
      rintro (hfirst | hrest)
      · exact .inr (.inl hfirst)
      · exact (ih hrest).imp_right .inr
  have hfold : ∀ (paths set : List Path),
      q ∈ paths.foldl (fun set p => insert p set) set → q ∈ paths ∨ q ∈ set := by
    intro paths
    induction paths with
    | nil => exact fun set => .inr
    | cons p rest ih =>
      intro set hmem
      rcases ih (insert p set) hmem with hrest | hset
      · exact .inl (List.mem_cons_of_mem p hrest)
      · rcases hinsert p set hset with rfl | hset
        · exact .inl List.mem_cons_self
        · exact .inr hset
  exact (hfold paths [] h).resolve_right List.not_mem_nil

theorem memberOf_iff {p : Path} {paths : List Path} :
    p.memberOf paths = true ↔ ∃ q ∈ paths, p.same q = true := List.any_eq_true

end Path

end ScriptServer

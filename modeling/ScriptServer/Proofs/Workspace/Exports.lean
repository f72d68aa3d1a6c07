import Mathlib.Data.List.Forall2
import ScriptServer.Proofs.SharedBody
import ScriptServer.Proofs.Workspace.Run
import ScriptServer.Workspace.Symbols

namespace ScriptServer

/-!
# Functions of other modules

A qualified name is looked up in one module, a plain name in every module that the document imports.

* `Workspace.Grounded` — no two modules share a file, and tables come from texts of their documents.
  Whatever was done, a workspace is such.
* `Workspace.Offers` — a module offers a function under a name.
* `Workspace.ListsOnce` — a list of what a module offers under a name, each declaration once.
* `Workspace.imports_searched_in_order` — one such list for each import, in their order.
* `Workspace.repeated_import_repeats_function` — a module that is imported twice is searched twice.
-/

open Text

namespace ModuleSyntax

/-- A separator is never empty. -/
theorem separator_ofSeparator_ne_nil (text : String) : (ofSeparator text).separator ≠ [] := by
  unfold ofSeparator
  split
  next => decide
  next h => exact h

end ModuleSyntax

namespace Outline

open Declaration

/-- The symbols of a document tell which document it is. -/
theorem uri_of_mem_table {syn : ModuleSyntax} {uri : Uri} {text : String} {s : Symbol}
    (h : s ∈ (table syn uri text).symbols) : s.uri = uri := by
  obtain ⟨found, -, hmem⟩ := exists_finding_of_mem_table h
  cases found with
  | function header =>
    rcases List.mem_cons.mp hmem with rfl | hparameter
    · rfl
    · obtain ⟨parameter, -, rfl⟩ := List.mem_map.mp hparameter
      rfl
  | _ =>
    cases List.mem_singleton.mp hmem
    rfl

/-- Functions are listed in the order of their names. -/
theorem pairwise_functions_table (syn : ModuleSyntax) (uri : Uri) (text : String) :
    (table syn uri text).functions.Pairwise fun a b => a.position < b.position := by
  rw [functions_table, List.pairwise_map, List.pairwise_filterMap]
  refine (pairwise_findings syn (Source.ofText text).code).imp_of_mem ?_
  intro found found' hfound hfound' hprecedes header hheader header' hheader'
  obtain rfl := eq_function_of_header? hheader
  obtain rfl := eq_function_of_header? hheader'
  exact (Source.position_lt_iff (opensBehind_of_mem_findings hfound).visible
    (opensBehind_of_mem_findings hfound').visible).mpr (hprecedes _ rfl _ rfl)

end Outline

/-- What can be used from other documents is a function. -/
theorem SymbolTable.exported_sublist_functions (table : SymbolTable) :
    table.exported.Sublist table.functions := by
  have hexported : table.exported = table.functions.filter (·.isTopLevelFunction) := by
    rw [functions, List.filter_filter]
    refine List.filter_congr fun s _ => ?_
    cases hrole : s.role <;> simp [Symbol.isTopLevelFunction, Symbol.kind, hrole]
  rw [hexported]
  exact List.filter_sublist

namespace Workspace

open Library

/-! ### Tables come from texts -/

/-- Whether every table was made from a text of its document. -/
def Made (workspace : Workspace) : Prop :=
  ∀ uri table, workspace.table? uri = some table → ∃ syn text, table = Outline.table syn uri text

/-- Whether no two modules share a file, and every table was made from a text of its document. -/
structure Grounded (workspace : Workspace) : Prop where
  distinct : workspace.index.Distinct
  made : workspace.Made

section Made

variable {workspace : Workspace}

theorem Made.update (h : workspace.Made) (uri : Uri) (text : String) :
    (workspace.update uri text).Made := by
  intro other table htable
  rw [table?_update] at htable
  split at htable
  next heq =>
    rw [heq, ← Option.some.inj htable]
    exact ⟨workspace.syn, text, rfl⟩
  next => exact h other table htable

theorem Made.forget (h : workspace.Made) (uri : Uri) : (workspace.forget uri).Made := by
  intro other table htable
  rw [table?_forget] at htable
  split at htable
  next => cases htable
  next => exact h other table htable

theorem Made.indexFile (h : workspace.Made) {disk : Disk} {path : Path} {after : Workspace}
    (hafter : workspace.indexFile disk path = .ok after) : after.Made := by
  unfold Workspace.indexFile at hafter
  split at hafter
  next => cases hafter
  next uri _ =>
    split at hafter
    next =>
      cases hafter
      exact h
    next =>
      split at hafter
      next => cases hafter
      next text _ =>
        cases hafter
        exact h.update uri text

theorem Made.tryIndexFile (h : workspace.Made) (disk : Disk) (path : Path) :
    (workspace.tryIndexFile disk path).Made := by
  unfold Workspace.tryIndexFile
  split
  next after hafter => exact h.indexFile hafter
  next => exact h

theorem Made.applyChange (h : workspace.Made) (disk : Disk) (change : Change) :
    (applyChange disk workspace change).Made := by
  cases change with
  | added entry => exact h.tryIndexFile disk entry.path
  | changed entry => exact h.tryIndexFile disk entry.path
  | removed entry =>
    show (workspace.forgetFile entry).Made
    unfold forgetFile
    split
    next uri _ =>
      split
      next => exact h
      next => exact h.forget uri
    next => exact h

theorem Made.adopt (h : workspace.Made) (disk : Disk) (scanned : Scanned) :
    (workspace.adopt disk scanned).Made := by
  have hindex : ({ workspace with index := scanned.index } : Workspace).Made := h
  unfold Workspace.adopt applyChanges
  generalize ({ workspace with index := scanned.index } : Workspace) = start at hindex
  induction scanned.changes generalizing start with
  | nil => exact hindex
  | cons change rest ih => exact ih _ (hindex.applyChange disk change)

theorem Made.closeDocument (h : workspace.Made) (disk : Disk) (uri : Uri) :
    (workspace.closeDocument disk uri).Made := by
  have hclosed :
      ({ workspace with opened := workspace.opened.filter (· ≠ uri) } : Workspace).Made :=
    h
  unfold Workspace.closeDocument
  dsimp only
  split
  next entry _ =>
    split
    next after hafter => exact hclosed.indexFile hafter
    next => exact hclosed.forget uri
  next => exact hclosed.forget uri

/-- Every operation makes tables from texts. -/
theorem Made.perform (h : workspace.Made) (disk : Disk) (operation : Operation) :
    (workspace.perform disk operation).Made := by
  cases operation with
  | openDocument uri text =>
    have hopened : ∀ opened, ({ workspace with opened } : Workspace).Made := fun _ => h
    exact (hopened _).update uri text
  | changeDocument uri text => exact h.update uri text
  | closeDocument uri => exact h.closeDocument disk uri
  | configure settings => exact h
  | indexFile path => exact h.tryIndexFile disk path
  | scan root =>
    simp only [Workspace.perform]
    split
    next after watch hscan =>
      obtain ⟨scanned, -, rfl⟩ := exists_of_scan hscan
      exact h.adopt disk scanned
    next => exact h
  | rescan directory => exact h.adopt disk _

end Made

/-- **Whatever was done,** no two modules share a file, and tables come from texts. -/
theorem grounded_run (settings : Settings) (steps : List (Disk × Operation)) :
    ((ofSettings settings).run steps).Grounded where
  distinct := Index.distinct _
  made := by
    refine run_keeps Made (fun workspace step _ h => h.perform step.1 step.2) ?_
    exact fun uri table htable => absurd htable (by simp [table?, ofSettings])

/-! ### What a module offers -/

/-- Whether a module offers a function under a name: it stands at the top level of the table of a
    file with this module name. -/
def Offers (workspace : Workspace) (module name : String) (s : Symbol) : Prop :=
  ∃ entry ∈ workspace.index.entries, entry.name = module
    ∧ ∃ uri table, entry.uri? = some uri ∧ workspace.table? uri = some table
      ∧ s ∈ table.symbols ∧ s.isTopLevelFunction = true ∧ s.name = name

/-- Two symbols that are not one declaration: they stand in different documents, or at different
    places. -/
def Apart (s t : Symbol) : Prop := s.uri ≠ t.uri ∨ s.position ≠ t.position

/-- Whether a list holds what a module offers under a name, each declaration once. -/
structure ListsOnce (workspace : Workspace) (module name : String) (found : List Symbol) :
    Prop where
  mem_iff : ∀ s, s ∈ found ↔ workspace.Offers module name s
  apart : found.Pairwise Apart

section Lookup

variable {workspace : Workspace} {module other name : String} {s t : Symbol}

theorem ListsOnce.nodup {found : List Symbol} (h : workspace.ListsOnce module name found) :
    found.Nodup := by
  refine h.apart.imp ?_
  rintro s t (huri | hposition) rfl
  · exact huri rfl
  · exact hposition rfl

theorem mem_moduleFunctions :
    s ∈ (workspace.moduleFunctions module).filter (·.name = name)
      ↔ workspace.Offers module name s := by
  simp only [moduleFunctions, moduleTables, Index.find_eq, SymbolTable.exported, List.mem_filter,
    List.mem_flatMap, List.mem_filterMap, Option.bind_eq_some_iff, decide_eq_true_eq, beq_iff_eq]
  constructor
  · rintro ⟨⟨table, ⟨entry, ⟨hentry, hmodule⟩, uri, huri, htable⟩, hs, htop⟩, hname⟩
    exact ⟨entry, hentry, hmodule, uri, table, huri, htable, hs, htop, hname⟩
  · rintro ⟨entry, hentry, hmodule, uri, table, huri, htable, hs, htop, hname⟩
    exact ⟨⟨table, ⟨entry, ⟨hentry, hmodule⟩, uri, huri, htable⟩, hs, htop⟩, hname⟩

/-- The document of a function is the file it is offered from. -/
theorem Grounded.exists_of_offers (h : workspace.Grounded) (hs : workspace.Offers module name s) :
    ∃ entry ∈ workspace.index.entries, entry.name = module ∧ entry.uri? = some s.uri := by
  obtain ⟨entry, hentry, hmodule, uri, table, huri, htable, hmem, -, -⟩ := hs
  obtain ⟨syn, text, rfl⟩ := h.made uri table htable
  exact ⟨entry, hentry, hmodule, by rw [Outline.uri_of_mem_table hmem, huri]⟩

/-- A document belongs to one module. -/
theorem Grounded.module_eq (h : workspace.Grounded) (hs : workspace.Offers module name s)
    (ht : workspace.Offers other name t) (huri : s.uri = t.uri) : module = other := by
  obtain ⟨entry, hentry, rfl, hfile⟩ := h.exists_of_offers hs
  obtain ⟨entry', hentry', rfl, hfile'⟩ := h.exists_of_offers ht
  rw [huri] at hfile
  rw [Index.eq_of_parts_eq hentry hentry' (Uri.parts_eq_of_ofPath? hfile hfile')]

/-- The functions of one table stand at different places. -/
theorem Made.apart_exported (h : workspace.Made) {uri : Uri} {table : SymbolTable}
    (htable : workspace.table? uri = some table) : table.exported.Pairwise Apart := by
  obtain ⟨syn, text, rfl⟩ := h uri table htable
  refine ((Outline.pairwise_functions_table syn uri text).sublist
    (SymbolTable.exported_sublist_functions _)).imp fun hlt => .inr fun heq => ?_
  rw [heq] at hlt
  exact Position.lt_irrefl hlt

/-- **A module is listed once:** no two of its files share a document, and no two functions of a
    document share a place. -/
theorem Grounded.listsOnce (h : workspace.Grounded) (module name : String) :
    workspace.ListsOnce module name
      ((workspace.moduleFunctions module).filter (·.name = name)) where
  mem_iff _ := mem_moduleFunctions
  apart := by
    refine List.Pairwise.filter _ ?_
    rw [moduleFunctions, List.pairwise_flatMap, moduleTables, List.pairwise_filterMap]
    constructor
    · intro table htable
      obtain ⟨entry, -, hentry⟩ := List.mem_filterMap.mp htable
      obtain ⟨uri, -, htable⟩ := Option.bind_eq_some_iff.mp hentry
      exact h.made.apart_exported htable
    · have hfiles : (workspace.index.find module).Pairwise fun a b =>
          a.path.parts ≠ b.path.parts := by
        rw [Index.find_eq]
        exact (List.pairwise_map.mp h.distinct).filter _
      refine hfiles.imp ?_
      intro a b hparts table htable table' htable' s hs t ht
      obtain ⟨uri, huri, htable⟩ := Option.bind_eq_some_iff.mp htable
      obtain ⟨uri', huri', htable'⟩ := Option.bind_eq_some_iff.mp htable'
      obtain ⟨syn, text, rfl⟩ := h.made uri table htable
      obtain ⟨syn', text', rfl⟩ := h.made uri' table' htable'
      refine .inl fun heq => hparts ?_
      rw [Outline.uri_of_mem_table (List.mem_filter.mp hs).1,
        Outline.uri_of_mem_table (List.mem_filter.mp ht).1] at heq
      rw [← heq] at huri'
      exact Uri.parts_eq_of_ofPath? huri huri'

/-! ### Modules of a document -/

/-- What modules offer under a name, one after another. -/
def offeredBy (workspace : Workspace) (modules : List String) (name : String) : List Symbol :=
  (modules.flatMap workspace.moduleFunctions).filter (·.name = name)

theorem offeredBy_cons (workspace : Workspace) (module : String) (modules : List String)
    (name : String) :
    workspace.offeredBy (module :: modules) name
      = (workspace.moduleFunctions module).filter (·.name = name)
        ++ workspace.offeredBy modules name := by
  rw [offeredBy, List.flatMap_cons, List.filter_append, offeredBy]

/-- One list for each module, in their order. -/
theorem Grounded.exists_lists (h : workspace.Grounded) (modules : List String) (name : String) :
    ∃ lists, workspace.offeredBy modules name = lists.flatten
      ∧ List.Forall₂ (fun module found => workspace.ListsOnce module name found) modules lists := by
  induction modules with
  | nil => exact ⟨[], rfl, .nil⟩
  | cons module modules ih =>
    obtain ⟨lists, heq, hlists⟩ := ih
    refine ⟨(workspace.moduleFunctions module).filter (·.name = name) :: lists, ?_,
      .cons (h.listsOnce module name) hlists⟩
    rw [offeredBy_cons, heq, List.flatten_cons]

/-- A function is listed as often as its module is named. -/
theorem Grounded.count_offeredBy (h : workspace.Grounded) (modules : List String)
    (hs : workspace.Offers module name s) :
    (workspace.offeredBy modules name).count s = modules.count module := by
  induction modules with
  | nil => rfl
  | cons first rest ih =>
    rw [offeredBy_cons, List.count_append, ih, List.count_cons]
    by_cases hfirst : first = module
    · subst hfirst
      rw [List.count_eq_one_of_mem (h.listsOnce first name).nodup (mem_moduleFunctions.mpr hs)]
      simp [Nat.add_comm]
    · have hnot : s ∉ (workspace.moduleFunctions first).filter (·.name = name) := fun hmem =>
        hfirst (h.module_eq (mem_moduleFunctions.mp hmem) hs rfl)
      rw [List.count_eq_zero_of_not_mem hnot]
      simp [hfirst]

/-- Different modules list different declarations. -/
theorem Grounded.apart_offeredBy (h : workspace.Grounded) {modules : List String}
    (hmodules : modules.Nodup) : (workspace.offeredBy modules name).Pairwise Apart := by
  induction modules with
  | nil => exact .nil
  | cons first rest ih =>
    rw [List.nodup_cons] at hmodules
    rw [offeredBy_cons, List.pairwise_append]
    refine ⟨(h.listsOnce first name).apart, ih hmodules.2, fun s hs t ht => ?_⟩
    obtain ⟨⟨later, hlater, ht⟩, hname⟩ := And.imp_left List.mem_flatMap.mp (List.mem_filter.mp ht)
    refine .inl fun huri => hmodules.1 ?_
    rw [h.module_eq (mem_moduleFunctions.mp hs)
      (mem_moduleFunctions.mp (List.mem_filter.mpr ⟨ht, hname⟩)) huri]
    exact hlater

end Lookup

/-- **Modules are searched in the order of the imports.**  A qualified name gives what the module in
    front of its last separator offers under the rest, each declaration once.  A plain name gives
    one such list for each import of the document, in their order: every function is listed as often
    as the document imports its module, and no declaration is listed twice when no module is
    imported twice. -/
theorem imports_searched_in_order {workspace : Workspace} (h : workspace.Grounded) (uri : Uri)
    (name : String) :
    (∀ module member, CutsAtLast workspace.syn.separator name.toList module member →
        workspace.ListsOnce (String.ofList module) (String.ofList member)
          (workspace.findAcrossImports uri name))
      ∧ ((∀ module member, name.toList ≠ module ++ workspace.syn.separator ++ member) →
        (∃ lists, workspace.findAcrossImports uri name = lists.flatten
            ∧ List.Forall₂ (fun module found => workspace.ListsOnce module name found)
              (workspace.usedModules uri) lists)
          ∧ (∀ module s, workspace.Offers module name s →
            (workspace.findAcrossImports uri name).count s
              = (workspace.usedModules uri).count module)
          ∧ ((workspace.usedModules uri).Nodup →
            (workspace.findAcrossImports uri name).Pairwise Apart)) := by
  have hseparator : workspace.syn.separator ≠ [] :=
    ModuleSyntax.separator_ofSeparator_ne_nil workspace.settings.layout.separator
  constructor
  · intro module member hcut
    have hsplit : workspace.syn.splitQualified? name.toList = some (module, member) :=
      (cutLast?_eq_some_iff hseparator).mpr hcut
    rw [findAcrossImports, hsplit]
    exact h.listsOnce _ _
  · intro hplain
    have hsplit : workspace.syn.splitQualified? name.toList = none :=
      (cutLast?_eq_none_iff hseparator).mpr hplain
    have hfound : workspace.findAcrossImports uri name
        = workspace.offeredBy (workspace.usedModules uri) name := by
      rw [findAcrossImports, hsplit]
      rfl
    rw [hfound]
    exact ⟨h.exists_lists _ name, fun module s => h.count_offeredBy _, h.apart_offeredBy⟩

/-- Two modules with a function of one name. -/
def twoModules : Disk :=
  ⟨[["ws"], ["ws", "lib"]], [(["ws", "m.dos"], .text "def f() \x7b\x7d"),
    (["ws", "lib", "n.dos"], .text "def f(a) \x7b def g() \x7b\x7d \x7d")]⟩

/-- A document that is opened when the two modules are known. -/
def importer : Uri := ⟨"file:///ws/a.dos"⟩

/-- The workspace with the document in it. -/
def importing (text : String) : Workspace :=
  (ofSettings {}).run [(twoModules, .scan ⟨"/ws"⟩), (twoModules, .openDocument importer text)]

/-- The module that is imported first comes first, and a qualified name asks one module only. -/
theorem functions_follow_imports :
    ((importing "use lib::n\nuse m").findAcrossImports importer "f").map (·.uri)
        = [⟨"file:///ws/lib/n.dos"⟩, ⟨"file:///ws/m.dos"⟩]
      ∧ ((importing "use lib::n\nuse m").findAcrossImports importer "f").Pairwise Apart
      ∧ (importing "use lib::n\nuse m").ListsOnce "m" "f"
        ((importing "use lib::n\nuse m").findAcrossImports importer "m::f") := by
  have hgrounded : (importing "use lib::n\nuse m").Grounded := grounded_run _ _
  have hseparator : (importing "use lib::n\nuse m").syn.separator ≠ [] := by decide +kernel
  refine ⟨by decide +kernel, ?_, ?_⟩
  · have hplain : cutLast? (importing "use lib::n\nuse m").syn.separator "f".toList = none := by
      decide +kernel
    exact ((imports_searched_in_order hgrounded importer "f").2
      ((cutLast?_eq_none_iff hseparator).mp hplain)).2.2 (by decide +kernel)
  · have hcut : cutLast? (importing "use lib::n\nuse m").syn.separator "m::f".toList
        = some ("m".toList, "f".toList) := by decide +kernel
    exact (imports_searched_in_order hgrounded importer "m::f").1 _ _
      ((cutLast?_eq_some_iff hseparator).mp hcut)

/-- **A module that is imported twice is searched twice,** so its function is listed twice. -/
theorem repeated_import_repeats_function :
    (importing "use m\nuse m").usedModules importer = ["m", "m"]
      ∧ (∃ s, (importing "use m\nuse m").Offers "m" "f" s
        ∧ (importing "use m\nuse m").findAcrossImports importer "f" = [s, s])
      ∧ ¬ ((importing "use m\nuse m").findAcrossImports importer "f").Pairwise Apart := by
  have hfound : (importing "use m\nuse m").findAcrossImports importer "f"
      = [⟨"f", ⟨⟨0, 4⟩, ⟨0, 5⟩⟩, ⟨"file:///ws/m.dos"⟩,
          .func [] none ⟨⟨0, 0⟩, ⟨0, 10⟩⟩ ⟨⟨0, 8⟩, ⟨0, 9⟩⟩ true⟩,
        ⟨"f", ⟨⟨0, 4⟩, ⟨0, 5⟩⟩, ⟨"file:///ws/m.dos"⟩,
          .func [] none ⟨⟨0, 0⟩, ⟨0, 10⟩⟩ ⟨⟨0, 8⟩, ⟨0, 9⟩⟩ true⟩] := by decide +kernel
  refine ⟨by decide +kernel, ⟨_, mem_moduleFunctions.mp (by decide +kernel), hfound⟩, ?_⟩
  rw [hfound, List.pairwise_pair]
  rintro (huri | hposition)
  · exact huri rfl
  · exact hposition rfl

end Workspace

end ScriptServer

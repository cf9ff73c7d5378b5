import SnippetExpansion.Proofs.Store.History
import SnippetExpansion.Proofs.Transfer.Collisions
import SnippetExpansion.Proofs.Transfer.Conservation
import SnippetExpansion.Proofs.Transfer.ReadBack

/-! # Importing the same again
After an import every shortcut and every name that came in is there, whatever has become of its entry. So the
same text comes in for the second time as conflicts and nothing else, and where what exists is kept nothing is
written and nobody is told. -/
namespace SnippetExpansion

open Snippet

namespace SnippetMerge

variable {ids : IdSource} {policy : ConflictPolicy} {m : SnippetMerge} {s : Snippet}
  {incoming : List Snippet}

theorem shortcuts_foldl_add :
    shortcuts m.snippets ⊆ shortcuts (incoming.foldl (add ids fun _ _ _ => policy) m).snippets ∧
      shortcuts incoming ⊆ shortcuts (incoming.foldl (add ids fun _ _ _ => policy) m).snippets := by
  induction incoming generalizing m with
  | nil => exact ⟨List.Subset.refl _, List.nil_subset _⟩
  | cons s incoming ih =>
    obtain ⟨hkept, hcame⟩ := ih (m := m.add ids (fun _ _ _ => policy) s)
    have hnext : shortcuts (m.add ids (fun _ _ _ => policy) s).snippets =
        takenAfter policy (shortcuts m.snippets) s.shortcut := add_shortcuts.1
    rw [hnext] at hkept
    exact ⟨fun x hx => hkept (subset_takenAfter hx),
      List.cons_subset.2 ⟨hkept mem_takenAfter, hcame⟩⟩

end SnippetMerge

section Snippets

variable {existing incoming : List Snippet}

theorem incoming_subset_mergeSnippets {ids : IdSource} {policy : ConflictPolicy} {issued : List Text} :
    shortcuts incoming ⊆
      shortcuts (mergeSnippets ids issued (fun _ _ _ => policy) existing incoming).snippets :=
  SnippetMerge.shortcuts_foldl_add.2

theorem mergeSnippets_known (ids : IdSource) (issued : List Text)
    (h : shortcuts incoming ⊆ shortcuts existing) :
    ∃ refused, refused.length = incoming.length ∧
      mergeSnippets ids issued (fun _ _ _ => .keepExisting) existing incoming =
        ⟨existing, 0, refused, issued⟩ := by
  rw [mergeSnippets_eq]
  refine (SnippetMerge.merging ids).foldl_add_known ⟨existing, 0, [], issued⟩ incoming fun s hs => ?_
  exact SnippetMerge.question?_isSome.2 (h (List.mem_map_of_mem hs))

end Snippets

theorem mergeVariables_known {existing incoming : Variables} (h : incoming.names ⊆ existing.names) :
    ∃ refused, refused.length = incoming.entries.length ∧
      mergeVariables (fun _ _ _ _ => .keepExisting) existing incoming = ⟨existing, 0, refused⟩ := by
  rw [mergeVariables_eq]
  refine VariableMerge.merging.foldl_add_known ⟨existing, 0, []⟩ incoming.entries fun e he => ?_
  exact VariableMerge.question?_isSome.2 (h (List.mem_map_of_mem he))

namespace Store

variable {s : Store} {d : StoredData}

theorem importSnippets_known (ids : IdSource) {content : Text} {incoming : List Snippet}
    (hincoming : Snippet.parseImport content = .ok incoming) (hd : s.file.data = .ok d)
    (h : shortcuts incoming ⊆ shortcuts d.snippets) :
    (importSnippets ids content .keepExisting).run s = (.ok ⟨0, incoming.length⟩, s) := by
  obtain ⟨refused, hlength, hmerge⟩ := mergeSnippets_known ids s.issued h
  rw [importSnippets_run hd ids hincoming, hmerge, ← hlength]
  exact if_pos rfl

theorem importVariables_known {content : Text} {incoming : Variables}
    (hincoming : Variables.parseImport content = .ok incoming) (hd : s.file.data = .ok d)
    (h : incoming.names ⊆ d.vars.names) :
    (importVariables content .keepExisting).run s = (.ok ⟨0, incoming.entries.length⟩, s) := by
  obtain ⟨refused, hlength, hmerge⟩ := mergeVariables_known h
  rw [importVariables_run hd hincoming, hmerge, ← hlength]
  exact if_pos rfl

/-- A text that has been imported, under whatever policy, is imported again with what exists kept: every entry
in it is a conflict, none is taken in, and the store stays as it is, its file and what it has told included. -/
theorem import_again_changes_nothing (ids ids' : IdSource) (content : Text) (policy : ConflictPolicy)
    (s s' : Store) (report : Report) :
    ((importSnippets ids content policy).run s = (.ok report, s') →
      ∃ incoming, Snippet.parseImport content = .ok incoming ∧
        (importSnippets ids' content .keepExisting).run s' = (.ok ⟨0, incoming.length⟩, s')) ∧
    ((importVariables content policy).run s = (.ok report, s') →
      ∃ incoming, Variables.parseImport content = .ok incoming ∧
        (importVariables content .keepExisting).run s' = (.ok ⟨0, incoming.entries.length⟩, s')) := by
  constructor
  · intro hrun
    obtain ⟨d, d', -, hd', hmakes⟩ :=
      Operation.perform_makes ids (.importSnippets content policy) hrun
    obtain ⟨incoming, hincoming, hafter⟩ := hmakes.snippets
    refine ⟨incoming, hincoming, importSnippets_known ids' hincoming hd' ?_⟩
    rw [hafter]
    exact incoming_subset_mergeSnippets
  · intro hrun
    obtain ⟨d, d', -, hd', hmakes⟩ :=
      Operation.perform_makes ids (.importVariables content policy) hrun
    obtain ⟨incoming, hincoming, hafter⟩ := hmakes.vars
    refine ⟨incoming, hincoming, importVariables_known hincoming hd' ?_⟩
    rw [hafter]
    exact fun name hname => mem_mergeVariables_of_incoming hname

namespace SecondImport

def ids : IdSource := .guessing (numbered ['s'])

def snippets : List Snippet := [⟨[], ['/', 'a'], ['m'], none⟩, ⟨[], ['/', 'a'], ['n'], none⟩]

def vars : Variables := Dictionary.empty.insert ['a'] ['1']

def data : StoredData := { StoredData.empty with vars := Dictionary.empty.insert ['a'] ['0'] }

def store : Store := ofFile (.text " \x7b\"customVariables\": \x7b\"a\":\"0\"\x7d\x7d".toList)

def withSnippets : Store :=
  let made := [⟨"s_0".toList, "/a".toList, ['m'], none⟩, ⟨"s_1".toList, "/a_1".toList, ['n'], none⟩]
  ⟨.text { data with snippets := made }.write, [.snippets made], made.map (·.id), none⟩

def withVariable : Store := ⟨.text { data with vars }.write, [.vars vars], [], none⟩

/-- Two snippets with one shortcut, and a variable that is there already, come into a file laid out by hand. -/
theorem import_again_by_hand :
    (importSnippets ids (exportText snippets) .keepBoth).run store = (.ok ⟨2, 1⟩, withSnippets) ∧
    (importSnippets ids (exportText snippets) .keepExisting).run withSnippets =
      (.ok ⟨0, 2⟩, withSnippets) ∧
    (importVariables (Variables.exportText vars) .keepNew).run store = (.ok ⟨1, 1⟩, withVariable) ∧
    (importVariables (Variables.exportText vars) .keepExisting).run withVariable =
      (.ok ⟨0, 1⟩, withVariable) := by
  have hdata : store.file.data = .ok data := rfl
  have hsnippets : Snippet.parseImport (exportText snippets) = .ok snippets :=
    Snippet.parseImport_exportText (by decide)
  have hvars := Variables.parseImport_exportText vars
  have hfirst : (importSnippets ids (exportText snippets) .keepBoth).run store =
      (.ok ⟨2, 1⟩, withSnippets) := by
    rw [importSnippets_run hdata ids hsnippets]
    rfl
  have hfirst' : (importVariables (Variables.exportText vars) .keepNew).run store =
      (.ok ⟨1, 1⟩, withVariable) := by
    rw [importVariables_run hdata hvars]
    rfl
  obtain ⟨incoming, hincoming, hagain⟩ := (import_again_changes_nothing ids ids _ _ _ _ _).1 hfirst
  obtain ⟨incoming', hincoming', hagain'⟩ := (import_again_changes_nothing ids ids _ _ _ _ _).2 hfirst'
  obtain rfl := Except.ok.inj (hsnippets.symm.trans hincoming)
  obtain rfl := Except.ok.inj (hvars.symm.trans hincoming')
  exact ⟨hfirst, hagain, hfirst', hagain'⟩

end SecondImport
end Store
end SnippetExpansion

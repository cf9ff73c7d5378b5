import SnippetExpansion.Proofs.Dictionary
import SnippetExpansion.Proofs.Store.History
import SnippetExpansion.Proofs.Transfer.Merge
import SnippetExpansion.Proofs.Transfer.ReadBack

/-! # Export and import undo each other
Entries that are apart from each other and from all that is there are taken in as they are, without a
question to the policy. So an export goes into a store that has nothing of its kind as it was. -/
namespace SnippetExpansion

open Snippet

namespace SnippetMerge

variable (ids : IdSource) (decide : SnippetDecision) (m : SnippetMerge)

theorem add_apart {s : Snippet} (hid : s.id ≠ []) (hfresh : s.id ∉ Snippet.ids m.snippets)
    (hfree : s.shortcut ∉ shortcuts m.snippets) :
    m.add ids decide s = { m with snippets := m.snippets ++ [s], imported := m.imported + 1 } := by
  have hnone : m.snippets.findIdx? (·.shortcut = s.shortcut) = none := by
    refine List.findIdx?_eq_none_iff.2 fun other hother => decide_eq_false fun hsame => ?_
    exact hfree (List.mem_map.2 ⟨other, hother, hsame⟩)
  have hown : ¬(s.id.isEmpty || m.snippets.any (·.id = s.id)) = true := by
    simp only [Bool.or_eq_true, List.isEmpty_iff, List.any_eq_true, decide_eq_true_eq, not_or]
    refine ⟨hid, fun ⟨other, hother, hsame⟩ => hfresh (List.mem_map.2 ⟨other, hother, hsame⟩)⟩
  rw [add, hnone]
  simp only [append, identify, if_neg hown]

theorem foldl_add_apart {incoming : List Snippet} (hids : ∀ s ∈ incoming, s.id ≠ [])
    (hdistinct : Distinct (m.snippets ++ incoming)) :
    incoming.foldl (add ids decide) m =
      { m with
        snippets := m.snippets ++ incoming
        imported := m.imported + incoming.length } := by
  induction incoming generalizing m with
  | nil => rw [List.foldl_nil, List.append_nil, List.length_nil, Nat.add_zero]
  | cons s incoming ih =>
    have hid := hdistinct.ids
    have hshortcut := hdistinct.shortcuts
    rw [Snippet.ids, List.map_append, List.nodup_append] at hid
    rw [Snippet.shortcuts, List.map_append, List.nodup_append] at hshortcut
    have hfresh : s.id ∉ Snippet.ids m.snippets := fun hmem =>
      hid.2.2 s.id hmem s.id List.mem_cons_self rfl
    have hfree : s.shortcut ∉ shortcuts m.snippets := fun hmem =>
      hshortcut.2.2 s.shortcut hmem s.shortcut List.mem_cons_self rfl
    rw [List.append_cons] at hdistinct
    rw [List.foldl_cons, add_apart ids decide m (hids s List.mem_cons_self) hfresh hfree,
      ih _ (fun s' hs' => hids s' (List.mem_cons_of_mem _ hs')) hdistinct]
    simp only [List.append_assoc, List.singleton_append, List.length_cons, Nat.add_assoc,
      Nat.add_comm 1]

end SnippetMerge

theorem mergeSnippets_empty (ids : IdSource) (issued : List Text) (decide : SnippetDecision)
    {incoming : List Snippet} (hids : ∀ s ∈ incoming, s.id ≠ []) (hdistinct : Distinct incoming) :
    mergeSnippets ids issued decide [] incoming = ⟨incoming, incoming.length, [], issued⟩ := by
  rw [mergeSnippets, SnippetMerge.foldl_add_apart ids decide ⟨[], 0, [], issued⟩ hids hdistinct]
  simp only [List.nil_append, Nat.zero_add]

namespace VariableMerge

variable (decide : VariableDecision) (m : VariableMerge)

theorem foldl_add_apart {entries : List (Text × Text)} (hnames : (entries.map (·.1)).Nodup)
    (hapart : ∀ e ∈ entries, e.1 ∉ m.vars.names) :
    entries.foldl (fun m e => m.add decide e.1 e.2) m =
      { m with
        vars := entries.foldl (fun d e => d.insert e.1 e.2) m.vars
        imported := m.imported + entries.length } := by
  induction entries generalizing m with
  | nil => rfl
  | cons e entries ih =>
    obtain ⟨hfirst, hrest⟩ := List.nodup_cons.1 hnames
    have hnone : m.vars.find? e.1 = none := by
      rw [← Option.not_isSome_iff_eq_none, ← Dictionary.mem_names_iff]
      exact hapart e List.mem_cons_self
    have hadd : m.add decide e.1 e.2 = m.set e.1 e.2 := by rw [add, hnone]
    have hstill : ∀ e' ∈ entries, e'.1 ∉ (m.set e.1 e.2).vars.names := by
      intro e' he' hmem
      rcases Dictionary.mem_names_insert.1 hmem with hsame | hmem
      · exact hfirst (List.mem_map.2 ⟨e', he', hsame⟩)
      · exact hapart e' (List.mem_cons_of_mem _ he') hmem
    rw [List.foldl_cons, hadd, ih _ hrest hstill]
    simp only [set, List.foldl_cons, List.length_cons, Nat.add_assoc, Nat.add_comm 1]

end VariableMerge

theorem mergeVariables_empty (decide : VariableDecision) (incoming : Variables) :
    mergeVariables decide .empty incoming = ⟨incoming, incoming.entries.length, []⟩ := by
  rw [mergeVariables,
    VariableMerge.foldl_add_apart decide _ Dictionary.names_nodup fun e _ => List.not_mem_nil]
  have hall : incoming.entries.foldl (fun d e => d.insert e.1 e.2) .empty = incoming :=
    Dictionary.ofList_entries incoming
  rw [hall, Nat.zero_add]

namespace Store

variable {s : Store} {d : StoredData}

theorem importSnippets_exportText (ids : IdSource) (policy : ConflictPolicy)
    {snippets : List Snippet} (hnamed : ∀ x ∈ snippets, x.Named) (hdistinct : Distinct snippets)
    (hd : s.file.data = .ok d) (hnone : d.snippets = []) (hfault : s.writeFault = none) :
    ∃ s', (importSnippets ids (exportText snippets) policy).run s =
        (.ok ⟨snippets.length, 0⟩, s') ∧
      (load.run s').1 = .ok { d with snippets } := by
  have hincoming := Snippet.parseImport_exportText fun x hx => (hnamed x hx).2
  have hmerge := mergeSnippets_empty ids s.issued (fun _ _ _ => policy) (fun x hx => (hnamed x hx).1) hdistinct
  rw [importSnippets_run hd ids hincoming, hnone, hmerge]
  by_cases hempty : snippets = []
  · refine ⟨s, if_pos hempty, ?_⟩
    rw [run_load, hd, hempty, ← hnone]
  · dsimp only
    rw [if_neg hempty]
    exact carriedOut_loads hfault

theorem importVariables_exportText (policy : ConflictPolicy) (vars : Variables)
    (hd : s.file.data = .ok d) (hnone : d.vars = .empty) (hfault : s.writeFault = none) :
    ∃ s', (importVariables (Variables.exportText vars) policy).run s =
        (.ok ⟨vars.entries.length, 0⟩, s') ∧
      (load.run s').1 = .ok { d with vars } := by
  rw [importVariables_run hd (Variables.parseImport_exportText vars), hnone, mergeVariables_empty]
  by_cases hempty : vars = .empty
  · refine ⟨s, if_pos hempty, ?_⟩
    rw [run_load, hd, hempty, ← hnone]
  · dsimp only
    rw [if_neg hempty]
    exact carriedOut_loads hfault

/-- What is exported is read back as it was, and goes as it was into a store without entries of its kind,
whatever the policy. -/
theorem export_import_inverse (ids : IdSource) (policy : ConflictPolicy) :
    (∀ snippets : List Snippet, (∀ x ∈ snippets, ¬Text.isBlank x.shortcut) →
      Snippet.parseImport (exportText snippets) = .ok snippets) ∧
    (∀ vars : Variables, Variables.parseImport (Variables.exportText vars) = .ok vars) ∧
    (∀ (snippets : List Snippet) (s : Store) (d : StoredData), (∀ x ∈ snippets, x.Named) →
      Distinct snippets → s.file.data = .ok d → d.snippets = [] → s.writeFault = none →
      ∃ s', (importSnippets ids (exportText snippets) policy).run s =
          (.ok ⟨snippets.length, 0⟩, s') ∧
        (load.run s').1 = .ok { d with snippets }) ∧
    ∀ (vars : Variables) (s : Store) (d : StoredData), s.file.data = .ok d → d.vars = .empty →
      s.writeFault = none →
      ∃ s', (importVariables (Variables.exportText vars) policy).run s =
          (.ok ⟨vars.entries.length, 0⟩, s') ∧
        (load.run s').1 = .ok { d with vars } := by
  refine ⟨fun snippets => Snippet.parseImport_exportText, Variables.parseImport_exportText, ?_, ?_⟩
  · intro snippets s d hnamed hdistinct hd hnone hfault
    exact importSnippets_exportText ids policy hnamed hdistinct hd hnone hfault
  · intro vars s d hd hnone hfault
    exact importVariables_exportText policy vars hd hnone hfault

def escapedPair : List Snippet :=
  [⟨"1".toList, "/\"".toList, "\\\n\x00".toList, none⟩, ⟨"☃".toList, " / ".toList, [], some []⟩]

theorem export_import_inverse_escaped :
    ∃ s', (importSnippets (.guessing Text.ofNat) (exportText escapedPair) .keepBoth).run
        (.ofFile .missing) = (.ok ⟨2, 0⟩, s') ∧
      (load.run s').1 = .ok { StoredData.empty with snippets := escapedPair } := by
  obtain ⟨-, -, himport, -⟩ := export_import_inverse (.guessing Text.ofNat) .keepBoth
  have hnamed : ∀ x ∈ escapedPair, x.Named := by
    intro x hx
    rcases List.mem_pair.1 hx with rfl | rfl <;> exact ⟨by decide, by decide⟩
  exact himport escapedPair (.ofFile .missing) .empty hnamed ⟨by decide, by decide⟩ rfl rfl rfl

end Store
end SnippetExpansion

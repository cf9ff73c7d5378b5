import SnippetExpansion.Proofs.Store.History
import SnippetExpansion.Proofs.Template.Command
import SnippetExpansion.Proofs.Transfer.ReadBack
import SnippetExpansion.Proofs.Transfer.Variables

/-! # Names of stored variables
Setting, renaming and deleting go by names without braces. An import takes names as they come, so a name
with a brace is stored when an import brings one, stays for good, and cannot be deleted. -/
namespace SnippetExpansion

namespace Variables

theorem cleanName_absent (name : Text) : Bracket.curly.Absent (cleanName name) := fun _ hc =>
  (List.mem_filter.1 hc).2

theorem cleanName_eq_self_iff {name : Text} : cleanName name = name ↔ Bracket.curly.Absent name :=
  List.filter_eq_self

end Variables

theorem numbered_absent_iff {b : Bracket} {base : Text} {n : Nat} :
    b.Absent (numbered base n) ↔ b.Absent base := by
  have hnumber : b.Absent ('_' :: Text.ofNat n) :=
    Bracket.Absent.cons_iff.2 ⟨by cases b <;> rfl, (Text.ofNat_plain n).bracketFree b⟩
  rw [numbered, Bracket.Absent.append_iff]
  exact and_iff_left hnumber

/-- Whether the operation takes in a text with a variable of this name. -/
def Operation.Brings (name : Text) : Operation → Prop
  | importVariables content _ =>
      ∃ incoming, Variables.parseImport content = .ok incoming ∧ name ∈ incoming.names
  | _ => False

def Brought (done : List Operation) (name : Text) : Prop := ∃ op ∈ done, op.Brings name

theorem brought_append {done : List Operation} {op : Operation} {name : Text} :
    Brought (done ++ [op]) name ↔ Brought done name ∨ op.Brings name := by
  simp only [Brought, List.mem_append, List.mem_singleton, or_and_right, exists_or,
    exists_eq_left]

/-- What imports have to do with the names that are not as they should be. -/
structure Variables.Traced (done : List Operation) (vars : Variables) : Prop where
  blank : ∀ name ∈ vars.names, Text.isBlank name → Brought done name
  braced : ∀ name ∈ vars.names, ¬Bracket.curly.Absent name →
    ∃ base, Brought done base ∧ ¬Bracket.curly.Absent base
  kept : ∀ name, Brought done name → ¬Bracket.curly.Absent name → name ∈ vars.names

namespace Variables.Traced

variable {done : List Operation} {vars vars' : Variables}

theorem of_clean {op : Operation} (h : Traced done vars) (hbrings : ∀ name, ¬op.Brings name)
    (hnew : ∀ name ∈ vars'.names, name ∈ vars.names ∨
      ¬Text.isBlank name ∧ Bracket.curly.Absent name)
    (hstay : ∀ name ∈ vars.names, ¬Bracket.curly.Absent name → name ∈ vars'.names) :
    Traced (done ++ [op]) vars' := by
  refine ⟨fun name hname hblank => ?_, fun name hname hbrace => ?_, fun name hname hbrace => ?_⟩
  · rcases hnew name hname with hold | ⟨hnot, -⟩
    · exact brought_append.2 (.inl (h.blank name hold hblank))
    · exact absurd hblank hnot
  · rcases hnew name hname with hold | ⟨-, habsent⟩
    · obtain ⟨base, hbase, hbraced⟩ := h.braced name hold hbrace
      exact ⟨base, brought_append.2 (.inl hbase), hbraced⟩
    · exact absurd habsent hbrace
  · have hbefore := (brought_append.1 hname).resolve_right (hbrings name)
    exact hstay name (h.kept name hbefore hbrace) hbrace

theorem erase_clean {name other : Text} (hother : other ∈ vars.names)
    (hbrace : ¬Bracket.curly.Absent other) : other ∈ (vars.erase (cleanName name)).names := by
  refine Dictionary.mem_names_erase.2 ⟨?_, hother⟩
  rintro rfl
  exact hbrace (cleanName_absent name)

theorem of_import {content : Text} {policy : ConflictPolicy} {incoming : Variables}
    (h : Traced done vars) (hincoming : Variables.parseImport content = .ok incoming) :
    Traced (done ++ [.importVariables content policy])
      (mergeVariables (fun _ _ _ _ => policy) vars incoming).vars := by
  have hbrought {name : Text} (hname : name ∈ incoming.names) :
      Brought (done ++ [.importVariables content policy]) name :=
    brought_append.2 (.inr ⟨incoming, hincoming, hname⟩)
  refine ⟨fun name hname hblank => ?_, fun name hname hbrace => ?_, fun name hname hbrace => ?_⟩
  · rcases mem_mergeVariables hname with hold | ⟨base, hbase, rfl | ⟨n, rfl⟩⟩
    · exact brought_append.2 (.inl (h.blank name hold hblank))
    · exact hbrought hbase
    · exact absurd hblank (numbered_not_blank base n)
  · rcases mem_mergeVariables hname with hold | ⟨base, hbase, rfl | ⟨n, rfl⟩⟩
    · obtain ⟨base, hbase, hbraced⟩ := h.braced name hold hbrace
      exact ⟨base, brought_append.2 (.inl hbase), hbraced⟩
    · exact ⟨name, hbrought hbase, hbrace⟩
    · exact ⟨base, hbrought hbase, mt numbered_absent_iff.2 hbrace⟩
  · rcases brought_append.1 hname with hbefore | ⟨other, hother, hname⟩
    · exact mem_mergeVariables_of_existing (h.kept name hbefore hbrace)
    · obtain rfl := Except.ok.inj (hother.symm.trans hincoming)
      exact mem_mergeVariables_of_incoming hname

theorem of_makes {op : Operation} (h : Traced done vars)
    (hwhole : ∀ vars, op ≠ .replaceVariables vars) (hmakes : op.MakesVars vars vars') :
    Traced (done ++ [op]) vars' := by
  cases op with
  | saveVariable name value oldName =>
    obtain ⟨hblank, others, hothers, rfl⟩ := hmakes
    refine h.of_clean (fun _ => id) (fun other hother => ?_) fun other hother hbrace => ?_
    · rcases Dictionary.mem_names_insert.1 hother with rfl | hother
      · exact .inr ⟨hblank, cleanName_absent name⟩
      · rcases hothers with rfl | ⟨old, -, rfl⟩
        · exact .inl hother
        · exact .inl (Dictionary.mem_names_erase.1 hother).2
    · refine Dictionary.mem_names_insert.2 (.inr ?_)
      rcases hothers with rfl | ⟨old, -, rfl⟩
      · exact hother
      · exact erase_clean hother hbrace
  | deleteVariable name =>
    obtain ⟨-, rfl⟩ := hmakes
    refine h.of_clean (fun _ => id) (fun other hother => ?_) fun other hother => erase_clean hother
    exact .inl (Dictionary.mem_names_erase.1 hother).2
  | replaceVariables vars => exact absurd rfl (hwhole vars)
  | importVariables content policy =>
    obtain ⟨incoming, hincoming, rfl⟩ := hmakes
    exact h.of_import hincoming
  | _ =>
    obtain rfl := hmakes
    refine h.of_clean (fun _ => False.elim) (fun _ hname => .inl hname) fun _ hname _ => hname

end Variables.Traced

theorem Store.deletes_iff {s : Store} {d : StoredData} {name : Text} (hd : s.file.data = .ok d)
    (hname : name ∈ d.vars.names) (hfault : s.writeFault = none) :
    Bracket.curly.Absent name ↔
      ∃ s', (Store.deleteVariable name).run s = (.ok (), s') ∧
        (Store.load.run s').1 = .ok { d with vars := d.vars.erase name } := by
  constructor
  · intro habsent
    have hclean := Variables.cleanName_eq_self_iff.2 habsent
    have hknown : d.vars.contains name := Dictionary.mem_names_iff.1 hname
    rw [Store.deleteVariable_run hd, hclean, if_pos hknown]
    exact Store.carriedOut_loads hfault
  · rintro ⟨s', hrun, hafter⟩
    obtain ⟨d₁, d', hd₁, hd', hmakes⟩ :=
      Operation.perform_makes (.guessing fun _ => ['x']) (.deleteVariable name) hrun
    obtain rfl : d = d₁ := Except.ok.inj (hd.symm.trans hd₁)
    obtain rfl := Except.ok.inj (hd'.symm.trans hafter)
    have hsame : d.vars.erase name = d.vars.erase (Variables.cleanName name) := hmakes.vars.2
    refine Variables.cleanName_eq_self_iff.1 (Decidable.byContradiction fun hne => ?_)
    have hstays := Dictionary.mem_names_erase.2 ⟨Ne.symm hne, hname⟩
    rw [← hsame] at hstays
    exact (Dictionary.mem_names_erase.1 hstays).1 rfl

/-- In a store that starts without data, no variable has a brace in its name as long as no import brings
such a name, a name is blank only where an import has brought it, and of all names that are listed exactly
those without braces can be deleted. Replacing all variables at once takes names as they come. -/
theorem Store.Reached.names_without_braces_iff {ids : IdSource} {file : File} {done : List Operation}
    {s : Store} (hfile : file.data = .ok .empty) (h : Store.Reached ids file done s)
    (hwhole : ∀ op ∈ done, ∀ vars, op ≠ .replaceVariables vars) :
    ∃ d, (Store.load.run s).1 = .ok d ∧
      ((∀ name ∈ d.vars.names, Bracket.curly.Absent name) ↔
        ∀ name, Brought done name → Bracket.curly.Absent name) ∧
      (∀ name ∈ d.vars.names, Text.isBlank name → Brought done name) ∧
      (s.writeFault = none → ∀ name ∈ d.vars.names, (Bracket.curly.Absent name ↔
        ∃ s', (Store.deleteVariable name).run s = (.ok (), s') ∧
          (Store.load.run s').1 = .ok { d with vars := d.vars.erase name })) := by
  have hstart : Variables.Traced [] Dictionary.empty :=
    ⟨fun _ hname => absurd hname List.not_mem_nil, fun _ hname => absurd hname List.not_mem_nil,
      fun _ ⟨_, hop, _⟩ => absurd hop List.not_mem_nil⟩
  obtain ⟨d, hd, htraced⟩ := h.invariant (P := fun done d => Variables.Traced done d.vars) hfile
    hstart (fun _ _ _ _ _ hop htraced hmakes => htraced.of_makes hop hmakes.vars) hwhole
  refine ⟨d, hd, ⟨fun hclean name hbrought => ?_, fun hclean name hname => ?_⟩, htraced.blank,
    fun hfault name hname => Store.deletes_iff hd hname hfault⟩
  · by_contra hbrace
    exact hbrace (hclean name (htraced.kept name hbrought hbrace))
  · by_contra hbrace
    obtain ⟨base, hbrought, hbraced⟩ := htraced.braced name hname hbrace
    exact hbraced (hclean base hbrought)

namespace BracedName

def ids : IdSource := .guessing (numbered ['s'])

def name : Text := ['\x7b', 'x', '\x7d']

def incoming : Variables := Dictionary.empty.insert name ['1']

def bring : Operation := .importVariables (Variables.exportText incoming) .keepExisting

def store : Store :=
  ⟨.text { StoredData.empty with vars := incoming }.write, [.vars incoming], [], none⟩

theorem reached : Store.Reached ids .missing [bring] store := by
  have hrun : (bring.perform ids).run (Store.ofFile .missing) = (.ok ⟨1, 0⟩, store) := by
    have hperform : bring.perform ids =
        Store.importVariables (Variables.exportText incoming) .keepExisting := rfl
    rw [hperform, Store.importVariables, Variables.parseImport_exportText]
    rfl
  exact .succeed bring ⟨1, 0⟩ .start hrun

/-- A variable whose name stands in braces is imported where there is no file yet. -/
theorem names_without_braces_where_brought : Store.Reached ids .missing [bring] store ∧
    ∃ d, (Store.load.run store).1 = .ok d ∧
      ((∀ name ∈ d.vars.names, Bracket.curly.Absent name) ↔
        ∀ name, Brought [bring] name → Bracket.curly.Absent name) ∧
      (∀ name ∈ d.vars.names, Text.isBlank name → Brought [bring] name) ∧
      (store.writeFault = none → ∀ name ∈ d.vars.names, (Bracket.curly.Absent name ↔
        ∃ s', (Store.deleteVariable name).run store = (.ok (), s') ∧
          (Store.load.run s').1 = .ok { d with vars := d.vars.erase name })) :=
  ⟨reached, Store.Reached.names_without_braces_iff rfl reached (by simp [bring])⟩

/-- The name is listed with its braces, and deleting it looks for another name. -/
theorem counterexample_braced_name_stays : Store.Reached ids .missing [bring] store ∧
    (Store.loadVariables.run store).1 = .ok incoming ∧ name ∈ incoming.names ∧
    ¬Bracket.curly.Absent name ∧
    (Store.deleteVariable name).run store =
      (.error (.notFound (Failure.naming "variable" ['x'])), store) := by
  have hdata : store.file.data = .ok { StoredData.empty with vars := incoming } :=
    File.data_write _
  refine ⟨reached, ?_, by decide, by decide, ?_⟩
  · rw [Store.loadVariables, Store.run_map_load, hdata]
    rfl
  · rw [Store.deleteVariable_run hdata]
    rfl

end BracedName
end SnippetExpansion

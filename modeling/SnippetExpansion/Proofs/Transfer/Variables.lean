import SnippetExpansion.Transfer.Merge
import SnippetExpansion.Proofs.Dictionary
import SnippetExpansion.Proofs.Transfer.Suffix

/-! # Names in a merge of variables
However conflicts are settled, a merge keeps every name that was there, has every name that comes in, and
what other names it has are numbered ones of those that come in. -/
namespace SnippetExpansion

/-- The name is this one, or this one with a number behind it. -/
def IsFrom (base name : Text) : Prop := name = base ∨ ∃ n, name = numbered base n

namespace VariableMerge

variable (decide : VariableDecision) (m : VariableMerge) (name value : Text)

def asked (old : Text) : VariableMerge := { m with conflicts := m.conflicts ++ [(name, old, value)] }

inductive Step : VariableMerge → Prop where
  | added : name ∉ m.vars.names → Step (m.set name value)
  | refused {old : Text} : m.vars.find? name = some old →
      decide m.conflicts.length name old value = .keepExisting → Step (m.asked name value old)
  | replaced {old : Text} : m.vars.find? name = some old →
      decide m.conflicts.length name old value = .keepNew →
      Step ((m.asked name value old).set name value)
  | renamed {old : Text} : m.vars.find? name = some old →
      decide m.conflicts.length name old value = .keepBoth →
      Step ((m.asked name value old).set (unusedSuffix name m.vars.names) value)

theorem add_step : Step decide m name value (m.add decide name value) := by
  rw [add]
  split
  · next hnone =>
    refine .added fun hmem => ?_
    rw [Dictionary.mem_names_iff, hnone] at hmem
    exact Bool.false_ne_true hmem
  · next old hold =>
    dsimp only
    split
    · next hdecide => exact .refused hold hdecide
    · next hdecide => exact .replaced hold hdecide
    · next hdecide => exact .renamed hold hdecide

section Names

variable {decide m name value} {m' : VariableMerge} (h : Step decide m name value m')
include h

theorem Step.names_subset : m.vars.names ⊆ m'.vars.names := by
  intro x hx
  cases h with
  | refused _ _ => exact hx
  | added _ => exact Dictionary.mem_names_insert.2 (.inr hx)
  | replaced _ _ => exact Dictionary.mem_names_insert.2 (.inr hx)
  | renamed _ _ => exact Dictionary.mem_names_insert.2 (.inr hx)

theorem Step.name_mem : name ∈ m'.vars.names := by
  cases h with
  | refused hold _ => exact Dictionary.mem_names_of_find? hold
  | added _ => exact Dictionary.mem_names_insert.2 (.inl rfl)
  | replaced _ _ => exact Dictionary.mem_names_insert.2 (.inl rfl)
  | renamed hold _ => exact Dictionary.mem_names_insert.2 (.inr (Dictionary.mem_names_of_find? hold))

theorem Step.mem_names {x : Text} (hx : x ∈ m'.vars.names) : x ∈ m.vars.names ∨ IsFrom name x := by
  cases h with
  | refused _ _ => exact .inl hx
  | added _ => exact (Dictionary.mem_names_insert.1 hx).symm.imp_right .inl
  | replaced _ _ => exact (Dictionary.mem_names_insert.1 hx).symm.imp_right .inl
  | renamed _ _ =>
    obtain ⟨n, -, -, hsuffix, -⟩ := unusedSuffix_eq name m.vars.names
    rw [hsuffix] at hx
    exact (Dictionary.mem_names_insert.1 hx).symm.imp_right fun h => .inr ⟨n, h⟩

end Names

theorem foldl_add (entries : List (Text × Text)) :
    let merged := (entries.foldl (fun m e => m.add decide e.1 e.2) m).vars.names
    m.vars.names ⊆ merged ∧ entries.map (·.1) ⊆ merged ∧
      ∀ x ∈ merged, x ∈ m.vars.names ∨ ∃ base ∈ entries.map (·.1), IsFrom base x := by
  induction entries generalizing m with
  | nil => exact ⟨fun _ hx => hx, List.nil_subset _, fun x hx => .inl hx⟩
  | cons e entries ih =>
    obtain ⟨hkept, hcame, hfrom⟩ := ih (m.add decide e.1 e.2)
    have hstep := add_step decide m e.1 e.2
    refine ⟨fun x hx => hkept (hstep.names_subset hx), ?_, fun x hx => ?_⟩
    · exact List.cons_subset.2 ⟨hkept hstep.name_mem, hcame⟩
    · rcases hfrom x hx with hx | ⟨base, hbase, hx⟩
      · rcases hstep.mem_names hx with hx | hx
        · exact .inl hx
        · exact .inr ⟨e.1, List.mem_cons_self, hx⟩
      · exact .inr ⟨base, List.mem_cons_of_mem _ hbase, hx⟩

end VariableMerge

section Merge

variable {decide : VariableDecision} {existing incoming : Variables} {name : Text}

theorem mem_mergeVariables_of_existing (h : name ∈ existing.names) :
    name ∈ (mergeVariables decide existing incoming).vars.names :=
  (VariableMerge.foldl_add decide ⟨existing, 0, []⟩ incoming.entries).1 h

theorem mem_mergeVariables_of_incoming (h : name ∈ incoming.names) :
    name ∈ (mergeVariables decide existing incoming).vars.names :=
  (VariableMerge.foldl_add decide ⟨existing, 0, []⟩ incoming.entries).2.1 h

theorem mem_mergeVariables (h : name ∈ (mergeVariables decide existing incoming).vars.names) :
    name ∈ existing.names ∨ ∃ base ∈ incoming.names, IsFrom base name :=
  (VariableMerge.foldl_add decide ⟨existing, 0, []⟩ incoming.entries).2.2 name h

end Merge
end SnippetExpansion

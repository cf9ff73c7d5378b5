import SnippetExpansion.Proofs.Store.Operation
import Mathlib.Data.List.Nodup

/-! # What operations make of the data
Of a store that is changed through its operations all is said here once: what each operation that succeeds
makes of the data, and that one that fails makes nothing of it. What holds of the first data, and is kept
by whatever an operation makes of data, holds after every course of operations. -/
namespace SnippetExpansion

namespace Store

variable {α : Type} {s s' : Store} {d : StoredData} {told : List Change} {a b : α}

theorem carriedOut_ok (h : carriedOut d told a s = (.ok b, s')) : s'.file.data = .ok d := by
  rw [carriedOut] at h
  cases hfault : s.writeFault with
  | some fault =>
    rw [hfault] at h
    cases h
  | none =>
    rw [hfault] at h
    obtain ⟨-, rfl⟩ := Prod.mk.inj h
    exact File.data_write d

theorem carriedOut_writable (hfault : s.writeFault = none) :
    ∃ s', carriedOut d told a s = (.ok a, s') ∧ s'.file = .text d.write := by
  rw [carriedOut, hfault]
  exact ⟨_, rfl, rfl⟩

theorem carriedOut_loads (hfault : s.writeFault = none) :
    ∃ s', carriedOut d told a s = (.ok a, s') ∧ (load.run s').1 = .ok d := by
  obtain ⟨s', hrun, hfile⟩ := carriedOut_writable hfault
  refine ⟨s', hrun, ?_⟩
  rw [run_load, hfile, File.data_write]

theorem mem_filed {categories : List Text} {category : Option Text} {c : Text} :
    c ∈ filed categories category ↔ c ∈ categories ∨ category = some c ∧ c ≠ [] := by
  cases category with
  | none => simp [filed, withCategory]
  | some name =>
    rw [filed, withCategory]
    split
    · next hknown =>
      simp only [Bool.or_eq_true, List.isEmpty_iff, List.contains_iff_mem] at hknown
      refine ⟨.inl, ?_⟩
      rintro (hmem | ⟨hname, hne⟩)
      · exact hmem
      · obtain rfl := Option.some.inj hname
        exact hknown.resolve_left hne
    · next hnew =>
      simp only [Bool.or_eq_true, List.isEmpty_iff, not_or] at hnew
      simp only [Option.getD_some, List.mem_append, List.mem_singleton, Option.some.injEq]
      refine or_congr_right ⟨?_, fun h => h.1.symm⟩
      rintro rfl
      exact ⟨rfl, hnew.1⟩

theorem filed_nodup {categories : List Text} (h : categories.Nodup) (category : Option Text) :
    (filed categories category).Nodup := by
  cases category with
  | none => exact h
  | some name =>
    rw [filed, withCategory]
    split
    · exact h
    · next hnew =>
      simp only [Bool.or_eq_true, List.contains_iff_mem, not_or] at hnew
      rw [Option.getD_some, List.nodup_append]
      refine ⟨h, List.nodup_singleton name, fun c hc c' hc' => ?_⟩
      rw [List.mem_singleton.1 hc']
      rintro rfl
      exact hnew.2 hc

end Store

namespace Operation

def category : Operation → Option Text
  | saveSnippet s => s.category
  | saveCategory name => some (Text.trim name)
  | _ => none

def MakesSnippets (ids : IdSource) (issued : List Text) (before after : List Snippet) :
    Operation → Prop
  | saveSnippet s => ¬Text.isBlank s.shortcut ∧ Store.shortcutTaken before s = false ∧
      after = (Store.placeSnippet ids issued before s).2.1
  | deleteSnippet id => after = before.filter (·.id ≠ id)
  | replaceSnippets snippets => after = snippets
  | importSnippets content policy => ∃ incoming, Snippet.parseImport content = .ok incoming ∧
      after = (mergeSnippets ids issued (fun _ _ _ => policy) before incoming).snippets
  | _ => after = before

def MakesVars (before after : Variables) : Operation → Prop
  | saveVariable name value oldName => ¬Text.isBlank (Variables.cleanName name) ∧
      ∃ others, (others = before ∨
          ∃ old, oldName = some old ∧ others = before.erase (Variables.cleanName old)) ∧
        after = others.insert (Variables.cleanName name) value
  | deleteVariable name => before.contains (Variables.cleanName name) ∧
      after = before.erase (Variables.cleanName name)
  | replaceVariables vars => after = vars
  | importVariables content policy => ∃ incoming, Variables.parseImport content = .ok incoming ∧
      after = (mergeVariables (fun _ _ _ _ => policy) before incoming).vars
  | _ => after = before

def MakesAi (before after : AiConfig) : Operation → Prop
  | saveAi ai => (∀ provider, ai.selected = some provider → (ai.key provider).isSome) ∧ after = ai
  | _ => after = before

/-- Whether the operation, where it succeeds, makes `d'` of `d`. -/
structure Makes (ids : IdSource) (issued : List Text) (d d' : StoredData) (op : Operation) : Prop where
  snippets : op.MakesSnippets ids issued d.snippets d'.snippets
  categories : d'.categories = Store.filed d.categories op.category
  vars : op.MakesVars d.vars d'.vars
  ai : op.MakesAi d.ai d'.ai

section Makes

variable {ids : IdSource} {s s' : Store} {d : StoredData} (hd : s.file.data = .ok d)
include hd

theorem saveSnippet_makes {new saved : Snippet}
    (h : (Store.saveSnippet ids new).run s = (.ok saved, s')) :
    ∃ d', s'.file.data = .ok d' ∧ (saveSnippet new).Makes ids s.issued d d' := by
  rw [Store.saveSnippet_run hd] at h
  split at h
  · cases h
  · next hblank =>
    split at h
    · cases h
    · next htaken =>
      exact ⟨_, Store.carriedOut_ok h, ⟨hblank, eq_false_of_ne_true htaken, rfl⟩, rfl, rfl, rfl⟩

theorem deleteSnippet_makes {id : Text} {u : Unit}
    (h : (Store.deleteSnippet id).run s = (.ok u, s')) :
    ∃ d', s'.file.data = .ok d' ∧ (deleteSnippet id).Makes ids s.issued d d' := by
  rw [Store.deleteSnippet_run hd] at h
  dsimp only at h
  split at h
  · cases h
  · exact ⟨_, Store.carriedOut_ok h, rfl, rfl, rfl, rfl⟩

theorem saveCategory_makes {name : Text} {u : Unit}
    (h : (Store.saveCategory name).run s = (.ok u, s')) :
    ∃ d', s'.file.data = .ok d' ∧ (saveCategory name).Makes ids s.issued d d' := by
  rw [Store.saveCategory_run hd] at h
  split at h
  · cases h
  · next hne =>
    split at h
    · next hknown =>
      obtain ⟨-, rfl⟩ := Prod.mk.inj h
      refine ⟨d, hd, rfl, ?_, rfl, rfl⟩
      rw [category, Store.filed, Store.withCategory, hknown, Bool.or_true, if_pos rfl]
      rfl
    · next hnew =>
      have hnone : ¬((Text.trim name).isEmpty || d.categories.contains (Text.trim name)) := by
        rw [Bool.or_eq_true]
        exact not_or.2 ⟨hne, hnew⟩
      refine ⟨_, Store.carriedOut_ok h, rfl, ?_, rfl, rfl⟩
      rw [category, Store.filed, Store.withCategory, if_neg hnone]
      rfl

theorem saveVariable_makes {name value : Text} {oldName : Option Text} {u : Unit}
    (h : (Store.saveVariable name value oldName).run s = (.ok u, s')) :
    ∃ d', s'.file.data = .ok d' ∧ (saveVariable name value oldName).Makes ids s.issued d d' := by
  rw [Store.saveVariable_run hd] at h
  split at h
  · cases h
  · next hblank =>
    refine ⟨_, Store.carriedOut_ok h, rfl, rfl, ⟨hblank, _, ?_, rfl⟩, rfl⟩
    cases oldName with
    | none => exact .inl rfl
    | some old =>
      simp only [Store.withoutOld, Option.map_some]
      split
      · exact .inl rfl
      · exact .inr ⟨old, rfl, rfl⟩

theorem deleteVariable_makes {name : Text} {u : Unit}
    (h : (Store.deleteVariable name).run s = (.ok u, s')) :
    ∃ d', s'.file.data = .ok d' ∧ (deleteVariable name).Makes ids s.issued d d' := by
  rw [Store.deleteVariable_run hd] at h
  split at h
  · next hknown => exact ⟨_, Store.carriedOut_ok h, rfl, rfl, ⟨hknown, rfl⟩, rfl⟩
  · cases h

theorem saveAi_makes {ai : AiConfig} {u : Unit} (h : (Store.saveAi ai).run s = (.ok u, s')) :
    ∃ d', s'.file.data = .ok d' ∧ (saveAi ai).Makes ids s.issued d d' := by
  rw [Store.saveAi_run hd] at h
  split at h
  · cases h
  · next hkeyed =>
    refine ⟨_, Store.carriedOut_ok h, rfl, rfl, rfl, fun provider hprovider => ?_, rfl⟩
    have hkey := Option.filter_eq_none_iff.1 hkeyed provider hprovider
    simpa [Option.isSome_iff_ne_none] using hkey

theorem importSnippets_makes {content : Text} {policy : ConflictPolicy} {report : Report}
    (h : (Store.importSnippets ids content policy).run s = (.ok report, s')) :
    ∃ d', s'.file.data = .ok d' ∧ (importSnippets content policy).Makes ids s.issued d d' := by
  cases hincoming : Snippet.parseImport content with
  | error failure =>
    rw [Store.importSnippets, hincoming] at h
    cases h
  | ok incoming =>
    rw [Store.importSnippets_run hd ids hincoming] at h
    dsimp only at h
    split at h
    · next hsame =>
      obtain ⟨-, rfl⟩ := Prod.mk.inj h
      exact ⟨d, hd, ⟨incoming, hincoming, hsame.symm⟩, rfl, rfl, rfl⟩
    · exact ⟨_, Store.carriedOut_ok h, ⟨incoming, hincoming, rfl⟩, rfl, rfl, rfl⟩

theorem importVariables_makes {content : Text} {policy : ConflictPolicy} {report : Report}
    (h : (Store.importVariables content policy).run s = (.ok report, s')) :
    ∃ d', s'.file.data = .ok d' ∧ (importVariables content policy).Makes ids s.issued d d' := by
  cases hincoming : Variables.parseImport content with
  | error failure =>
    rw [Store.importVariables, hincoming] at h
    cases h
  | ok incoming =>
    rw [Store.importVariables_run hd hincoming] at h
    dsimp only at h
    split at h
    · next hsame =>
      obtain ⟨-, rfl⟩ := Prod.mk.inj h
      exact ⟨d, hd, rfl, rfl, ⟨incoming, hincoming, hsame.symm⟩, rfl⟩
    · exact ⟨_, Store.carriedOut_ok h, rfl, rfl, ⟨incoming, hincoming, rfl⟩, rfl⟩

omit hd

theorem perform_makes (ids : IdSource) (op : Operation) {a : op.Result}
    (h : (op.perform ids).run s = (.ok a, s')) :
    ∃ d d', s.file.data = .ok d ∧ s'.file.data = .ok d' ∧ op.Makes ids s.issued d d' := by
  cases hd : s.file.data with
  | error failure =>
    obtain ⟨failure', hrefused⟩ := op.perform_refuses ids hd
    rw [hrefused] at h
    cases h
  | ok d =>
    refine ⟨d, ?_⟩
    rw [exists_and_left, and_iff_right rfl]
    cases op with
    | saveSnippet new => exact saveSnippet_makes hd h
    | deleteSnippet id => exact deleteSnippet_makes hd h
    | replaceSnippets snippets =>
      exact ⟨_, Store.carriedOut_ok ((Store.replaceSnippets_run hd snippets).symm.trans h), rfl, rfl, rfl, rfl⟩
    | saveCategory name => exact saveCategory_makes hd h
    | saveVariable name value oldName => exact saveVariable_makes hd h
    | deleteVariable name => exact deleteVariable_makes hd h
    | replaceVariables vars =>
      exact ⟨_, Store.carriedOut_ok ((Store.replaceVariables_run hd vars).symm.trans h), rfl, rfl, rfl, rfl⟩
    | saveAi ai => exact saveAi_makes hd h
    | importSnippets content policy => exact importSnippets_makes hd h
    | importVariables content policy => exact importVariables_makes hd h

end Makes

end Operation

/-- The store has come from a file to where it is by operations one after another, `done` being those that
succeeded. Writing may fail from any moment on, and work again. -/
inductive Store.Reached (ids : IdSource) (file : File) : List Operation → Store → Prop where
  | start : Reached ids file [] (Store.ofFile file)
  | disturb {done : List Operation} {s : Store} (fault : Option FileFault) :
      Reached ids file done s → Reached ids file done { s with writeFault := fault }
  | fail {done : List Operation} {s s' : Store} (op : Operation) (failure : Failure) :
      Reached ids file done s → (op.perform ids).run s = (.error failure, s') →
      Reached ids file done s'
  | succeed {done : List Operation} {s s' : Store} (op : Operation) (a : op.Result) :
      Reached ids file done s → (op.perform ids).run s = (.ok a, s') →
      Reached ids file (done ++ [op]) s'

namespace Store.Reached

variable {ids : IdSource} {file : File} {first : StoredData} {done : List Operation} {s : Store}

/-- Of a course of allowed operations, what holds first and is kept by each of them holds last. -/
theorem invariant {Allowed : Operation → Prop} {P : List Operation → StoredData → Prop}
    (hfile : file.data = .ok first) (hstart : P [] first)
    (hstep : ∀ done op issued d d', Allowed op → P done d → op.Makes ids issued d d' →
      P (done ++ [op]) d')
    (h : Store.Reached ids file done s) (hallowed : ∀ op ∈ done, Allowed op) :
    ∃ d, s.file.data = .ok d ∧ P done d := by
  induction h with
  | start => exact ⟨first, hfile, hstart⟩
  | disturb fault _ ih => exact ih hallowed
  | @fail done s s' op failure _ hrun ih =>
    -- An operation that fails is honest too: it leaves the data that the file holds.
    obtain ⟨d, hd, hP⟩ := ih hallowed
    have hhonest := op.perform_honest ids s
    rw [hrun] at hhonest
    refine ⟨d, ?_, hP⟩
    rw [hhonest.1, hd]
  | succeed op a _ hrun ih =>
    obtain ⟨d, hd, hP⟩ := ih fun op hop => hallowed op (List.mem_append_left _ hop)
    obtain ⟨d₁, d', hd₁, hd', hmakes⟩ := op.perform_makes ids hrun
    obtain rfl : d = d₁ := Except.ok.inj (hd.symm.trans hd₁)
    have hop := hallowed op (List.mem_append_right _ (List.mem_singleton_self op))
    exact ⟨d', hd', hstep _ op _ d d' hop hP hmakes⟩

end Store.Reached
end SnippetExpansion

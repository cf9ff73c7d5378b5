import SnippetExpansion.Proofs.Transfer.Merge
import SnippetExpansion.Proofs.Transfer.Merging
import SnippetExpansion.Proofs.Transfer.Variables

/-! # What a merge conserves
Snippets are merged by shortcuts, and variables by names. However the answers change from one conflict to the
next, entries that were there keep their places, and are themselves unless an answer let a new one in. -/
namespace SnippetExpansion

namespace SnippetMerge

open Snippet

section Laws

variable (ids : IdSource) (m : SnippetMerge) (s : Snippet)

def tally : Tally (Snippet × Snippet) := ⟨m.snippets.length, m.imported, m.conflicts⟩

def question? : Option (Snippet × Snippet) :=
  (m.snippets.findIdx? (·.shortcut = s.shortcut)).map fun i => ((m.snippets[i]?).getD default, s)

def overrule : SnippetMerge := m.replace ids (m.snippets.findIdx (·.shortcut = s.shortcut)) s

def rename : SnippetMerge := m.append ids { s with shortcut := unusedShortcut s.shortcut m.snippets }

theorem tally_append : (m.append ids s).tally = m.tally.grown := by
  obtain ⟨id, issued, happend⟩ := append_eq ids m s
  simp only [happend, tally, Tally.grown, List.length_append, List.length_singleton]

theorem tally_replace (i : Nat) : (m.replace ids i s).tally = m.tally.replaced := by
  obtain ⟨id, issued, hreplace⟩ := replace_eq ids m i s
  simp only [hreplace, tally, Tally.replaced, List.length_set]

theorem kept_append : Kept (fun _ s => s.shortcut) (fun _ => False)
    (fun i : Nat => m.snippets[i]?) (fun i => (m.append ids s).snippets[i]?) := by
  obtain ⟨id, issued, happend⟩ := append_eq ids m s
  intro i old hold
  have hi := (List.getElem?_eq_some_iff.1 hold).1
  rw [happend]
  exact ⟨old, (List.getElem?_append_left hi).trans hold, rfl, .inl rfl⟩

variable {ids m s} {q : Snippet × Snippet}

theorem question?_eq_some (h : m.question? s = some q) :
    m.snippets[m.snippets.findIdx (·.shortcut = s.shortcut)]? = some q.1 ∧
      q.1.shortcut = s.shortcut := by
  obtain ⟨i, hindex, rfl⟩ := Option.map_eq_some_iff.1 h
  obtain ⟨hi, hfound, -⟩ := List.findIdx?_eq_some_iff_getElem.1 hindex
  rw [(List.findIdx?_eq_some_iff_findIdx_eq.1 hindex).2, List.getElem?_eq_getElem hi, Option.getD_some]
  exact ⟨rfl, by simpa using hfound⟩

theorem question?_isSome : (m.question? s).isSome ↔ s.shortcut ∈ shortcuts m.snippets := by
  simp [question?, shortcuts]

theorem kept_overrule (h : m.question? s = some q) :
    Kept (fun _ s => s.shortcut) (· = q.1.shortcut) (fun i : Nat => m.snippets[i]?)
      (fun i => (m.overrule ids s).snippets[i]?) := by
  obtain ⟨hget, hshortcut⟩ := question?_eq_some h
  rw [overrule]
  generalize m.snippets.findIdx (·.shortcut = s.shortcut) = i at hget ⊢
  obtain ⟨id, issued, hreplace⟩ := replace_eq ids m i s
  rw [hreplace]
  intro j old hold
  by_cases hij : i = j
  · subst hij
    obtain rfl := Option.some.inj (hget.symm.trans hold)
    have hi := (List.getElem?_eq_some_iff.1 hget).1
    exact ⟨{ s with id }, List.getElem?_set_self hi, hshortcut.symm, .inr rfl⟩
  · exact ⟨old, (List.getElem?_set_ne hij).trans hold, rfl, .inl rfl⟩

end Laws

def merging (ids : IdSource) : Merging SnippetMerge Snippet (Snippet × Snippet) Nat Snippet where
  tally := tally
  find? m i := m.snippets[i]?
  name _ s := s.shortcut
  about q := q.1.shortcut
  question? := question?
  note m qs := { m with conflicts := m.conflicts ++ qs }
  put := append ids
  overrule := overrule ids
  rename := rename ids
  note_nil m := by rw [List.append_nil]
  note_note m qs qs' := by rw [List.append_assoc]
  tally_note _ _ := rfl
  find?_note _ _ := rfl
  question?_note _ _ _ := rfl
  tally_put _ := tally_append ids _ _
  kept_put _ := kept_append ids _ _
  tally_overrule _ := tally_replace ids _ _ _
  kept_overrule := kept_overrule
  tally_rename m _ := tally_append ids m _
  kept_rename m _ := kept_append ids m _

variable (decide : SnippetDecision) (m : SnippetMerge)

def calls : List ((Snippet × Snippet) × ConflictPolicy) := m.tally.calls fun k q => decide k q.1 q.2

def answers : List ConflictPolicy := (m.calls decide).map (·.2)

/-- Snippets that were there keep their places and shortcuts, and are the same unless overruled. -/
def Keeps (existing : List Snippet) : Prop :=
  Kept (fun _ s => s.shortcut) (Overruled (·.1.shortcut) (m.calls decide))
    (fun i : Nat => existing[i]?) (fun i => m.snippets[i]?)

theorem add_eq (ids : IdSource) (s : Snippet) :
    m.add ids decide s = (merging ids).add (fun k q => decide k q.1 q.2) m s := by
  cases hfound : m.snippets.findIdx? (·.shortcut = s.shortcut) with
  | none =>
    have hnone : m.question? s = none := by rw [question?, hfound, Option.map_none]
    refine Eq.trans ?_ (Merging.add_put (p := merging ids) hnone).symm
    simp only [add, hfound]
    rfl
  | some i =>
    have hsome : m.question? s = some ((m.snippets[i]?).getD default, s) := by
      rw [question?, hfound, Option.map_some]
    have hindex := (List.findIdx?_eq_some_iff_findIdx_eq.1 hfound).2
    refine Eq.trans ?_ (Merging.add_settle (p := merging ids) hsome).symm
    simp only [add, hfound]
    change _ = (merging ids).settle m s _ (decide m.conflicts.length ((m.snippets[i]?).getD default) s)
    cases decide m.conflicts.length ((m.snippets[i]?).getD default) s with
    | keepExisting => rfl
    | keepNew =>
      rw [← hindex]
      rfl
    | keepBoth => rfl

end SnippetMerge

/-- Merging, with whoever settles the conflicts left open. -/
def askSnippets (ids : IdSource) (issued : List Text) (existing incoming : List Snippet) :
    Dialogue (Snippet × Snippet) (fun _ => ConflictPolicy) SnippetMerge :=
  incoming.foldlM (SnippetMerge.merging ids).ask ⟨existing, 0, [], issued⟩

theorem mergeSnippets_eq (ids : IdSource) (issued : List Text) (decide : SnippetDecision)
    (existing incoming : List Snippet) : mergeSnippets ids issued decide existing incoming =
      incoming.foldl ((SnippetMerge.merging ids).add fun k q => decide k q.1 q.2)
        ⟨existing, 0, [], issued⟩ := by
  have hadd : SnippetMerge.add ids decide =
      (SnippetMerge.merging ids).add fun k q => decide k q.1 q.2 :=
    funext fun m => funext fun s => m.add_eq decide ids s
  rw [mergeSnippets, hadd]

namespace VariableMerge

section Laws

variable (m : VariableMerge) {name value : Text}

def tally : Tally (Text × Text × Text) := ⟨m.vars.entries.length, m.imported, m.conflicts⟩

def question? (e : Text × Text) : Option (Text × Text × Text) :=
  (m.vars.find? e.1).map fun old => (e.1, old, e.2)

variable {m}

theorem tally_set_free (h : name ∉ m.vars.names) : (m.set name value).tally = m.tally.grown := by
  simp only [tally, Tally.grown, set, Dictionary.length_insert_of_not_mem h]

theorem tally_set_known (h : name ∈ m.vars.names) :
    (m.set name value).tally = m.tally.replaced := by
  simp only [tally, Tally.replaced, set, Dictionary.length_insert_of_mem h]

theorem kept_set : Kept (fun name _ => name) (· = name) m.vars.find? (m.set name value).vars.find? := by
  intro x old hold
  change ∃ v, (m.vars.insert name value).find? x = some v ∧ _
  rw [Dictionary.find?_insert]
  by_cases hx : x = name
  · rw [if_pos hx]
    exact ⟨value, rfl, rfl, .inr hx⟩
  · rw [if_neg hx]
    exact ⟨old, hold, rfl, .inl rfl⟩

theorem kept_set_free (h : name ∉ m.vars.names) :
    Kept (fun name _ => name) (fun _ => False) m.vars.find? (m.set name value).vars.find? := by
  intro x old hold
  have hset : Kept (fun name _ => name) (· = name) m.vars.find? (m.set name value).vars.find? := kept_set
  obtain ⟨v, hv, hname, hsame | hover⟩ := hset x old hold
  · exact ⟨v, hv, hname, .inl hsame⟩
  · exact absurd (hover ▸ Dictionary.mem_names_of_find? hold) h

theorem question?_isSome {e : Text × Text} : (m.question? e).isSome ↔ e.1 ∈ m.vars.names := by
  rw [question?, Option.isSome_map, Dictionary.mem_names_iff]

theorem name_of_question? {e : Text × Text} {q : Text × Text × Text} (h : m.question? e = some q) :
    q.1 = e.1 ∧ e.1 ∈ m.vars.names := by
  refine ⟨?_, question?_isSome.1 (Option.isSome_iff_exists.2 ⟨q, h⟩)⟩
  obtain ⟨old, -, rfl⟩ := Option.map_eq_some_iff.1 h
  rfl

theorem not_mem_of_question? {e : Text × Text} (h : m.question? e = none) : e.1 ∉ m.vars.names := by
  rw [← question?_isSome, h]
  exact Bool.false_ne_true

end Laws

def merging : Merging VariableMerge (Text × Text) (Text × Text × Text) Text Text where
  tally := tally
  find? m := m.vars.find?
  name x _ := x
  about q := q.1
  question? := question?
  note m qs := { m with conflicts := m.conflicts ++ qs }
  put m e := m.set e.1 e.2
  overrule m e := m.set e.1 e.2
  rename m e := m.set (unusedSuffix e.1 m.vars.names) e.2
  note_nil m := by rw [List.append_nil]
  note_note m qs qs' := by rw [List.append_assoc]
  tally_note _ _ := rfl
  find?_note _ _ := rfl
  question?_note _ _ _ := rfl
  tally_put h := tally_set_free (not_mem_of_question? h)
  kept_put h := kept_set_free (not_mem_of_question? h)
  tally_overrule h := tally_set_known (name_of_question? h).2
  kept_overrule h := by
    rw [(name_of_question? h).1]
    exact kept_set
  tally_rename m _ := tally_set_free (unusedSuffix_not_mem _ m.vars.names)
  kept_rename m _ := kept_set_free (unusedSuffix_not_mem _ m.vars.names)

variable (decide : VariableDecision) (m : VariableMerge)

def calls : List ((Text × Text × Text) × ConflictPolicy) :=
  m.tally.calls fun k q => decide k q.1 q.2.1 q.2.2

def answers : List ConflictPolicy := (m.calls decide).map (·.2)

/-- Variables that were there stay under their names, with the same values unless overruled. -/
def Keeps (existing : Variables) : Prop :=
  Kept (fun name _ => name) (Overruled (·.1) (m.calls decide)) existing.find? m.vars.find?

theorem add_eq (e : Text × Text) :
    m.add decide e.1 e.2 = merging.add (fun k q => decide k q.1 q.2.1 q.2.2) m e := by
  cases hfound : m.vars.find? e.1 with
  | none =>
    have hnone : m.question? e = none := by rw [question?, hfound, Option.map_none]
    refine Eq.trans ?_ (Merging.add_put (p := merging) hnone).symm
    simp only [add, hfound]
    rfl
  | some old =>
    have hsome : m.question? e = some (e.1, old, e.2) := by
      rw [question?, hfound, Option.map_some]
    refine Eq.trans ?_ (Merging.add_settle (p := merging) hsome).symm
    simp only [add, hfound]
    change _ = merging.settle m e _ (decide m.conflicts.length e.1 old e.2)
    cases decide m.conflicts.length e.1 old e.2 <;> rfl

end VariableMerge

def askVariables (existing incoming : Variables) :
    Dialogue (Text × Text × Text) (fun _ => ConflictPolicy) VariableMerge :=
  incoming.entries.foldlM VariableMerge.merging.ask ⟨existing, 0, []⟩

theorem mergeVariables_eq (decide : VariableDecision) (existing incoming : Variables) :
    mergeVariables decide existing incoming =
      incoming.entries.foldl (VariableMerge.merging.add fun k q => decide k q.1 q.2.1 q.2.2)
        ⟨existing, 0, []⟩ := by
  have hadd : (fun (m : VariableMerge) (e : Text × Text) => m.add decide e.1 e.2) =
      VariableMerge.merging.add fun k q => decide k q.1 q.2.1 q.2.2 :=
    funext fun m => funext fun e => m.add_eq decide e
  rw [mergeVariables, hadd]

/-- Whatever is answered, a merge keeps snippets apart and in their places and variables under their names,
each of them the same unless an answer let a new one in; every entry that came in was taken in or refused by
an answer, and there was one question to each conflict. Answers that depend on anything else, on earlier
questions say, are in one merge answers that go by the number of the question. -/
theorem merge_conserves (ids : IdSource) (issued : List Text) :
    (∀ (decide : SnippetDecision) (existing incoming : List Snippet), Snippet.Distinct existing →
      let merged := mergeSnippets ids issued decide existing incoming
      Snippet.Distinct merged.snippets ∧ merged.Keeps decide existing ∧
      Balance existing.length merged.snippets.length incoming.length merged.report
        (merged.answers decide) ∧
      ((askSnippets ids issued existing incoming).interpret
        (noting fun k q => decide k q.1 q.2)).run [] = (merged, merged.calls decide)) ∧
    (∀ (σ : Type) (answer : Snippet × Snippet → StateM σ ConflictPolicy) (w : σ)
      (existing incoming : List Snippet), ∃ decide : SnippetDecision,
      (((askSnippets ids issued existing incoming).interpret answer).run w).1 =
        mergeSnippets ids issued decide existing incoming) ∧
    (∀ (decide : VariableDecision) (existing incoming : Variables),
      let merged := mergeVariables decide existing incoming
      merged.Keeps decide existing ∧
      Balance existing.entries.length merged.vars.entries.length incoming.entries.length
        merged.report (merged.answers decide) ∧
      ((askVariables existing incoming).interpret
        (noting fun k q => decide k q.1 q.2.1 q.2.2)).run [] = (merged, merged.calls decide)) ∧
    ∀ (σ : Type) (answer : Text × Text × Text → StateM σ ConflictPolicy) (w : σ)
      (existing incoming : Variables), ∃ decide : VariableDecision,
      (((askVariables existing incoming).interpret answer).run w).1 =
        mergeVariables decide existing incoming := by
  refine ⟨?byNumber, ?byAnything, ?varsByNumber, ?varsByAnything⟩
  case byNumber =>
    intro decide existing incoming hdistinct merged
    have hmerged : merged = _ := mergeSnippets_eq ids issued decide existing incoming
    obtain ⟨hkept, hbalance⟩ := (SnippetMerge.merging ids).foldl_add_conserves
      (fun k q => decide k q.1 q.2) ⟨existing, 0, [], issued⟩ incoming .refl .start
    rw [Nat.zero_add, ← hmerged] at hbalance
    rw [← hmerged] at hkept
    refine ⟨mergeSnippets_distinct hdistinct, hkept, hbalance, ?_⟩
    rw [hmerged]
    exact (SnippetMerge.merging ids).foldlM_ask_noting _ incoming ⟨existing, 0, [], issued⟩
  case byAnything =>
    intro σ answer w existing incoming
    obtain ⟨decide, hdecide⟩ := (SnippetMerge.merging ids).exists_foldl_add answer w incoming
      ⟨existing, 0, [], issued⟩ rfl
    refine ⟨fun k old new => decide k (old, new), hdecide.trans ?_⟩
    exact (mergeSnippets_eq ids issued (fun k old new => decide k (old, new)) existing incoming).symm
  case varsByNumber =>
    intro decide existing incoming merged
    have hmerged : merged = _ := mergeVariables_eq decide existing incoming
    obtain ⟨hkept, hbalance⟩ := VariableMerge.merging.foldl_add_conserves
      (fun k q => decide k q.1 q.2.1 q.2.2) ⟨existing, 0, []⟩ incoming.entries .refl .start
    rw [Nat.zero_add, ← hmerged] at hbalance
    rw [← hmerged] at hkept
    refine ⟨hkept, hbalance, ?_⟩
    rw [hmerged]
    exact VariableMerge.merging.foldlM_ask_noting _ incoming.entries ⟨existing, 0, []⟩
  case varsByAnything =>
    intro σ answer w existing incoming
    obtain ⟨decide, hdecide⟩ := VariableMerge.merging.exists_foldl_add answer w incoming.entries
      ⟨existing, 0, []⟩ rfl
    refine ⟨fun k name old new => decide k (name, old, new), hdecide.trans ?_⟩
    exact (mergeVariables_eq (fun k name old new => decide k (name, old, new)) existing incoming).symm

namespace MixedAnswers

def existing : List Snippet :=
  [⟨['1'], ['/', 'a'], ['o', 'l', 'd'], none⟩, ⟨['2'], ['/', 'b'], ['b'], none⟩]

def incoming : List Snippet :=
  [⟨['2'], ['/', 'a'], ['n', 'e', 'w'], none⟩, ⟨[], ['/', 'a'], ['t', 'o', 'o'], none⟩,
    ⟨['3'], ['/', 'b'], ['n', 'o'], none⟩]

def decision : SnippetDecision
  | 0, _, _ => .keepNew
  | 1, _, _ => .keepBoth
  | _, _, _ => .keepExisting

def merged : SnippetMerge := mergeSnippets (.guessing Text.ofNat) [] decision existing incoming

/-- Each conflict is answered in another way, and the second one is with what the first let in. -/
theorem merged_conserves : Snippet.Distinct existing ∧
    Snippet.shortcuts merged.snippets = [['/', 'a'], ['/', 'b'], ['/', 'a', '_', '1']] ∧
    Snippet.Distinct merged.snippets ∧ merged.Keeps decision existing ∧
    Balance 2 3 3 ⟨2, 3⟩ [.keepNew, .keepBoth, .keepExisting] := by
  have hdistinct : Snippet.Distinct existing := ⟨by decide, by decide⟩
  obtain ⟨hapart, hkeeps, hbalance, -⟩ :=
    (merge_conserves (.guessing Text.ofNat) []).1 decision existing incoming hdistinct
  exact ⟨hdistinct, by decide, hapart, hkeeps, hbalance⟩

end MixedAnswers
end SnippetExpansion

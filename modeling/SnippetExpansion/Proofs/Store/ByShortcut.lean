import SnippetExpansion.Store.ByShortcut
import SnippetExpansion.Proofs.Store.History
import SnippetExpansion.Proofs.Transfer.Merge

/-! # Deleting and updating by shortcut
Where shortcuts are distinct, a shortcut finds its snippet. What is done then goes by the identifier: it is
all snippets with the identifier that are deleted, and the first of them that is overwritten. -/
namespace SnippetExpansion

namespace Snippet

def revised (text : Text) (category : Option Text) (x : Snippet) : Snippet :=
  { x with text, category := category.or x.category }

def without (shortcut : Text) (snippets : List Snippet) : List Snippet :=
  snippets.filter (·.shortcut ≠ shortcut)

def reviseAt (shortcut text : Text) (category : Option Text) (snippets : List Snippet) : List Snippet :=
  snippets.map fun x => if x.shortcut = shortcut then revised text category x else x

variable {snippets before rest : List Snippet} {x first : Snippet}

theorem withShortcut?_of_mem (h : (shortcuts snippets).Nodup) (hx : x ∈ snippets) :
    withShortcut? snippets x.shortcut = some x := by
  cases hfound : withShortcut? snippets x.shortcut with
  | none => simpa using List.find?_eq_none.1 hfound x hx
  | some y =>
    have hsame : y.shortcut = x.shortcut := by simpa using List.find?_some hfound
    rw [List.inj_on_of_nodup_map h (List.mem_of_find?_eq_some hfound) hx hsame]

/-- All snippets with an identifier make one snippet exactly where it is the only one that has it. -/
theorem filter_id_eq_without_iff (h : (shortcuts snippets).Nodup) (hx : x ∈ snippets) :
    snippets.filter (·.id ≠ x.id) = without x.shortcut snippets ↔
      ∀ y ∈ snippets, y.id = x.id → y = x := by
  constructor
  · intro hsame y hy hid
    by_contra hne
    have hother : y.shortcut ≠ x.shortcut := mt (List.inj_on_of_nodup_map h hy hx) hne
    have hstays : y ∈ without x.shortcut snippets := List.mem_filter.2 ⟨hy, by simpa using hother⟩
    rw [← hsame] at hstays
    exact absurd hid (by simpa using (List.mem_filter.1 hstays).2)
  · intro honly
    refine List.filter_congr fun y hy => ?_
    rw [decide_eq_decide]
    refine not_congr ⟨fun hid => congrArg shortcut (honly y hy hid), fun hshortcut => ?_⟩
    rw [List.inj_on_of_nodup_map h hy hx hshortcut]

/-- The revised snippet in the place of one that is there revises it exactly where that is the one. -/
theorem replaced_eq_reviseAt_iff (text : Text) (category : Option Text)
    (h : (shortcuts (before ++ first :: rest)).Nodup) (hx : x ∈ before ++ first :: rest) :
    before ++ revised text category x :: rest =
        reviseAt x.shortcut text category (before ++ first :: rest) ↔ first = x := by
  have hsame (y : Snippet) (hy : y ∈ before ++ first :: rest) :
      y.shortcut = x.shortcut ↔ y = x :=
    ⟨List.inj_on_of_nodup_map h hy hx, congrArg shortcut⟩
  rw [reviseAt, List.map_append, List.map_cons]
  constructor
  · intro heq
    have hplace := (List.cons.inj (List.append_inj heq (List.length_map _).symm).2).1
    by_cases hfirst : first.shortcut = x.shortcut
    · exact (hsame first (by simp)).1 hfirst
    · rw [if_neg hfirst] at hplace
      exact absurd (congrArg shortcut hplace).symm hfirst
  · rintro rfl
    rw [shortcuts, List.map_append, List.map_cons, List.nodup_append, List.nodup_cons] at h
    obtain ⟨-, ⟨hrest, -⟩, hbefore⟩ := h
    rw [if_pos rfl]
    congr 1
    · refine (List.map_id' before).symm.trans (List.map_congr_left fun y hy => (if_neg ?_).symm)
      exact hbefore _ (List.mem_map_of_mem hy) _ List.mem_cons_self
    · congr 1
      refine (List.map_id' rest).symm.trans (List.map_congr_left fun y hy => (if_neg ?_).symm)
      exact fun hshortcut => hrest (hshortcut ▸ List.mem_map_of_mem hy)

end Snippet

namespace Store

open Snippet

variable {ids : IdSource} {s : Store} {d : StoredData} {x : Snippet} {text : Text}
  {category : Option Text}

theorem snippetWithShortcut_run (hd : s.file.data = .ok d) (h : (shortcuts d.snippets).Nodup)
    (hx : x ∈ d.snippets) : (snippetWithShortcut x.shortcut).run s = (.ok x, s) := by
  rw [snippetWithShortcut, run_bind, loadSnippets_run hd]
  simp only [withShortcut?_of_mem h hx, run_pure]

theorem deleteByShortcut_run (hd : s.file.data = .ok d) (hfault : s.writeFault = none)
    (h : (shortcuts d.snippets).Nodup) (hx : x ∈ d.snippets) :
    ∃ s', (deleteByShortcut x.shortcut).run s = (.ok (), s') ∧
      s'.file = .text { d with snippets := d.snippets.filter (·.id ≠ x.id) }.write := by
  have hgoes : (d.snippets.filter (·.id ≠ x.id)).length ≠ d.snippets.length := by
    rw [Ne, List.length_filter_eq_length_iff]
    intro hall
    simpa using hall x hx
  rw [deleteByShortcut, run_bind, snippetWithShortcut_run hd h hx]
  simp only [deleteSnippet_run hd, if_neg hgoes]
  exact carriedOut_writable hfault

/-- Without identifier the snippet is another one to itself, and its shortcut is taken. -/
theorem updateByShortcut_taken (ids : IdSource) (text : Text) (category : Option Text)
    (hd : s.file.data = .ok d) (h : (shortcuts d.snippets).Nodup) (hx : x ∈ d.snippets)
    (hblank : ¬Text.isBlank x.shortcut) (hid : x.id = []) :
    (updateByShortcut ids x.shortcut text category).run s =
      (.error (.duplicateShortcut x.shortcut), s) := by
  have htaken : shortcutTaken d.snippets (revised text category x) = true := by
    refine List.any_eq_true.2 ⟨x, hx, ?_⟩
    simp [revised, hid]
  rw [updateByShortcut, run_bind, snippetWithShortcut_run hd h hx]
  change (saveSnippet ids (revised text category x)).run s = _
  rw [saveSnippet_run hd, if_neg (show ¬Text.isBlank (revised text category x).shortcut from hblank),
    if_pos htaken]
  rfl

theorem shortcutTaken_revised (h : (shortcuts d.snippets).Nodup) (hx : x ∈ d.snippets)
    (hid : x.id ≠ []) : shortcutTaken d.snippets (revised text category x) = false := by
  refine List.any_eq_false.2 fun y hy => ?_
  rw [Bool.and_eq_true, decide_eq_true_eq]
  rintro ⟨hsame, hother⟩
  rw [List.inj_on_of_nodup_map h hy hx hsame] at hother
  simp [revised, hid] at hother

theorem placeSnippet_first {issued : List Text} {before rest : List Snippet} {first new : Snippet}
    (hid : new.id ≠ []) (hfirst : first.id = new.id) (hbefore : ∀ y ∈ before, y.id ≠ new.id) :
    placeSnippet ids issued (before ++ first :: rest) new = (new, before ++ new :: rest, []) := by
  have hskip : before.findIdx? (fun other => !new.id.isEmpty && other.id = new.id) = none := by
    refine List.findIdx?_eq_none_iff.2 fun y hy => ?_
    simp [hbefore y hy]
  have hindex : (before ++ first :: rest).findIdx?
      (fun other => !new.id.isEmpty && other.id = new.id) = some before.length := by
    simp [List.findIdx?_append, List.findIdx?_cons, hskip, hid, hfirst]
  simp [placeSnippet, hindex]

theorem updateByShortcut_run {before rest : List Snippet} {first : Snippet} (ids : IdSource)
    (text : Text) (category : Option Text) (hd : s.file.data = .ok d) (hfault : s.writeFault = none)
    (h : (shortcuts d.snippets).Nodup) (hx : x ∈ d.snippets) (hblank : ¬Text.isBlank x.shortcut)
    (hid : x.id ≠ []) (hsplit : d.snippets = before ++ first :: rest) (hfirst : first.id = x.id)
    (hbefore : ∀ y ∈ before, y.id ≠ x.id) :
    ∃ s', (updateByShortcut ids x.shortcut text category).run s =
        (.ok (revised text category x), s') ∧
      s'.file = .text { d with
        snippets := before ++ revised text category x :: rest
        categories := filed d.categories (category.or x.category) }.write := by
  have hplace : placeSnippet ids s.issued d.snippets (revised text category x) =
      (revised text category x, before ++ revised text category x :: rest, []) := by
    rw [hsplit]
    exact placeSnippet_first hid hfirst hbefore
  rw [updateByShortcut, run_bind, snippetWithShortcut_run hd h hx]
  change ∃ s', (saveSnippet ids (revised text category x)).run s = _ ∧ _
  rw [saveSnippet_run hd, if_neg (show ¬Text.isBlank (revised text category x).shortcut from hblank),
    shortcutTaken_revised h hx hid, if_neg Bool.false_ne_true, hplace]
  exact carriedOut_writable hfault

end Store
end SnippetExpansion

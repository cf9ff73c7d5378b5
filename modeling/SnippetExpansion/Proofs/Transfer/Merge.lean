import SnippetExpansion.Store.Edit
import SnippetExpansion.Transfer.Merge
import SnippetExpansion.Proofs.Transfer.Suffix
import Mathlib.Data.List.Nodup

/-! # Snippets keep apart
Saving and merging put one snippet at a time into a list: at its end, or in the place of another one.
Either way it comes under an identifier and a shortcut that no other snippet has, so lists in which these
are distinct stay such lists, whatever is taken in and however conflicts are settled. -/
namespace SnippetExpansion

namespace Snippet

def ids (snippets : List Snippet) : List Text := snippets.map (·.id)

def shortcuts (snippets : List Snippet) : List Text := snippets.map (·.shortcut)

structure Distinct (snippets : List Snippet) : Prop where
  ids : (ids snippets).Nodup
  shortcuts : (shortcuts snippets).Nodup

def Named (s : Snippet) : Prop := s.id ≠ [] ∧ ¬Text.isBlank s.shortcut

/-- How a snippet gets into a list: at the end, or in the place of the one at an index. What it becomes
there keeps apart from all others. -/
inductive Enters (s : Snippet) (snippets : List Snippet) : List Snippet → Prop where
  | refused : Enters s snippets snippets
  | appended {new : Snippet} : new.id ∉ ids snippets → new.shortcut ∉ shortcuts snippets →
      new.category = s.category → (¬Text.isBlank s.shortcut → new.Named) →
      Enters s snippets (snippets ++ [new])
  | replaced {new : Snippet} {index : Nat} : index < snippets.length →
      (Distinct snippets → new.id ∉ ids (snippets.eraseIdx index) ∧
        new.shortcut ∉ shortcuts (snippets.eraseIdx index)) →
      new.category = s.category → (¬Text.isBlank s.shortcut → new.Named) →
      Enters s snippets (snippets.set index new)

theorem nodup_map_append {f : Snippet → Text} {snippets : List Snippet} {new : Snippet}
    (h : (snippets.map f).Nodup) (hnew : f new ∉ snippets.map f) :
    ((snippets ++ [new]).map f).Nodup := by
  rw [List.map_append, List.map_singleton, ← List.concat_eq_append, List.nodup_concat]
  exact ⟨hnew, h⟩

theorem nodup_map_middle {f : Snippet → Text} {x : Snippet} {front back : List Snippet} :
    ((front ++ x :: back).map f).Nodup ↔
      (∀ y ∈ front ++ back, f y ≠ f x) ∧ ((front ++ back).map f).Nodup := by
  rw [List.map_append, List.map_cons, List.nodup_middle, ← List.map_append, List.nodup_cons]
  refine and_congr_left' ⟨fun hnot y hy hsame => ?_, fun hne hmem => ?_⟩
  · exact hnot (List.mem_map.2 ⟨y, hy, hsame⟩)
  · obtain ⟨y, hy, hsame⟩ := List.mem_map.1 hmem
    exact hne y hy hsame

theorem nodup_map_set {f : Snippet → Text} {snippets : List Snippet} {new : Snippet} {index : Nat}
    (hindex : index < snippets.length) (h : (snippets.map f).Nodup)
    (hnew : f new ∉ (snippets.eraseIdx index).map f) : ((snippets.set index new).map f).Nodup := by
  have hperm := (List.set_perm_cons_eraseIdx hindex new).map f
  rw [hperm.nodup_iff, List.map_cons, List.nodup_cons]
  exact ⟨hnew, h.sublist ((List.eraseIdx_sublist snippets index).map f)⟩

theorem not_mem_map_eraseIdx {f : Snippet → Text} {snippets : List Snippet} {index : Nat}
    (hindex : index < snippets.length) (h : (snippets.map f).Nodup) :
    f snippets[index] ∉ (snippets.eraseIdx index).map f := by
  have hperm := (List.getElem_cons_eraseIdx_perm hindex).map f
  rw [← hperm.nodup_iff, List.map_cons, List.nodup_cons] at h
  exact h.1

namespace Enters

variable {s : Snippet} {snippets snippets' : List Snippet}

theorem distinct (h : Enters s snippets snippets') (hdistinct : Distinct snippets) :
    Distinct snippets' := by
  cases h with
  | refused => exact hdistinct
  | appended hid hshortcut _ _ =>
    exact ⟨nodup_map_append hdistinct.ids hid, nodup_map_append hdistinct.shortcuts hshortcut⟩
  | replaced hindex hapart _ _ =>
    obtain ⟨hid, hshortcut⟩ := hapart hdistinct
    exact ⟨nodup_map_set hindex hdistinct.ids hid,
      nodup_map_set hindex hdistinct.shortcuts hshortcut⟩

theorem mem (h : Enters s snippets snippets') {x : Snippet} (hx : x ∈ snippets') :
    x ∈ snippets ∨ x.category = s.category ∧ (¬Text.isBlank s.shortcut → x.Named) := by
  cases h with
  | refused => exact .inl hx
  | appended _ _ hcategory hnamed =>
    rcases List.mem_append.1 hx with hx | hx
    · exact .inl hx
    · obtain rfl := List.mem_singleton.1 hx
      exact .inr ⟨hcategory, hnamed⟩
  | replaced _ _ hcategory hnamed =>
    rcases List.mem_or_eq_of_mem_set hx with hx | rfl
    · exact .inl hx
    · exact .inr ⟨hcategory, hnamed⟩

end Enters
end Snippet

open Snippet

namespace SnippetMerge

variable (ids : IdSource) (m : SnippetMerge)

theorem identify_eq {others : List Snippet} (hothers : others ⊆ m.snippets) (s : Snippet) :
    ∃ id, (identify ids m others s).1 = { s with id } ∧ id ≠ [] ∧ id ∉ Snippet.ids others := by
  rw [identify]
  split
  · refine ⟨_, rfl, ids.next_ne_nil _, fun hmem => ?_⟩
    have hused := List.map_subset (·.id) hothers hmem
    exact ids.next_not_mem _ (List.mem_append_right _ hused)
  · next hown =>
    simp only [Bool.or_eq_true, List.isEmpty_iff, List.any_eq_true, decide_eq_true_eq,
      not_or] at hown
    refine ⟨s.id, rfl, hown.1, fun hmem => ?_⟩
    obtain ⟨other, hother, hsame⟩ := List.mem_map.1 hmem
    exact hown.2 ⟨other, hother, hsame⟩

theorem append_eq (s : Snippet) : ∃ id issued, m.append ids s =
    ⟨m.snippets ++ [{ s with id }], m.imported + 1, m.conflicts, issued⟩ := by
  obtain ⟨id, hid, -, -⟩ := identify_eq ids m (List.Subset.refl _) s
  exact ⟨id, (identify ids m m.snippets s).2, by rw [append, ← hid]⟩

theorem replace_eq (i : Nat) (s : Snippet) : ∃ id issued, m.replace ids i s =
    ⟨m.snippets.set i { s with id }, m.imported + 1, m.conflicts, issued⟩ := by
  have hothers := (List.eraseIdx_sublist m.snippets i).subset
  obtain ⟨id, hid, -, -⟩ := identify_eq ids m hothers s
  exact ⟨id, (identify ids m (m.snippets.eraseIdx i) s).2, by rw [replace, ← hid]⟩

theorem append_enters {s new : Snippet} (hfree : new.shortcut ∉ shortcuts m.snippets)
    (hcategory : new.category = s.category)
    (hblank : ¬Text.isBlank s.shortcut → ¬Text.isBlank new.shortcut) :
    Enters s m.snippets (m.append ids new).snippets := by
  obtain ⟨id, hnew, hid, hfresh⟩ := identify_eq ids m (List.Subset.refl _) new
  have happend : (m.append ids new).snippets = m.snippets ++ [{ new with id }] := by
    rw [append, ← hnew]
  rw [happend]
  exact .appended hfresh hfree hcategory fun hs => ⟨hid, hblank hs⟩

theorem replace_enters {s : Snippet} {index : Nat} (hindex : index < m.snippets.length)
    (hshortcut : m.snippets[index].shortcut = s.shortcut) :
    Enters s m.snippets (m.replace ids index s).snippets := by
  obtain ⟨id, hnew, hid, hfresh⟩ :=
    identify_eq ids m (List.eraseIdx_sublist m.snippets index).subset s
  have hreplace : (m.replace ids index s).snippets = m.snippets.set index { s with id } := by
    rw [replace, ← hnew]
  rw [hreplace]
  refine .replaced hindex (fun hdistinct => ⟨hfresh, ?_⟩) rfl fun hs => ⟨hid, hs⟩
  have hothers := not_mem_map_eraseIdx hindex hdistinct.shortcuts
  rw [hshortcut] at hothers
  exact hothers

def asked (old new : Snippet) : SnippetMerge := { m with conflicts := m.conflicts ++ [(old, new)] }

/-- What becomes of a merge when a snippet comes in. -/
inductive Step (decide : SnippetDecision) (s : Snippet) : SnippetMerge → Prop where
  | added : s.shortcut ∉ shortcuts m.snippets → Step decide s (m.append ids s)
  | refused {i : Nat} (hi : i < m.snippets.length) : m.snippets[i].shortcut = s.shortcut →
      decide m.conflicts.length m.snippets[i] s = .keepExisting →
      Step decide s (m.asked m.snippets[i] s)
  | replaced {i : Nat} (hi : i < m.snippets.length) : m.snippets[i].shortcut = s.shortcut →
      decide m.conflicts.length m.snippets[i] s = .keepNew →
      Step decide s ((m.asked m.snippets[i] s).replace ids i s)
  | renamed {i : Nat} (hi : i < m.snippets.length) : m.snippets[i].shortcut = s.shortcut →
      decide m.conflicts.length m.snippets[i] s = .keepBoth →
      Step decide s ((m.asked m.snippets[i] s).append ids
        { s with shortcut := unusedShortcut s.shortcut m.snippets })

theorem add_step (decide : SnippetDecision) (s : Snippet) :
    Step ids m decide s (m.add ids decide s) := by
  rw [add]
  split
  · next hnone =>
    refine .added fun hmem => ?_
    obtain ⟨other, hother, hsame⟩ := List.mem_map.1 hmem
    have hdiffers := List.findIdx?_eq_none_iff.1 hnone other hother
    exact absurd hsame (by simpa using hdiffers)
  · next i hsome =>
    obtain ⟨hi, hfound, -⟩ := List.findIdx?_eq_some_iff_getElem.1 hsome
    have hshortcut : m.snippets[i].shortcut = s.shortcut := by simpa using hfound
    have hold : (m.snippets[i]?).getD default = m.snippets[i] := by
      rw [List.getElem?_eq_getElem hi, Option.getD_some]
    dsimp only
    rw [hold]
    split
    · next hdecide => exact .refused hi hshortcut hdecide
    · next hdecide => exact .replaced hi hshortcut hdecide
    · next hdecide => exact .renamed hi hshortcut hdecide

theorem add_enters (decide : SnippetDecision) (s : Snippet) :
    Enters s m.snippets (m.add ids decide s).snippets := by
  have hstep := add_step ids m decide s
  generalize m.add ids decide s = m' at hstep ⊢
  cases hstep with
  | added hfree => exact append_enters ids m hfree rfl id
  | refused hi hshortcut _ => exact .refused
  | replaced hi hshortcut _ => exact replace_enters ids (m.asked _ s) hi hshortcut
  | renamed hi _ _ =>
    refine append_enters ids (m.asked _ s) (unusedSuffix_not_mem _ _) rfl fun _ => ?_
    obtain ⟨n, -, -, heq, -⟩ := unusedSuffix_eq s.shortcut (shortcuts m.snippets)
    change ¬Text.isBlank (unusedSuffix s.shortcut (shortcuts m.snippets))
    rw [heq]
    exact numbered_not_blank s.shortcut n

end SnippetMerge

section Merge

variable (ids : IdSource) (decide : SnippetDecision) (incoming : List Snippet)

theorem SnippetMerge.foldl_add_distinct (m : SnippetMerge) (h : Distinct m.snippets) :
    Distinct (incoming.foldl (add ids decide) m).snippets := by
  induction incoming generalizing m with
  | nil => exact h
  | cons s incoming ih => exact ih _ ((add_enters ids m decide s).distinct h)

theorem SnippetMerge.mem_foldl_add (m : SnippetMerge) {x : Snippet}
    (hx : x ∈ (incoming.foldl (add ids decide) m).snippets) :
    x ∈ m.snippets ∨ ∃ s ∈ incoming, x.category = s.category ∧
      (¬Text.isBlank s.shortcut → x.Named) := by
  induction incoming generalizing m with
  | nil => exact .inl hx
  | cons s incoming ih =>
    rcases ih _ hx with hx | ⟨s', hs', hlike⟩
    · rcases (add_enters ids m decide s).mem hx with hx | hlike
      · exact .inl hx
      · exact .inr ⟨s, List.mem_cons_self, hlike⟩
    · exact .inr ⟨s', List.mem_cons_of_mem _ hs', hlike⟩

variable {ids decide incoming} {issued : List Text} {existing : List Snippet}

theorem mergeSnippets_distinct (h : Distinct existing) :
    Distinct (mergeSnippets ids issued decide existing incoming).snippets :=
  SnippetMerge.foldl_add_distinct ids decide incoming _ h

theorem mem_mergeSnippets {x : Snippet}
    (hx : x ∈ (mergeSnippets ids issued decide existing incoming).snippets) :
    x ∈ existing ∨ ∃ s ∈ incoming, x.category = s.category ∧
      (¬Text.isBlank s.shortcut → x.Named) :=
  SnippetMerge.mem_foldl_add ids decide incoming _ hx

end Merge

namespace Store

theorem shortcut_taken {snippets : List Snippet} {s : Snippet}
    (h : shortcutTaken snippets s = false) {other : Snippet} (hother : other ∈ snippets)
    (hsame : other.shortcut = s.shortcut) : s.id ≠ [] ∧ other.id = s.id := by
  have hnone := List.any_eq_false.1 h other hother
  simpa [hsame] using hnone

theorem placeSnippet_enters (ids : IdSource) (issued : List Text) {snippets : List Snippet}
    {s : Snippet} (h : shortcutTaken snippets s = false) :
    Enters s snippets (placeSnippet ids issued snippets s).2.1 := by
  rw [placeSnippet]
  split
  · next index hsome =>
    obtain ⟨hindex, hfound, -⟩ := List.findIdx?_eq_some_iff_getElem.1 hsome
    have hsame : s.id ≠ [] ∧ snippets[index].id = s.id := by simpa using hfound
    refine .replaced hindex (fun hdistinct => ?_) rfl fun hs => ⟨hsame.1, hs⟩
    have hid := not_mem_map_eraseIdx hindex hdistinct.ids
    rw [hsame.2] at hid
    refine ⟨hid, fun hmem => ?_⟩
    -- Another snippet with this shortcut would have this identifier too.
    obtain ⟨other, hother, hshortcut⟩ := List.mem_map.1 hmem
    have hsubset := (List.eraseIdx_sublist snippets index).subset hother
    exact hid (List.mem_map.2 ⟨other, hother, (shortcut_taken h hsubset hshortcut).2⟩)
  · next hnone =>
    refine .appended (fun hmem => ?_) (fun hmem => ?_) rfl fun hs => ⟨ids.next_ne_nil _, hs⟩
    · exact ids.next_not_mem _ (List.mem_append_right issued hmem)
    · obtain ⟨other, hother, hshortcut⟩ := List.mem_map.1 hmem
      obtain ⟨hid, hsame⟩ := shortcut_taken h hother hshortcut
      have hdiffers := List.findIdx?_eq_none_iff.1 hnone other hother
      simp [hid, hsame] at hdiffers

end Store
end SnippetExpansion

import SnippetExpansion.Trigger
import SnippetExpansion.Proofs.Text.Positions
import SnippetExpansion.Proofs.Transfer.Merge
import Mathlib.Data.List.Induction

/-! # Which snippet a text triggers
Shortcuts that end one text end one another, so those of one length are the same shortcut. Of the snippets
with such shortcuts one policy takes the first. The other one takes the longest, and the first of those; where
shortcuts are distinct that is one and the same snippet in whatever order they stand. -/
namespace SnippetExpansion

open Text (byteLength)

namespace Text

theorem suffix_of_byteLength_le {s t text : Text} (hs : s <:+ text) (ht : t <:+ text)
    (hlength : byteLength s ≤ byteLength t) : s <:+ t := by
  rcases List.suffix_or_suffix_of_suffix hs ht with hst | ⟨more, hts⟩
  · exact hst
  · have hmore : more = [] := by
      by_contra hne
      have hpos := byteLength_pos hne
      rw [← hts, byteLength_append] at hlength
      omega
    rw [← hts, hmore]
    exact List.suffix_rfl

theorem eq_of_byteLength_eq {s t text : Text} (hs : s <:+ text) (ht : t <:+ text)
    (hlength : byteLength s = byteLength t) : s = t := by
  have hst := suffix_of_byteLength_le hs ht (Nat.le_of_eq hlength)
  have hts := suffix_of_byteLength_le ht hs (Nat.le_of_eq hlength.symm)
  exact hst.eq_of_length (Nat.le_antisymm hst.length_le hts.length_le)

end Text

namespace Snippet

def Ends (text : Text) (s : Snippet) : Prop := s.shortcut ≠ [] ∧ s.shortcut <:+ text

theorem triggeredBy_iff {text : Text} {s : Snippet} : s.triggeredBy text ↔ s.Ends text := by
  rw [triggeredBy, Bool.and_eq_true, List.isSuffixOf_iff_suffix]
  simp [Ends]

/-- The first of the snippets that end the text. -/
def FirstIn (text : Text) (snippets : List Snippet) (s : Snippet) : Prop :=
  s.Ends text ∧ ∃ before after, snippets = before ++ s :: after ∧ ∀ x ∈ before, ¬x.Ends text

/-- The first of the longest of the snippets that end the text. -/
def LongestIn (text : Text) (snippets : List Snippet) (s : Snippet) : Prop :=
  s.Ends text ∧ ∃ before after, snippets = before ++ s :: after ∧
    (∀ x ∈ before, x.Ends text → byteLength x.shortcut < byteLength s.shortcut) ∧
    ∀ x ∈ after, x.Ends text → byteLength x.shortcut ≤ byteLength s.shortcut

namespace LongestIn

variable {text : Text} {snippets : List Snippet} {s t x : Snippet}

theorem mem (h : LongestIn text snippets s) : s ∈ snippets := by
  obtain ⟨-, before, after, rfl, -⟩ := h
  exact List.mem_append_right before List.mem_cons_self

theorem le (h : LongestIn text snippets s) (hx : x ∈ snippets) (hends : x.Ends text) :
    byteLength x.shortcut ≤ byteLength s.shortcut := by
  obtain ⟨-, before, after, rfl, hbefore, hafter⟩ := h
  rcases List.mem_append.1 hx with hx | hx
  · exact Nat.le_of_lt (hbefore x hx hends)
  · rcases List.mem_cons.1 hx with rfl | hx
    · exact Nat.le_refl _
    · exact hafter x hx hends

theorem unique (hs : LongestIn text snippets s) (ht : LongestIn text snippets t) : s = t := by
  have hlength : byteLength s.shortcut = byteLength t.shortcut :=
    Nat.le_antisymm (ht.le hs.mem hs.1) (hs.le ht.mem ht.1)
  obtain ⟨hsEnds, before, after, rfl, hbefore, -⟩ := hs
  obtain ⟨htEnds, before', after', hsplit, hbefore', -⟩ := ht
  rcases List.append_eq_append_iff.1 hsplit with ⟨more, rfl, hrest⟩ | ⟨more, rfl, hrest⟩
  · cases more with
    | nil => exact (List.cons.inj hrest).1
    | cons first more =>
      -- The first of the two would stand in front of the second one and be shorter.
      obtain ⟨rfl, -⟩ := List.cons.inj hrest
      have hlt := hbefore' s (List.mem_append_right before List.mem_cons_self) hsEnds
      omega
  · cases more with
    | nil => exact (List.cons.inj hrest).1.symm
    | cons first more =>
      obtain ⟨rfl, -⟩ := List.cons.inj hrest
      have hlt := hbefore t (List.mem_append_right before' List.mem_cons_self) htEnds
      omega

theorem suffix (h : LongestIn text snippets s) (hx : x ∈ snippets) (hends : x.Ends text) :
    x.shortcut <:+ s.shortcut :=
  Text.suffix_of_byteLength_le hends.2 h.1.2 (h.le hx hends)

theorem concat_of_le (h : LongestIn text snippets s)
    (hx : x.Ends text → byteLength x.shortcut ≤ byteLength s.shortcut) :
    LongestIn text (snippets ++ [x]) s := by
  obtain ⟨hends, before, after, rfl, hbefore, hafter⟩ := h
  refine ⟨hends, before, after ++ [x], by simp, hbefore, ?_⟩
  intro y hy hyEnds
  rcases List.mem_append.1 hy with hy | hy
  · exact hafter y hy hyEnds
  · obtain rfl := List.mem_singleton.1 hy
    exact hx hyEnds

theorem concat_of_lt (h : LongestIn text snippets s) (hends : x.Ends text)
    (hx : byteLength s.shortcut < byteLength x.shortcut) : LongestIn text (snippets ++ [x]) x := by
  refine ⟨hends, snippets, [], rfl, ?_, nofun⟩
  intro y hy hyEnds
  exact Nat.lt_of_le_of_lt (h.le hy hyEnds) hx

end LongestIn
end Snippet

section Found

open Snippet

variable {text : Text} {snippets : List Snippet} {s : Snippet}

theorem findTrigger_first_iff :
    findTrigger .firstInOrder text snippets = some s ↔ FirstIn text snippets s := by
  rw [findTrigger, MatchPolicy.choose, List.head?_eq_some_iff]
  constructor
  · rintro ⟨found, hfound⟩
    obtain ⟨before, after, rfl, hbefore, hs, -⟩ := List.filter_eq_cons_iff.1 hfound
    exact ⟨triggeredBy_iff.1 hs, before, after, rfl, fun x hx => mt triggeredBy_iff.2 (hbefore x hx)⟩
  · rintro ⟨hs, before, after, rfl, hbefore⟩
    refine ⟨after.filter (triggeredBy text), List.filter_eq_cons_iff.2 ?_⟩
    exact ⟨before, after, rfl, fun x hx => mt triggeredBy_iff.1 (hbefore x hx),
      triggeredBy_iff.2 hs, rfl⟩

theorem findTrigger_longest_concat (text : Text) (snippets : List Snippet) (x : Snippet) :
    findTrigger .longestSuffix text (snippets ++ [x]) =
      if x.triggeredBy text then
        MatchPolicy.longer (findTrigger .longestSuffix text snippets) x
      else findTrigger .longestSuffix text snippets := by
  rw [findTrigger, MatchPolicy.choose, List.filter_append, List.foldl_append]
  by_cases hx : x.triggeredBy text
  · rw [if_pos hx, List.filter_cons_of_pos hx]
    rfl
  · rw [if_neg hx, List.filter_cons_of_neg hx]
    rfl

/-- What has been found when so many snippets have been looked at. -/
theorem findTrigger_longest (text : Text) (snippets : List Snippet) :
    match findTrigger .longestSuffix text snippets with
    | none => ∀ x ∈ snippets, ¬x.Ends text
    | some s => LongestIn text snippets s := by
  induction snippets using List.reverseRecOn with
  | nil => exact nofun
  | append_singleton snippets x ih =>
    rw [findTrigger_longest_concat]
    by_cases hx : x.Ends text
    · rw [if_pos (triggeredBy_iff.2 hx)]
      cases hfound : findTrigger .longestSuffix text snippets with
      | none =>
        rw [hfound] at ih
        exact ⟨hx, snippets, [], rfl, fun y hy hyEnds => absurd hyEnds (ih y hy), nofun⟩
      | some best =>
        rw [hfound] at ih
        rw [MatchPolicy.longer]
        by_cases hlength : byteLength x.shortcut ≤ byteLength best.shortcut
        · rw [if_pos hlength]
          exact LongestIn.concat_of_le ih fun _ => hlength
        · rw [if_neg hlength]
          exact LongestIn.concat_of_lt ih hx (Nat.lt_of_not_le hlength)
    · rw [if_neg (mt triggeredBy_iff.1 hx)]
      cases hfound : findTrigger .longestSuffix text snippets with
      | none =>
        rw [hfound] at ih
        intro y hy
        rcases List.mem_append.1 hy with hy | hy
        · exact ih y hy
        · rw [List.mem_singleton.1 hy]
          exact hx
      | some best =>
        rw [hfound] at ih
        exact LongestIn.concat_of_le ih fun hends => absurd hends hx

theorem findTrigger_longest_iff :
    findTrigger .longestSuffix text snippets = some s ↔ LongestIn text snippets s := by
  have hfound := findTrigger_longest text snippets
  constructor
  · intro hs
    rw [hs] at hfound
    exact hfound
  · intro hs
    cases hresult : findTrigger .longestSuffix text snippets with
    | none =>
      rw [hresult] at hfound
      exact absurd hs.1 (hfound s hs.mem)
    | some t =>
      rw [hresult] at hfound
      rw [LongestIn.unique hfound hs]

theorem findTrigger_eq_none_iff (policy : MatchPolicy) :
    findTrigger policy text snippets = none ↔ ∀ x ∈ snippets, ¬x.Ends text := by
  cases policy with
  | firstInOrder =>
    rw [findTrigger, MatchPolicy.choose, List.head?_eq_none_iff, List.filter_eq_nil_iff]
    exact forall₂_congr fun x _ => not_congr triggeredBy_iff
  | longestSuffix =>
    have hfound := findTrigger_longest text snippets
    constructor
    · intro hnone
      rw [hnone] at hfound
      exact hfound
    · intro hends
      cases hresult : findTrigger .longestSuffix text snippets with
      | none => rfl
      | some t =>
        rw [hresult] at hfound
        exact absurd hfound.1 (hends t (LongestIn.mem hfound))

/-- With distinct shortcuts the longest one is one snippet's alone. -/
theorem findTrigger_longest_perm {snippets' : List Snippet} (hdistinct : (shortcuts snippets).Nodup)
    (hperm : snippets'.Perm snippets) :
    findTrigger .longestSuffix text snippets' = findTrigger .longestSuffix text snippets := by
  cases hs' : findTrigger .longestSuffix text snippets' with
  | none =>
    have hnone := (findTrigger_eq_none_iff _).1 hs'
    symm
    exact (findTrigger_eq_none_iff _).2 fun x hx => hnone x (hperm.mem_iff.2 hx)
  | some s' =>
    cases hs : findTrigger .longestSuffix text snippets with
    | none =>
      have hnone := (findTrigger_eq_none_iff _).1 hs
      have hlongest' := findTrigger_longest_iff.1 hs'
      exact absurd hlongest'.1 (hnone s' (hperm.mem_iff.1 hlongest'.mem))
    | some s =>
      have hlongest := findTrigger_longest_iff.1 hs
      have hlongest' := findTrigger_longest_iff.1 hs'
      have hmem' : s' ∈ snippets := hperm.mem_iff.1 hlongest'.mem
      have hmem : s ∈ snippets' := hperm.mem_iff.2 hlongest.mem
      have hlength : byteLength s'.shortcut = byteLength s.shortcut :=
        Nat.le_antisymm (hlongest.le hmem' hlongest'.1) (hlongest'.le hmem hlongest.1)
      have hsame := Text.eq_of_byteLength_eq hlongest'.1.2 hlongest.1.2 hlength
      rw [List.inj_on_of_nodup_map hdistinct hmem' hlongest.mem hsame]

/-- Nothing is found where no shortcut ends the text. Otherwise it is the first snippet whose shortcut does,
or the first of those with the longest: all others end that one, and none of its length differs from it, so
with distinct shortcuts the order does not count. -/
theorem findTrigger_chooses (text : Text) (snippets : List Snippet) :
    (∀ policy, findTrigger policy text snippets = none ↔ ∀ x ∈ snippets, ¬x.Ends text) ∧
    (∀ s, findTrigger .firstInOrder text snippets = some s ↔ FirstIn text snippets s) ∧
    (∀ s, findTrigger .longestSuffix text snippets = some s ↔ LongestIn text snippets s) ∧
    (∀ s, findTrigger .longestSuffix text snippets = some s → ∀ x ∈ snippets, x.Ends text →
      x.shortcut <:+ s.shortcut ∧
        (byteLength x.shortcut = byteLength s.shortcut → x.shortcut = s.shortcut)) ∧
    ((shortcuts snippets).Nodup → ∀ snippets', snippets'.Perm snippets →
      findTrigger .longestSuffix text snippets' = findTrigger .longestSuffix text snippets) := by
  refine ⟨?none, ?first, ?longest, ?same, ?order⟩
  case none =>
    intro policy
    exact findTrigger_eq_none_iff policy
  case first =>
    intro s
    exact findTrigger_first_iff
  case longest =>
    intro s
    exact findTrigger_longest_iff
  case same =>
    intro s hs x hx hends
    have hlongest := findTrigger_longest_iff.1 hs
    exact ⟨hlongest.suffix hx hends, Text.eq_of_byteLength_eq hends.2 hlongest.1.2⟩
  case order =>
    intro hdistinct snippets' hperm
    exact findTrigger_longest_perm hdistinct hperm

end Found

namespace NestedShortcuts

def named (shortcut : Text) : Snippet := ⟨shortcut, shortcut, [], none⟩

def snippets : List Snippet :=
  [named ['l', 'o'], named [], named ['é', 'l', 'o'], named ['ü', 'é', 'l', 'o']]

/-- Three shortcuts of different lengths end one text, and one is empty. -/
theorem longest_chosen : (Snippet.shortcuts snippets).Nodup ∧
    findTrigger .firstInOrder ['o', 'é', 'l', 'o'] snippets = some (named ['l', 'o']) ∧
    findTrigger .longestSuffix ['o', 'é', 'l', 'o'] snippets.reverse =
      some (named ['é', 'l', 'o']) := by
  have hdistinct : (Snippet.shortcuts snippets).Nodup := by decide
  have hchosen : findTrigger .longestSuffix ['o', 'é', 'l', 'o'] snippets =
      some (named ['é', 'l', 'o']) := by decide
  obtain ⟨-, -, -, -, horder⟩ := findTrigger_chooses ['o', 'é', 'l', 'o'] snippets
  exact ⟨hdistinct, by decide, (horder hdistinct _ (List.reverse_perm snippets)).trans hchosen⟩

end NestedShortcuts
end SnippetExpansion

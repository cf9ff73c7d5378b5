import SnippetExpansion.Proofs.Transfer.Merge
import SnippetExpansion.Proofs.Transfer.Variables

/-! # Counting up to a free name
A free name is looked for by counting up from one, with no bound set. As only so many names are taken that
ends, and where it ends is the number that is put behind the name. So an entry that is to stay beside another
one comes under a name of its own, and all that was there is there still. -/
namespace SnippetExpansion

/-- Counting up from a number, past every name that is taken, ends with this number. -/
inductive CountsTo (base : Text) (taken : List Text) : Nat → Nat → Prop where
  | free {n : Nat} : numbered base n ∉ taken → CountsTo base taken n n
  | passed {n last : Nat} : numbered base n ∈ taken → CountsTo base taken (n + 1) last →
      CountsTo base taken n last

namespace CountsTo

variable {base : Text} {taken : List Text} {n last other : Nat}

theorem le (h : CountsTo base taken n last) : n ≤ last := by
  induction h with
  | free _ => exact Nat.le_refl _
  | passed _ _ ih => omega

theorem not_mem (h : CountsTo base taken n last) : numbered base last ∉ taken := by
  induction h with
  | free hfree => exact hfree
  | passed _ _ ih => exact ih

theorem mem_of_lt (h : CountsTo base taken n last) {m : Nat} (hn : n ≤ m) (hlast : m < last) :
    numbered base m ∈ taken := by
  induction h with
  | free _ => omega
  | @passed n last htaken _ ih =>
    by_cases hm : m = n
    · rw [hm]
      exact htaken
    · exact ih (by omega) hlast

theorem unique (h : CountsTo base taken n last) (h' : CountsTo base taken n other) :
    last = other := by
  rcases Nat.lt_trichotomy last other with hlt | heq | hlt
  · exact absurd (h'.mem_of_lt h.le hlt) h.not_mem
  · exact heq
  · exact absurd (h.mem_of_lt h'.le hlt) h'.not_mem

theorem of_mem_below (hn : n ≤ last) (hfree : numbered base last ∉ taken)
    (hbelow : ∀ m, n ≤ m → m < last → numbered base m ∈ taken) : CountsTo base taken n last := by
  -- The induction is on how far there is still to count.
  obtain ⟨far, rfl⟩ := Nat.exists_eq_add_of_le hn
  induction far generalizing n with
  | zero => exact .free hfree
  | succ far ih =>
    have hsum : n + (far + 1) = n + 1 + far := by omega
    rw [hsum] at hfree hbelow ⊢
    refine .passed (hbelow n (Nat.le_refl n) (by omega)) (ih (by omega) hfree ?_)
    intro m hm hlt
    exact hbelow m (by omega) hlt

end CountsTo

/-- The smallest number from one on whose name is free. -/
structure FirstFree (base : Text) (taken : List Text) (n : Nat) : Prop where
  one_le : 1 ≤ n
  free : numbered base n ∉ taken
  below : ∀ m, 1 ≤ m → m < n → numbered base m ∈ taken
  counted : ∀ last, CountsTo base taken 1 last ↔ last = n

theorem exists_firstFree (base : Text) (taken : List Text) :
    ∃ n, FirstFree base taken n ∧ n ≤ taken.length + 1 ∧
      unusedSuffix base taken = base ++ '_' :: Text.ofNat n := by
  obtain ⟨n, hone, hlength, hsuffix, hfree, hbelow⟩ := unusedSuffix_eq base taken
  have hcounts := CountsTo.of_mem_below hone hfree hbelow
  refine ⟨n, ⟨hone, hfree, hbelow, fun last => ?_⟩, hlength, hsuffix⟩
  constructor
  · intro hlast
    exact hlast.unique hcounts
  · rintro rfl
    exact hcounts

theorem Snippet.findIdx?_of_withShortcut? {snippets : List Snippet} {shortcut : Text} {old : Snippet}
    (h : withShortcut? snippets shortcut = some old) :
    ∃ i, snippets.findIdx? (·.shortcut = shortcut) = some i ∧ snippets[i]? = some old := by
  rw [withShortcut?, List.find?_eq_bind_findIdx?_getElem?] at h
  exact Option.bind_eq_some_iff.1 h

theorem SnippetMerge.add_keepBoth (ids : IdSource) {decide : SnippetDecision} {m : SnippetMerge}
    {old new : Snippet} (hold : Snippet.withShortcut? m.snippets new.shortcut = some old)
    (hdecide : decide m.conflicts.length old new = .keepBoth) :
    ∃ id, (m.add ids decide new).snippets = m.snippets ++
      [{ new with id, shortcut := Snippet.unusedShortcut new.shortcut m.snippets }] := by
  obtain ⟨i, hindex, hget⟩ := Snippet.findIdx?_of_withShortcut? hold
  have hadd : m.add ids decide new = (m.asked old new).append ids
      { new with shortcut := Snippet.unusedShortcut new.shortcut m.snippets } := by
    simp only [add, hindex, hget, Option.getD_some, hdecide]
    rfl
  obtain ⟨id, issued, happend⟩ := append_eq ids (m.asked old new)
    { new with shortcut := Snippet.unusedShortcut new.shortcut m.snippets }
  refine ⟨id, ?_⟩
  rw [hadd, happend]
  rfl

theorem VariableMerge.find?_add_keepBoth {decide : VariableDecision} {m : VariableMerge}
    {name old value : Text} (hold : m.vars.find? name = some old)
    (hdecide : decide m.conflicts.length name old value = .keepBoth) (other : Text) :
    (m.add decide name value).vars.find? other =
      if other = unusedSuffix name m.vars.names then some value else m.vars.find? other := by
  have hadd : m.add decide name value =
      (m.asked name value old).set (unusedSuffix name m.vars.names) value := by
    simp only [add, hold, hdecide]
    rfl
  rw [hadd]
  exact Dictionary.find?_insert

/-- The number behind a shortcut or a name is the first that is free, at most one more than there are entries,
and counting up to it ends. What is kept beside an entry of that name comes in addition to all that was there,
under a name that none of it has. -/
theorem numbered_beside_all (base : Text) :
    (∀ snippets, ∃ n, FirstFree base (Snippet.shortcuts snippets) n ∧ n ≤ snippets.length + 1 ∧
      Snippet.unusedShortcut base snippets = base ++ '_' :: Text.ofNat n) ∧
    (∀ vars : Variables, ∃ n, FirstFree base vars.names n ∧ n ≤ vars.entries.length + 1 ∧
      unusedSuffix base vars.names = base ++ '_' :: Text.ofNat n) ∧
    (∀ (ids : IdSource) (decide : SnippetDecision) (m : SnippetMerge) (old new : Snippet),
      new.shortcut = base → Snippet.withShortcut? m.snippets base = some old →
      decide m.conflicts.length old new = .keepBoth →
      ∃ id n, FirstFree base (Snippet.shortcuts m.snippets) n ∧ (m.add ids decide new).snippets =
        m.snippets ++ [{ new with id, shortcut := base ++ '_' :: Text.ofNat n }]) ∧
    ∀ (decide : VariableDecision) (m : VariableMerge) (old value : Text),
      m.vars.find? base = some old → decide m.conflicts.length base old value = .keepBoth →
      ∃ n, FirstFree base m.vars.names n ∧ ∀ other, (m.add decide base value).vars.find? other =
        if other = base ++ '_' :: Text.ofNat n then some value else m.vars.find? other := by
  refine ⟨?shortcut, ?name, ?snippet, ?entry⟩
  case shortcut =>
    intro snippets
    obtain ⟨n, hn, hlength, hsuffix⟩ := exists_firstFree base (Snippet.shortcuts snippets)
    rw [Snippet.shortcuts, List.length_map] at hlength
    exact ⟨n, hn, hlength, hsuffix⟩
  case name =>
    intro vars
    obtain ⟨n, hn, hlength, hsuffix⟩ := exists_firstFree base vars.names
    rw [Dictionary.names, List.length_map] at hlength
    exact ⟨n, hn, hlength, hsuffix⟩
  case snippet =>
    rintro ids decide m old new rfl hold hdecide
    obtain ⟨n, hn, -, hsuffix⟩ := exists_firstFree new.shortcut (Snippet.shortcuts m.snippets)
    obtain ⟨id, hadd⟩ := SnippetMerge.add_keepBoth ids hold hdecide
    refine ⟨id, n, hn, ?_⟩
    rw [hadd, ← hsuffix]
    rfl
  case entry =>
    intro decide m old value hold hdecide
    obtain ⟨n, hn, -, hsuffix⟩ := exists_firstFree base m.vars.names
    refine ⟨n, hn, fun other => ?_⟩
    rw [VariableMerge.find?_add_keepBoth hold hdecide, hsuffix]

namespace TakenNumber

def snippets : List Snippet :=
  [⟨['i'], ['/', 'a'], [], none⟩, ⟨['j'], ['/', 'a', '_', '1'], [], none⟩]

def incoming : Snippet := ⟨[], ['/', 'a'], ['n', 'e', 'w'], none⟩

def merge : SnippetMerge := ⟨snippets, 0, [], []⟩

/-- A snippet comes in whose shortcut is taken, and so is the shortcut with one behind it. -/
theorem second_number_beside :
    Snippet.withShortcut? snippets ['/', 'a'] = some ⟨['i'], ['/', 'a'], [], none⟩ ∧
    ∃ id n, FirstFree ['/', 'a'] (Snippet.shortcuts snippets) n ∧
      (merge.add (.guessing Text.ofNat) (fun _ _ _ => .keepBoth) incoming).snippets =
        snippets ++ [⟨id, ['/', 'a'] ++ '_' :: Text.ofNat n, ['n', 'e', 'w'], none⟩] := by
  have hold : Snippet.withShortcut? snippets ['/', 'a'] =
      some ⟨['i'], ['/', 'a'], [], none⟩ := by decide
  obtain ⟨-, -, hbeside, -⟩ := numbered_beside_all ['/', 'a']
  exact ⟨hold, hbeside (.guessing Text.ofNat) (fun _ _ _ => .keepBoth) merge _ incoming rfl hold rfl⟩

end TakenNumber
end SnippetExpansion

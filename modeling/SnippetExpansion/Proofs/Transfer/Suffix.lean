import SnippetExpansion.Text.Blank
import SnippetExpansion.Transfer.Suffix
import Mathlib.Data.List.Nodup
import Mathlib.Data.List.Perm.Subperm

/-! # Numbered names are free
The numbers put behind a base give different names, so among one more of them than there are taken names
one is free, and the search never falls back on the base itself. -/
namespace SnippetExpansion

theorem Text.ofNat_injective {m n : Nat} (h : Text.ofNat m = Text.ofNat n) : m = n := by
  have hvalue := congrArg (Nat.ofDigitChars 10 · 0) h
  simpa only [Text.ofNat, Nat.ofDigitChars_ten_toDigits] using hvalue

theorem numbered_injective {base : Text} {m n : Nat} (h : numbered base m = numbered base n) :
    m = n := by
  have htail := List.append_cancel_left h
  exact Text.ofNat_injective (List.cons.inj htail).2

theorem numbered_inj {base base' : Text} {m n : Nat} :
    numbered base m = numbered base' n ↔ base = base' ∧ m = n := by
  have hdigits (k : Nat) : '_' ∉ Text.ofNat k := by
    intro hmem
    have hdigit := Nat.isDigit_of_mem_toDigits (by decide) (by decide) hmem
    exact absurd hdigit (by decide)
  constructor
  · intro h
    obtain rfl : base = base' := by
      rcases List.append_eq_append_iff.1 h with ⟨more, hbase, hrest⟩ | ⟨more, hbase, hrest⟩
      · cases more with
        | nil => rw [hbase, List.append_nil]
        | cons c more =>
          obtain ⟨-, htail⟩ := List.cons.inj hrest
          exact absurd (htail ▸ List.mem_append_right more List.mem_cons_self) (hdigits m)
      · cases more with
        | nil => rw [hbase, List.append_nil]
        | cons c more =>
          obtain ⟨-, htail⟩ := List.cons.inj hrest
          exact absurd (htail ▸ List.mem_append_right more List.mem_cons_self) (hdigits n)
    exact ⟨rfl, numbered_injective h⟩
  · rintro ⟨rfl, rfl⟩
    rfl

theorem lt_numbered (base : Text) (n : Nat) : base < numbered base n := by
  rw [numbered]
  induction base with
  | nil => exact List.nil_lt_cons _ _
  | cons c base ih => exact List.cons_lt_cons_self.2 ih

theorem numbered_not_blank (base : Text) (n : Nat) : ¬Text.isBlank (numbered base n) := by
  intro hblank
  have hmem : '_' ∈ numbered base n := List.mem_append_right base List.mem_cons_self
  have hunderscore := List.all_eq_true.1 hblank '_' hmem
  revert hunderscore
  decide

/-- The suffix is the smallest one that is free, and no greater than the taken names are many, plus one. -/
theorem unusedSuffix_eq (base : Text) (taken : List Text) :
    ∃ n, 1 ≤ n ∧ n ≤ taken.length + 1 ∧ unusedSuffix base taken = numbered base n ∧
      numbered base n ∉ taken ∧ ∀ m, 1 ≤ m → m < n → numbered base m ∈ taken := by
  rw [unusedSuffix, List.find?_map]
  cases hfind : (List.range' 1 (taken.length + 1)).find?
      ((fun name => !taken.contains name) ∘ numbered base) with
  | some n =>
    obtain ⟨hfree, hrange, hbelow⟩ := List.find?_range'_eq_some.1 hfind
    have hbounds := List.mem_range'_1.1 hrange
    refine ⟨n, hbounds.1, by omega, rfl, by simpa using hfree, fun m hm hlt => ?_⟩
    simpa using hbelow m hm hlt
  | none =>
    -- All these names would be taken, and they are one more than the taken ones.
    exfalso
    have hall : (List.range' 1 (taken.length + 1)).map (numbered base) ⊆ taken := by
      intro name hname
      obtain ⟨n, hn, rfl⟩ := List.mem_map.1 hname
      simpa using List.find?_eq_none.1 hfind n hn
    have hnodup : ((List.range' 1 (taken.length + 1)).map (numbered base)).Nodup :=
      List.Nodup.map (fun m n => numbered_injective) (List.nodup_range' 1)
    have hlength := (hnodup.subperm hall).length_le
    rw [List.length_map, List.length_range'] at hlength
    omega

theorem unusedSuffix_not_mem (base : Text) (taken : List Text) :
    unusedSuffix base taken ∉ taken := by
  obtain ⟨n, -, -, heq, hfree, -⟩ := unusedSuffix_eq base taken
  rw [heq]
  exact hfree

/-- Only the numbered names of the base matter. -/
theorem unusedSuffix_congr {base : Text} {taken taken' : List Text}
    (h : ∀ n, numbered base n ∈ taken ↔ numbered base n ∈ taken') :
    unusedSuffix base taken = unusedSuffix base taken' := by
  obtain ⟨m, hm, -, heq, hfree, hbelow⟩ := unusedSuffix_eq base taken
  obtain ⟨n, hn, -, heq', hfree', hbelow'⟩ := unusedSuffix_eq base taken'
  rw [heq, heq']
  rcases Nat.lt_trichotomy m n with hlt | rfl | hlt
  · exact absurd ((h m).2 (hbelow' m hm hlt)) hfree
  · rfl
  · exact absurd ((h n).1 (hbelow n hn hlt)) hfree'

end SnippetExpansion

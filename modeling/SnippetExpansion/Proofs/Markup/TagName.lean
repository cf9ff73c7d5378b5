import SnippetExpansion.Markup.Parser
import SnippetExpansion.Proofs.Text.Cut
import Mathlib

/-! # The name in a tag
A name is read from a tag in small letters, up to white space and without slashes at the end of the tag. What
is read is a name that a tag can hold. It ends in a slash where a slash stands right before white space, for
slashes are taken off at the end of the tag only. -/
namespace SnippetExpansion

namespace Text

theorem dropTrailing_append_cons {inClass : Char → Bool} {c : Char} (hc : ¬inClass c) (s t : Text) :
    dropTrailing inClass (s ++ c :: t) = s ++ c :: dropTrailing inClass t := by
  have hreverse : (s ++ c :: t).reverse = t.reverse ++ (c :: s.reverse) := by simp
  rw [dropTrailing, dropTrailing, hreverse, List.dropWhile_append]
  split
  · next hall =>
    rw [List.dropWhile_cons_of_neg hc, List.isEmpty_iff.1 hall]
    simp
  · simp

theorem dropTrailing_eq_self {inClass : Char → Bool} {t : Text}
    (h : ∀ c ∈ t.getLast?, ¬inClass c) : dropTrailing inClass t = t := by
  rcases List.eq_nil_or_concat t with rfl | ⟨s, c, rfl⟩
  · rfl
  · have hc : ¬inClass c := h c (by simp)
    rw [List.concat_eq_append, dropTrailing_append_cons hc]
    rfl

theorem dropTrailing_prefix (inClass : Char → Bool) (t : Text) : dropTrailing inClass t <+: t := by
  rw [dropTrailing, ← List.reverse_suffix, List.reverse_reverse]
  exact List.dropWhile_suffix inClass

theorem trim_eq_self {t : Text} (h : ∀ c ∈ t, ¬isBlankChar c) : trim t = t := by
  have hstart : trimStart t = t := by
    cases t with
    | nil => rfl
    | cons c t => exact List.dropWhile_cons_of_neg (h c List.mem_cons_self)
  rw [trim, hstart]
  exact dropTrailing_eq_self fun c hc => h c (List.mem_of_getLast? hc)

theorem asciiLower_eq_self {t : Text} (h : ∀ c ∈ t, ¬c.isUpper) : asciiLower t = t := by
  refine (List.map_congr_left fun c hc => ?_).trans (List.map_id t)
  exact Char.toLower_eq_of_not_isUpper (h c hc)

theorem toLower_eq_or (c : Char) : c.toLower = c ∨ c.isUpper ∧ c.toLower.isLower := by
  by_cases hc : c.isUpper
  · exact .inr ⟨hc, by simp [Char.isAlpha, hc]⟩
  · exact .inl (Char.toLower_eq_of_not_isUpper hc)

theorem not_isBlankChar_of_isAlpha {c : Char} (h : c.isAlpha) : ¬isBlankChar c := by
  simp only [Char.isAlpha, Char.isUpper, Char.isLower, Bool.or_eq_true, Bool.and_eq_true,
    decide_eq_true_eq, ge_iff_le, UInt32.le_iff_toNat_le] at h
  have hrange : 65 ≤ c.toNat ∧ c.toNat ≤ 90 ∨ 97 ≤ c.toNat ∧ c.toNat ≤ 122 := h
  simp only [isBlankChar, blankRanges, List.any_cons, List.any_nil, Bool.or_false, Bool.or_eq_true,
    decide_eq_true_eq]
  omega

end Text

namespace Markup

/-- A tag that reads as it is written: a small letter first, no white space, no `>` and no capital letter. -/
structure IsTagName (tag : Text) : Prop where
  letter : tag.head?.any Char.isLower
  inner : ∀ c ∈ tag, c ≠ '>' ∧ ¬Text.isBlankChar c ∧ ¬c.isUpper

instance : DecidablePred IsTagName := fun tag =>
  decidable_of_iff
    (tag.head?.any Char.isLower ∧ tag.all fun c => c ≠ '>' ∧ ¬Text.isBlankChar c ∧ ¬c.isUpper)
    (by simp only [List.all_eq_true, decide_eq_true_eq]
        exact ⟨fun h => ⟨h.1, h.2⟩, fun h => ⟨h.letter, h.inner⟩⟩)

/-- A slash stands right before the first white space. -/
def SlashBeforeSpace (inside : Text) : Prop :=
  ∃ name blank rest, inside = name ++ '/' :: blank :: rest ∧ Text.isBlankChar blank ∧
    ∀ c ∈ name, ¬Text.isBlankChar c

theorem IsTagName.opens {tag : Text} (h : IsTagName tag) :
    ∃ c rest, tag = c :: rest ∧ c.isAlpha ∧ '>' ∉ tag := by
  cases tag with
  | nil => cases h.letter
  | cons c rest =>
    have hsmall : c.isLower := h.letter
    refine ⟨c, rest, rfl, by simp [Char.isAlpha, hsmall], ?_⟩
    intro hmem
    exact (h.inner _ hmem).1 rfl

namespace Building

theorem tagName_eq_self {tag : Text} (h : IsTagName tag) (hslash : tag.getLast? ≠ some '/') :
    tagName tag = tag := by
  have hwhole : Text.dropTrailing (· = '/') tag = tag := by
    apply Text.dropTrailing_eq_self
    intro c hc hcslash
    rw [decide_eq_true_eq] at hcslash
    subst hcslash
    exact hslash hc
  have hblank : tag.takeWhile (!Text.isBlankChar ·) = tag := by
    rw [List.takeWhile_eq_self_iff]
    intro c hc
    simp [(h.inner c hc).2.1]
  rw [tagName, hwhole, hblank, Text.asciiLower_eq_self fun c hc => (h.inner c hc).2.2]

theorem takeWhile_dropTrailing {name rest : Text} {blank : Char} (hblank : Text.isBlankChar blank)
    (hname : ∀ c ∈ name, ¬Text.isBlankChar c) :
    (Text.dropTrailing (· = '/') (name ++ blank :: rest)).takeWhile (!Text.isBlankChar ·) = name := by
  have hslash : ¬decide (blank = '/') := by
    rw [decide_eq_true_eq]
    rintro rfl
    exact absurd hblank (by decide)
  rw [Text.dropTrailing_append_cons hslash, List.takeWhile_append_of_pos]
  · rw [List.takeWhile_cons_of_neg (by simp [hblank]), List.append_nil]
  · intro c hc
    simp [hname c hc]

theorem tagName_subset (inside : Text) : ∀ d ∈ tagName inside,
    ∃ c ∈ inside, d = c.toLower ∧ ¬Text.isBlankChar c := by
  intro d hd
  obtain ⟨c, hc, rfl⟩ := List.mem_map.1 hd
  have hblank := List.mem_takeWhile_imp hc
  have hmem := (Text.dropTrailing_prefix (· = '/') inside).subset (List.takeWhile_subset _ hc)
  exact ⟨c, hmem, rfl, by simpa using hblank⟩

theorem isTagName_tagName {c : Char} {rest : Text} (hc : c.isAlpha) (hclosed : '>' ∉ c :: rest) :
    IsTagName (tagName (c :: rest)) := by
  have hslash : ¬decide (c = '/') := by
    rw [decide_eq_true_eq]
    rintro rfl
    exact absurd hc (by decide)
  have hblank := Text.not_isBlankChar_of_isAlpha hc
  constructor
  · have hfirst : Text.dropTrailing (· = '/') ([] ++ c :: rest) =
        [] ++ c :: Text.dropTrailing (· = '/') rest := Text.dropTrailing_append_cons hslash [] rest
    rw [List.nil_append, List.nil_append] at hfirst
    rw [tagName, hfirst, List.takeWhile_cons_of_pos (by simp [hblank]), Text.asciiLower, List.map_cons]
    simp [hc]
  · intro d hd
    obtain ⟨e, he, rfl, hnot⟩ := tagName_subset _ d hd
    rcases Text.toLower_eq_or e with hsame | ⟨-, hsmall⟩
    · rw [hsame]
      refine ⟨?_, hnot, ?_⟩
      · rintro rfl
        exact hclosed he
      · rw [← hsame]
        simp
    · refine ⟨?_, Text.not_isBlankChar_of_isAlpha (by simp [Char.isAlpha, hsmall]), by simp⟩
      intro hgreater
      rw [hgreater] at hsmall
      exact absurd hsmall (by decide)

theorem addTag_of_letter (b : Building) {c : Char} {rest : Text} (hc : c.isAlpha)
    (hclosed : '>' ∉ c :: rest) :
    b.addTag (c :: rest) =
      if (c :: rest).getLast? = some '/' ∨ tagName (c :: rest) ∈ Node.voidTags then
        b.addNode (.element (tagName (c :: rest)) [])
      else b.openElement (tagName (c :: rest)) := by
  obtain ⟨d, name, hname, -, -⟩ := (isTagName_tagName hc hclosed).opens
  unfold addTag
  split
  · next heq =>
    obtain ⟨rfl, -⟩ := List.cons.inj heq
    exact absurd hc (by decide)
  · simp [hname]

theorem toLower_eq_slash_iff {c : Char} : c.toLower = '/' ↔ c = '/' := by
  rcases Text.toLower_eq_or c with hsame | ⟨hupper, hsmall⟩
  · rw [hsame]
  · constructor
    · intro hslash
      rw [hslash] at hsmall
      exact absurd hsmall (by decide)
    · rintro rfl
      exact absurd hupper (by decide)

theorem getLast?_asciiLower_iff {t : Text} :
    (Text.asciiLower t).getLast? = some '/' ↔ t.getLast? = some '/' := by
  simp [Text.asciiLower, List.getLast?_map, toLower_eq_slash_iff]

theorem getLast?_tagName_of_no_blank {inside : Text} (h : ∀ c ∈ inside, ¬Text.isBlankChar c) :
    (tagName inside).getLast? ≠ some '/' := by
  have hsub := (Text.dropTrailing_prefix (· = '/') inside).subset
  have hwhole : (Text.dropTrailing (· = '/') inside).takeWhile (!Text.isBlankChar ·) =
      Text.dropTrailing (· = '/') inside := by
    rw [List.takeWhile_eq_self_iff]
    intro c hc
    simp [h c (hsub hc)]
  rw [tagName, hwhole, Ne, getLast?_asciiLower_iff, Text.dropTrailing, List.getLast?_reverse]
  intro hslash
  have hnot := List.head?_dropWhile_not (fun c => decide (c = '/')) inside.reverse
  rw [hslash] at hnot
  simp at hnot

/-- Whether the name ends in a slash is settled at the first white space of the tag. -/
theorem getLast?_tagName_iff (inside : Text) :
    (tagName inside).getLast? = some '/' ↔ SlashBeforeSpace inside := by
  rcases Text.stretch_or_splits (!Text.isBlankChar ·) inside with
    hnone | ⟨name, blank, rest, rfl, hname, hblank⟩
  · have hfree : ∀ c ∈ inside, ¬Text.isBlankChar c := fun c hc => by simpa using hnone c hc
    apply iff_of_false (getLast?_tagName_of_no_blank hfree)
    rintro ⟨name, blank, rest, rfl, hblank, -⟩
    exact hfree blank (by simp) hblank
  · have hname' : ∀ c ∈ name, ¬Text.isBlankChar c := fun c hc => by simpa using hname c hc
    have hblank' : Text.isBlankChar blank := by simpa using hblank
    rw [tagName, takeWhile_dropTrailing hblank' hname', getLast?_asciiLower_iff]
    constructor
    · intro hslash
      obtain ⟨before, rfl⟩ := List.getLast?_eq_some_iff.1 hslash
      refine ⟨before, blank, rest, by simp, hblank', ?_⟩
      intro c hc
      exact hname' c (List.mem_append_left _ hc)
    · rintro ⟨before, other, rest', hsplit, hother, hbefore⟩
      have hslash : ∀ c ∈ before ++ ['/'], !Text.isBlankChar c := by
        intro c hc
        rcases List.mem_append.1 hc with hmem | hmem
        · simp [hbefore c hmem]
        · rw [List.mem_singleton.1 hmem]
          decide
      rw [List.append_cons before] at hsplit
      obtain ⟨rfl, -⟩ := Text.first_unique hname hslash hblank (by simp [hother]) hsplit
      exact List.getLast?_concat

end Building
end Markup
end SnippetExpansion

import SnippetExpansion.Surface.Rich
import SnippetExpansion.Proofs.Markup.Scan

/-! # Markup put together
What is shown of markup does not change when more is written behind it, and what is shown of the two parts stands
side by side, as long as nothing at the seam is read across it: no tag is open there, no `<` and no beginning
of a name. Elements may be open there, for they have no part in what is shown. -/
namespace SnippetExpansion

namespace Text

/-- The text ends within the word: with a beginning of it that is not all of it. -/
def EndsWithin (part t : Text) : Prop := ∃ s, s <+: part ∧ s ≠ [] ∧ s ≠ part ∧ s <:+ t

instance (part t : Text) : Decidable (EndsWithin part t) :=
  decidable_of_iff (∃ s ∈ part.inits, s ≠ [] ∧ s ≠ part ∧ s <:+ t)
    (by simp only [EndsWithin, List.mem_inits])

section Word

variable {part new t u p : Text} {c x : Char}

theorem EndsWithin.of_suffix (h : EndsWithin part u) (hsuffix : u <:+ t) : EndsWithin part t := by
  obtain ⟨s, hstart, hne, hproper, hs⟩ := h
  exact ⟨s, hstart, hne, hproper, hs.trans hsuffix⟩

theorem word_eq_none_iff : word part t = none ↔ ¬part <+: t := by
  rw [word, ← List.isPrefixOf_iff_prefix]
  by_cases h : part.isPrefixOf t <;> simp [h]

theorem eq_append_of_word {v : Unit} {size : Nat} (hpart : part ≠ [])
    (h : word part (c :: u) = some (v, size)) : c :: u = part ++ u.drop size := by
  rw [word] at h
  split at h
  · next hstarts =>
    obtain ⟨-, rfl⟩ := Prod.mk.inj (Option.some.inj h)
    obtain ⟨rest, hrest⟩ := List.isPrefixOf_iff_prefix.1 hstarts
    obtain ⟨d, part, rfl⟩ := List.exists_cons_of_ne_nil hpart
    obtain ⟨rfl, rfl⟩ := List.cons.inj hrest
    simp
  · cases h

theorem replaceAll_cons (h : ¬part <+: c :: u) :
    replaceAll part new (c :: u) = c :: replaceAll part new u := by
  rw [replaceAll_eq, cut_of_none (word_eq_none_iff.2 h), flatMap_replaced_consChar, ← replaceAll_eq]

theorem not_prefix_append (hseam : ¬EndsWithin part (c :: u)) (h : ¬part <+: c :: u) (v : Text) :
    ¬part <+: c :: (u ++ v) := by
  intro hlong
  have hshort : c :: u <+: c :: (u ++ v) := List.prefix_append (c :: u) v
  rcases List.prefix_or_prefix_of_prefix hlong hshort with hinside | hacross
  · exact h hinside
  · apply hseam
    refine ⟨c :: u, hacross, List.cons_ne_nil c u, ?_, List.suffix_rfl⟩
    intro hwhole
    apply h
    rw [hwhole]

theorem replaceAll_append (hpart : part ≠ []) (hseam : ¬EndsWithin part u) (v : Text) :
    replaceAll part new (u ++ v) = replaceAll part new u ++ replaceAll part new v := by
  induction u using cut_induction (word part) with
  | nil => rfl
  | passed c u hfind ih =>
    rw [word_eq_none_iff] at hfind
    have hrest : ¬EndsWithin part u := by
      intro hends
      exact hseam (hends.of_suffix (List.suffix_cons c u))
    rw [List.cons_append, replaceAll_cons (not_prefix_append hseam hfind v), replaceAll_cons hfind,
      ih hrest, List.cons_append]
  | taken c u w size hfind ih =>
    have hword := eq_append_of_word hpart hfind
    have hrest : ¬EndsWithin part (u.drop size) := by
      intro hends
      apply hseam
      rw [hword]
      exact hends.of_suffix (List.suffix_append part _)
    rw [hword, List.append_assoc, replaceAll_word hpart, replaceAll_word hpart, ih hrest,
      List.append_assoc]

theorem mem_replaceAll (hpart : part ≠ []) (h : part <:+: t) : x ∈ replaceAll part [x] t := by
  obtain ⟨found, v, hfound⟩ := exists_found_word hpart h
  rw [replaceAll_eq, List.mem_flatMap]
  exact ⟨.found found v, hfound, List.mem_singleton_self x⟩

theorem suffix_of_replaceAll (hpart : part ≠ []) (hx : x ∉ p) (h : p <:+ replaceAll part [x] t) :
    p <:+ t := by
  induction t using cut_induction (word part) with
  | nil => exact h
  | passed c u hfind ih =>
    rw [replaceAll_cons (word_eq_none_iff.1 hfind), List.suffix_cons_iff] at h
    rcases h with hwhole | hlater
    · have hnone : ¬part <:+: u := by
        intro hstands
        apply hx
        rw [hwhole]
        exact List.mem_cons_of_mem c (mem_replaceAll hpart hstands)
      rw [Text.replaceAll_of_not_infix hpart hnone] at hwhole
      rw [hwhole]
    · exact (ih hlater).trans (List.suffix_cons c u)
  | taken c u w size hfind ih =>
    have hword := eq_append_of_word hpart hfind
    rw [hword, replaceAll_word hpart, List.singleton_append, List.suffix_cons_iff] at h
    rcases h with hwhole | hlater
    · apply absurd _ hx
      rw [hwhole]
      exact List.mem_cons_self
    · rw [hword]
      exact (ih hlater).trans (List.suffix_append part _)

end Word
end Text

namespace Entity

/-- With texts side by side no name is decoded across the seam, and none comes about there in the meantime, for
no character that is put in belongs to a name that is still to come. -/
theorem decodeWith_append {names : List (Text × Char)} {u : Text} (hne : ∀ e ∈ names, e.1 ≠ [])
    (hlater : names.Pairwise fun e f => e.2 ∉ f.1) (hseam : ∀ e ∈ names, ¬Text.EndsWithin e.1 u)
    (v : Text) : decodeWith names (u ++ v) = decodeWith names u ++ decodeWith names v := by
  induction names generalizing u v with
  | nil => rfl
  | cons e names ih =>
    obtain ⟨hpart, hne⟩ := List.forall_mem_cons.1 hne
    obtain ⟨hfresh, hlater⟩ := List.pairwise_cons.1 hlater
    obtain ⟨hfirst, hseam⟩ := List.forall_mem_cons.1 hseam
    have hcons (t : Text) : decodeWith (e :: names) t =
        decodeWith names (Text.replaceAll e.1 [e.2] t) := rfl
    rw [hcons, hcons, hcons, Text.replaceAll_append hpart hfirst]
    apply ih hne hlater
    rintro f hf ⟨s, hstart, hnil, hproper, hends⟩
    apply hseam f hf
    refine ⟨s, hstart, hnil, hproper, Text.suffix_of_replaceAll hpart ?_ hends⟩
    intro hmem
    exact hfresh f hf (hstart.subset hmem)

theorem decode_append {u : Text} (hseam : ∀ e ∈ all, ¬Text.EndsWithin e.1 u) (v : Text) :
    decode (u ++ v) = decode u ++ decode v :=
  decodeWith_append (by decide) (by decide) hseam v

end Entity

namespace Markup

open Node

theorem foldr_consChar_plain (t s : Text) (pieces : List (Piece Text)) :
    t.foldr Piece.consChar (.plain s :: pieces) = .plain (t ++ s) :: pieces := by
  induction t with
  | nil => rfl
  | cons c t ih => rw [List.foldr_cons, ih, Piece.consChar, List.cons_append]

theorem Openless.textContent_append {t : Text} (h : Openless t) (hless : ¬['<'] <:+ t)
    (hnames : ∀ e ∈ Entity.all, ¬Text.EndsWithin e.1 t) (more : Text) :
    textContent (parse (t ++ more)) = Entity.decode t ++ textContent (parse more) := by
  have hcut : Text.cut tagFinder (t ++ more) =
      t.foldr Piece.consChar (Text.cut tagFinder more) := by
    apply h.cut_append
    intro hlast
    obtain ⟨before, rfl⟩ := List.getLast?_eq_some_iff.1 hlast
    exact absurd (List.suffix_append before ['<']) hless
  rw [Markup.textContent_eq, Markup.textContent_eq, hcut]
  by_cases hplain : ∃ s pieces, Text.cut tagFinder more = .plain s :: pieces
  · -- The text and the first run behind it are one run, which decodes part by part.
    obtain ⟨s, pieces, hpieces⟩ := hplain
    rw [hpieces, foldr_consChar_plain, List.flatMap_cons, List.flatMap_cons, Building.shown,
      Building.shown, Entity.decode_append hnames, List.append_assoc]
  · apply flatMap_shown_foldr
    intro s pieces hpieces
    exact hplain ⟨s, pieces, hpieces⟩

section Append

variable {a rest : Text} {runs : List Text} (hscan : Scan a runs rest) (hopen : Openless rest)
  (hless : ¬['<'] <:+ a) (hnames : ∀ e ∈ Entity.all, ¬Text.EndsWithin e.1 a) (b : Text)
include hscan hopen hless hnames

theorem Scan.textContent_append :
    textContent (parse (a ++ b)) = textContent (parse a) ++ textContent (parse b) := by
  induction hscan with
  | done hnone =>
    rw [hopen.textContent_append hless hnames, (tagless_of_no_firstTag hnone).textContent_eq]
  | tag hfirst _ ih =>
    have hbehind := ih hopen
      (fun hends => hless (hends.trans hfirst.suffix))
      (fun e he hends => hnames e he (hends.of_suffix hfirst.suffix))
    rw [(hfirst.append b).textContent_eq, hfirst.textContent_eq, hbehind, List.append_assoc]

/-- If a scan leaves nothing open at the end of some markup, and it ends neither in `<` nor within the name of a
character, what is written behind it adds what it shows by itself, and as much to the offset of the caret. -/
theorem textContent_parse_append :
    textContent (parse (a ++ b)) = textContent (parse a) ++ textContent (parse b) ∧
    RichRegion.measure (a ++ b) = RichRegion.measure a + RichRegion.measure b := by
  have hcontent := hscan.textContent_append hopen hless hnames b
  refine ⟨hcontent, ?_⟩
  rw [RichRegion.measure, hcontent, List.length_append]
  rfl

end Append

def halfComparison : Text := "<b>1 &lt;".toList

theorem halfComparison_scan : Scan halfComparison [[]] "1 &lt;".toList := by
  have hnone : '<' ∉ "1 &lt;".toList := by decide
  have hfirst : FirstTag halfComparison [] ['b'] "1 &lt;".toList := by
    constructor
    · rfl
    · exact ⟨'b', rfl, by decide⟩
    · decide
    · intro before c rest hnil
      simp at hnil
  apply Scan.tag hfirst
  apply Scan.done
  intro before inside after htag
  apply hnone
  rw [htag.split]
  simp

theorem halfComparison_append :
    Scan halfComparison [[]] "1 &lt;".toList ∧ Openless "1 &lt;".toList ∧
    ¬['<'] <:+ halfComparison ∧ (∀ e ∈ Entity.all, ¬Text.EndsWithin e.1 halfComparison) ∧
    textContent (parse (halfComparison ++ " 2</b>!".toList)) =
      textContent (parse halfComparison) ++ textContent (parse " 2</b>!".toList) ∧
    RichRegion.measure (halfComparison ++ " 2</b>!".toList) =
      RichRegion.measure halfComparison + RichRegion.measure " 2</b>!".toList := by
  have hopen : Openless "1 &lt;".toList := by
    intro before c rest hsplit
    have hnone : '<' ∉ "1 &lt;".toList := by decide
    exact absurd (hsplit ▸ by simp) hnone
  have hless : ¬['<'] <:+ halfComparison := by decide
  have hnames : ∀ e ∈ Entity.all, ¬Text.EndsWithin e.1 halfComparison := by decide
  refine ⟨halfComparison_scan, hopen, hless, hnames, ?_⟩
  exact textContent_parse_append halfComparison_scan hopen hless hnames _

end Markup
end SnippetExpansion

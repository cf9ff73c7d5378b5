import SnippetExpansion.Proofs.Text.Cut
import Mathlib.Algebra.Order.BigOperators.Group.List
import Mathlib.Algebra.Order.Group.Nat
import Mathlib.Data.List.Infix

/-! # Replacing a word
Where the word stands something is found, and only there something is replaced. So a text without the word is
left alone, and a shorter text in the place of the word makes it shorter. -/
namespace SnippetExpansion

def Piece.replaced (new : Text) : Piece Unit → Text
  | .plain t => t
  | .found _ _ => new

namespace Text

section Replace

variable {part new t : Text}

theorem found_word {found : Text} {v : Unit} (hpart : part ≠ [])
    (h : .found found v ∈ cut (word part) t) : found = part ∧ part <:+: t := by
  obtain ⟨before, c, rest, more, rfl, hfind, rfl⟩ := find_of_mem_cut h
  rw [word] at hfind
  split at hfind
  · next hword =>
    have hstarts : part <+: c :: rest := List.isPrefixOf_iff_prefix.1 hword
    obtain ⟨-, rfl⟩ := Prod.mk.inj (Option.some.inj hfind)
    have hlength : 0 < part.length := List.length_pos_iff.2 hpart
    have htake : c :: rest.take (part.length - 1) = (c :: rest).take part.length := by
      rw [← List.take_succ_cons, Nat.sub_add_cancel hlength]
    refine ⟨?_, hstarts.isInfix.trans (List.suffix_append _ _).isInfix⟩
    rw [htake]
    exact (List.prefix_iff_eq_take.1 hstarts).symm
  · cases hfind

theorem exists_found_word (hpart : part ≠ []) (h : part <:+: t) :
    ∃ found v, .found found v ∈ cut (word part) t := by
  by_contra hnone
  push Not at hnone
  have hfree : (cut (word part) t).filterMap Piece.value? = [] := by
    rw [List.filterMap_eq_nil_iff]
    intro piece hpiece
    cases piece with
    | plain _ => rfl
    | found found v => exact absurd hpiece (hnone found v)
  obtain ⟨before, after, rfl⟩ := h
  obtain ⟨c, rest, rfl⟩ := List.exists_cons_of_ne_nil hpart
  have hfind : word (c :: rest) (c :: (rest ++ after)) = none :=
    find_eq_none_of_cut hfree (List.append_assoc before (c :: rest) after)
  have hword : List.isPrefixOf (c :: rest) (c :: (rest ++ after)) :=
    List.isPrefixOf_iff_prefix.2 (List.prefix_append (c :: rest) after)
  rw [word, if_pos hword] at hfind
  cases hfind

theorem replaceAll_eq : replaceAll part new t = (cut (word part) t).flatMap (Piece.replaced new) := rfl

theorem replaceAll_of_not_infix (hpart : part ≠ []) (h : ¬part <:+: t) : replaceAll part new t = t := by
  refine Eq.trans ?_ (flatMap_text_cut (word part) t)
  rw [replaceAll_eq]
  refine List.flatMap_congr fun piece hpiece => ?_
  cases piece with
  | plain _ => rfl
  | found found v => exact absurd (found_word hpart hpiece).2 h

theorem length_replaced_le (hpart : part ≠ []) (hlength : new.length ≤ part.length) :
    ∀ piece ∈ cut (word part) t, (piece.replaced new).length ≤ piece.text.length := by
  intro piece hpiece
  cases piece with
  | plain _ => exact Nat.le_refl _
  | found found v =>
    obtain ⟨rfl, -⟩ := found_word hpart hpiece
    exact hlength

theorem length_replaceAll_le (hpart : part ≠ []) (hlength : new.length ≤ part.length) :
    (replaceAll part new t).length ≤ t.length := by
  have hpieces := List.sum_le_sum (length_replaced_le (t := t) hpart hlength)
  rw [← List.length_flatMap, ← List.length_flatMap, flatMap_text_cut] at hpieces
  exact hpieces

theorem length_replaceAll_lt (hpart : part ≠ []) (hlength : new.length < part.length)
    (h : part <:+: t) : (replaceAll part new t).length < t.length := by
  obtain ⟨found, v, hfound⟩ := exists_found_word hpart h
  have hshorter : (Piece.replaced new (.found found v)).length < (Piece.found found v).text.length := by
    obtain ⟨rfl, -⟩ := found_word hpart hfound
    exact hlength
  have hpieces := List.sum_lt_sum _ _ (length_replaced_le (t := t) hpart (Nat.le_of_lt hlength))
    ⟨_, hfound, hshorter⟩
  rw [← List.length_flatMap, ← List.length_flatMap, flatMap_text_cut] at hpieces
  exact hpieces

theorem replaceAll_ne_nil (hnew : new ≠ []) (h : t ≠ []) : replaceAll part new t ≠ [] := by
  intro hnil
  rw [replaceAll_eq, List.flatMap_eq_nil_iff] at hnil
  have hnone : cut (word part) t = [] := by
    rw [List.eq_nil_iff_forall_not_mem]
    intro piece hpiece
    have hempty := hnil piece hpiece
    cases piece with
    | plain _ => exact text_ne_nil_of_mem_cut (word part) t _ hpiece hempty
    | found _ _ => exact hnew hempty
  apply h
  rw [← flatMap_text_cut (word part) t, hnone]
  rfl

end Replace

/-- The word begins nowhere in the block, not even to end behind it. -/
def misses (part block : Text) : Bool :=
  block.tails.all fun s => s.isEmpty || (!part.isPrefixOf s && !s.isPrefixOf part)

theorem word_of_misses {part block before after : Text} {d : Char} (h : misses part block)
    (hblock : block = before ++ d :: after) (rest : Text) : word part (d :: (after ++ rest)) = none := by
  have hsuffix : d :: after ∈ block.tails := (List.mem_tails _ _).2 ⟨before, hblock.symm⟩
  have hapart := List.all_eq_true.1 h _ hsuffix
  simp only [List.isEmpty_cons, Bool.false_or, Bool.and_eq_true, Bool.not_eq_true'] at hapart
  rw [word, if_neg]
  intro hstarts
  have hpart : part <+: (d :: after) ++ rest := List.isPrefixOf_iff_prefix.1 hstarts
  have hboth : d :: after <+: (d :: after) ++ rest := List.prefix_append _ _
  rcases List.prefix_or_prefix_of_prefix hpart hboth with hshorter | hlonger
  · rw [List.isPrefixOf_iff_prefix.2 hshorter] at hapart
    exact Bool.noConfusion hapart.1
  · rw [List.isPrefixOf_iff_prefix.2 hlonger] at hapart
    exact Bool.noConfusion hapart.2

theorem flatMap_replaced_consChar (new : Text) (c : Char) (pieces : List (Piece Unit)) :
    (Piece.consChar c pieces).flatMap (Piece.replaced new) =
      c :: pieces.flatMap (Piece.replaced new) := by
  unfold Piece.consChar
  split <;> rfl

theorem flatMap_replaced_foldr (new stretch : Text) (pieces : List (Piece Unit)) :
    (stretch.foldr Piece.consChar pieces).flatMap (Piece.replaced new) =
      stretch ++ pieces.flatMap (Piece.replaced new) := by
  induction stretch with
  | nil => rfl
  | cons c stretch ih =>
    rw [List.foldr_cons, flatMap_replaced_consChar, ih, List.cons_append]

theorem replaceAll_of_misses {part block : Text} (new rest : Text) (h : misses part block) :
    replaceAll part new (block ++ rest) = block ++ replaceAll part new rest := by
  have hcut : cut (word part) (block ++ rest) = block.foldr Piece.consChar (cut (word part) rest) := by
    apply cut_append_of_none
    intro before d after hblock
    exact word_of_misses h hblock rest
  rw [replaceAll_eq, hcut, flatMap_replaced_foldr, ← replaceAll_eq]

theorem replaceAll_word {part : Text} (hpart : part ≠ []) (new rest : Text) :
    replaceAll part new (part ++ rest) = new ++ replaceAll part new rest := by
  obtain ⟨c, part, rfl⟩ := List.exists_cons_of_ne_nil hpart
  have hfind : word (c :: part) (c :: (part ++ rest)) = some ((), part.length) := by
    rw [word, if_pos]
    · rfl
    · exact List.isPrefixOf_iff_prefix.2 (List.prefix_append (c :: part) rest)
  rw [replaceAll_eq, List.cons_append, cut_of_some hfind, List.flatMap_cons, List.drop_left,
    ← replaceAll_eq]
  rfl

/-- Block by block: the blocks that are the word give way, no other block has to do with it. -/
theorem replaceAll_flatMap {part new : Text} {f g : Char → Text} (hpart : part ≠ [])
    (hblocks : ∀ c, f c = part ∧ g c = new ∨ misses part (f c) ∧ g c = f c) (t : Text) :
    replaceAll part new (t.flatMap f) = t.flatMap g := by
  induction t with
  | nil => rfl
  | cons c t ih =>
    rw [List.flatMap_cons, List.flatMap_cons]
    rcases hblocks c with ⟨hf, hg⟩ | ⟨hmisses, hg⟩
    · rw [hf, hg, replaceAll_word hpart, ih]
    · rw [hg, replaceAll_of_misses _ _ hmisses, ih]

end Text

end SnippetExpansion

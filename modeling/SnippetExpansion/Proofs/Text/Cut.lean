import SnippetExpansion.Text.Cut
import Mathlib.Data.List.Basic

/-! # Cutting a text in stretches
Where a text begins with something recognised, cutting takes that and goes on behind it; where it
begins with characters at which nothing is recognised, they go in front of the pieces of the rest. -/
namespace SnippetExpansion

variable {α : Type}

namespace Piece

def glue : List (Piece α) → List (Piece α)
  | [] => []
  | plain t :: rest => t.foldr consChar (glue rest)
  | found t v :: rest => found t v :: glue rest

theorem flatMap_text_consChar (c : Char) (pieces : List (Piece α)) :
    (consChar c pieces).flatMap text = c :: pieces.flatMap text := by
  unfold consChar
  split <;> rfl

theorem found_mem_consChar {c : Char} {pieces : List (Piece α)} {t : Text} {v : α} :
    found t v ∈ consChar c pieces ↔ found t v ∈ pieces := by
  unfold consChar
  split <;> simp

theorem found_mem_glue {t : Text} {v : α} {pieces : List (Piece α)} :
    found t v ∈ glue pieces ↔ found t v ∈ pieces := by
  induction pieces with
  | nil => rfl
  | cons piece pieces ih =>
    cases piece with
    | found t' v' => rw [glue, List.mem_cons, List.mem_cons, ih]
    | plain t' =>
      have hstretch : found t v ∈ t'.foldr consChar (glue pieces) ↔ found t v ∈ glue pieces := by
        induction t' with
        | nil => rfl
        | cons c t' iht => exact found_mem_consChar.trans iht
      rw [glue, hstretch, ih]
      simp

theorem filterMap_value?_consChar (c : Char) (pieces : List (Piece α)) :
    (consChar c pieces).filterMap value? = pieces.filterMap value? := by
  unfold consChar
  split <;> rfl

theorem filterMap_value?_glue (pieces : List (Piece α)) :
    (glue pieces).filterMap value? = pieces.filterMap value? := by
  induction pieces with
  | nil => rfl
  | cons piece pieces ih =>
    cases piece with
    | found t v => rw [glue, List.filterMap_cons, List.filterMap_cons, ih]
    | plain t =>
      rw [glue, List.filterMap_cons_none rfl, ← ih]
      induction t with
      | nil => rfl
      | cons c t iht => rw [List.foldr_cons, filterMap_value?_consChar, iht]

theorem foldr_consChar {t : Text} {pieces : List (Piece α)} (h : t ≠ [])
    (hpieces : ∀ s rest, pieces ≠ plain s :: rest) :
    t.foldr consChar pieces = plain t :: pieces := by
  induction t with
  | nil => exact absurd rfl h
  | cons c t ih =>
    cases t with
    | nil =>
      rw [List.foldr_cons, List.foldr_nil]
      cases pieces with
      | nil => rfl
      | cons piece pieces =>
        cases piece with
        | plain s => exact absurd rfl (hpieces s pieces)
        | found s v => rfl
    | cons d t => rw [List.foldr_cons, ih (List.cons_ne_nil d t), consChar]

def Separate (p q : Piece α) : Prop := p.value?.isSome ∨ q.value?.isSome

theorem text_ne_nil_of_mem_consChar {c : Char} {pieces : List (Piece α)}
    (h : ∀ piece ∈ pieces, piece.text ≠ []) : ∀ piece ∈ consChar c pieces, piece.text ≠ [] := by
  unfold consChar
  split
  · next t pieces =>
    rw [List.forall_mem_cons]
    exact ⟨List.cons_ne_nil c t, fun piece hmem => h piece (List.mem_cons_of_mem _ hmem)⟩
  · rw [List.forall_mem_cons]
    exact ⟨List.cons_ne_nil c [], h⟩

theorem isChain_found {t : Text} {v : α} {pieces : List (Piece α)} (h : pieces.IsChain Separate) :
    (found t v :: pieces).IsChain Separate := by
  cases pieces with
  | nil => exact .singleton _
  | cons piece pieces => exact .cons_cons (.inl rfl) h

theorem isChain_consChar {c : Char} {pieces : List (Piece α)} (h : pieces.IsChain Separate) :
    (consChar c pieces).IsChain Separate := by
  cases pieces with
  | nil => exact .singleton _
  | cons piece pieces =>
    cases piece with
    | found t v => exact .cons_cons (.inr rfl) h
    | plain t =>
      cases pieces with
      | nil => exact .singleton _
      | cons next pieces =>
        obtain ⟨hnext, hrest⟩ := List.isChain_cons_cons.1 h
        exact .cons_cons hnext hrest

/-- A plain piece after one more character: a later one stands as before, the first one has grown. -/
theorem of_consChar_eq {c : Char} {t : Text} {pieces before after : List (Piece α)}
    (h : consChar c pieces = before ++ plain t :: after) :
    (∃ before', pieces = before' ++ plain t :: after) ∨
      ∃ t', t = c :: t' ∧ (t' = [] ∧ pieces = after ∨ pieces = plain t' :: after) := by
  unfold consChar at h
  split at h
  · next s pieces =>
    cases before with
    | nil =>
      obtain ⟨hplain, rfl⟩ := List.cons.inj h
      exact .inr ⟨s, (plain.inj hplain).symm, .inr rfl⟩
    | cons piece before =>
      obtain ⟨-, rfl⟩ := List.cons.inj h
      exact .inl ⟨plain s :: before, rfl⟩
  · cases before with
    | nil =>
      obtain ⟨hplain, rfl⟩ := List.cons.inj h
      exact .inr ⟨[], (plain.inj hplain).symm, .inl ⟨rfl, rfl⟩⟩
    | cons piece before =>
      obtain ⟨-, rfl⟩ := List.cons.inj h
      exact .inl ⟨before, rfl⟩

end Piece

namespace Text

theorem cutFrom_eq_cut_drop (find : Finder α) (n : Nat) (t : Text) :
    cutFrom find n t = cut find (t.drop n) := by
  induction n generalizing t with
  | zero => rfl
  | succ n ih =>
    cases t with
    | nil => rfl
    | cons c rest => simpa [cutFrom] using ih rest

theorem cut_of_some {find : Finder α} {c : Char} {rest : Text} {value : α} {more : Nat}
    (h : find (c :: rest) = some (value, more)) :
    cut find (c :: rest) = .found (c :: rest.take more) value :: cut find (rest.drop more) := by
  rw [← cutFrom_eq_cut_drop]
  simp [cut, cutFrom, h]

theorem cut_of_none {find : Finder α} {c : Char} {rest : Text} (h : find (c :: rest) = none) :
    cut find (c :: rest) = Piece.consChar c (cut find rest) := by
  simp [cut, cutFrom, h]

/-- A stretch in which nothing begins that is recognised, in front of a text. -/
theorem cut_append_of_none {find : Finder α} {stretch rest : Text}
    (h : ∀ before c after, stretch = before ++ c :: after → find (c :: (after ++ rest)) = none) :
    cut find (stretch ++ rest) = stretch.foldr Piece.consChar (cut find rest) := by
  induction stretch with
  | nil => rfl
  | cons c stretch ih =>
    have hrest := ih fun before d after hsplit => h (c :: before) d after (by rw [hsplit]; rfl)
    rw [List.cons_append, cut_of_none (h [] c stretch rfl), hrest, List.foldr_cons]

theorem cut_of_forall_none {find : Finder α} {t : Text} (hne : t ≠ [])
    (h : ∀ before c after, t = before ++ c :: after → find (c :: after) = none) :
    cut find t = [.plain t] := by
  have hcut : cut find (t ++ []) = t.foldr Piece.consChar (cut find []) := by
    apply cut_append_of_none
    intro before c after hsplit
    rw [List.append_nil]
    exact h before c after hsplit
  rw [List.append_nil] at hcut
  rw [hcut]
  apply Piece.foldr_consChar hne
  intro s rest h
  cases h

theorem flatMap_text_cutFrom (find : Finder α) (skip : Nat) (t : Text) :
    (cutFrom find skip t).flatMap Piece.text = t.drop skip := by
  induction t generalizing skip with
  | nil => cases skip <;> rfl
  | cons c rest ih =>
    cases skip with
    | succ skip => exact ih skip
    | zero =>
      rw [cutFrom]
      split
      · next value more _ =>
        rw [List.flatMap_cons, ih more, Piece.text, List.cons_append, List.take_append_drop]
        rfl
      · rw [Piece.flatMap_text_consChar, ih 0]
        rfl

theorem flatMap_text_cut (find : Finder α) (t : Text) :
    (cut find t).flatMap Piece.text = t :=
  flatMap_text_cutFrom find 0 t

theorem find_of_mem_cutFrom {find : Finder α} {skip : Nat} {t found : Text} {v : α}
    (h : .found found v ∈ cutFrom find skip t) :
    ∃ before c rest more, t = before ++ c :: rest ∧ find (c :: rest) = some (v, more) ∧
      found = c :: rest.take more := by
  induction t generalizing skip with
  | nil => cases skip <;> cases h
  | cons d rest ih =>
    have later {skip : Nat} (h : .found found v ∈ cutFrom find skip rest) :
        ∃ before c rest' more, d :: rest = before ++ c :: rest' ∧
          find (c :: rest') = some (v, more) ∧ found = c :: rest'.take more := by
      obtain ⟨before, c, rest', more, rfl, hfind, hfound⟩ := ih h
      exact ⟨d :: before, c, rest', more, rfl, hfind, hfound⟩
    cases skip with
    | succ skip => exact later h
    | zero =>
      rw [cutFrom] at h
      split at h
      · next value more hfind =>
        rcases List.mem_cons.1 h with hhead | hrest
        · obtain ⟨rfl, rfl⟩ := Piece.found.inj hhead
          exact ⟨[], d, rest, more, rfl, hfind, rfl⟩
        · exact later hrest
      · exact later (Piece.found_mem_consChar.1 h)

theorem find_of_mem_cut {find : Finder α} {t found : Text} {v : α}
    (h : .found found v ∈ cut find t) :
    ∃ before c rest more, t = before ++ c :: rest ∧ find (c :: rest) = some (v, more) ∧
      found = c :: rest.take more :=
  find_of_mem_cutFrom h

theorem find_eq_none_of_cut {find : Finder α} {t : Text}
    (h : (cut find t).filterMap Piece.value? = []) {before rest : Text} {c : Char}
    (ht : t = before ++ c :: rest) : find (c :: rest) = none := by
  induction before generalizing t with
  | nil =>
    subst ht
    cases hfind : find (c :: rest) with
    | none => rfl
    | some found =>
      obtain ⟨v, more⟩ := found
      simp [cut_of_some hfind, Piece.value?] at h
  | cons d before ih =>
    subst ht
    cases hfind : find (d :: (before ++ c :: rest)) with
    | some found =>
      obtain ⟨v, more⟩ := found
      simp [cut_of_some hfind, Piece.value?] at h
    | none =>
      rw [List.cons_append, cut_of_none hfind] at h
      refine ih ?_ rfl
      rw [List.filterMap_eq_nil_iff] at h ⊢
      intro piece hpiece
      cases piece with
      | plain t => rfl
      | found t v => exact h _ (Piece.found_mem_consChar.2 hpiece)

/-- Cutting goes on behind a character at which nothing is recognised, or behind all that is recognised. -/
@[elab_as_elim]
theorem cut_induction (find : Finder α) {motive : Text → Prop} (nil : motive [])
    (passed : ∀ c rest, find (c :: rest) = none → motive rest → motive (c :: rest))
    (taken : ∀ c rest v size, find (c :: rest) = some (v, size) → motive (rest.drop size) →
      motive (c :: rest)) (t : Text) : motive t := by
  suffices h : ∀ n, ∀ t : Text, t.length ≤ n → motive t from h t.length t (Nat.le_refl _)
  intro n
  induction n with
  | zero =>
    intro t ht
    rw [List.length_eq_zero_iff.1 (Nat.le_zero.1 ht)]
    exact nil
  | succ n ih =>
    intro t ht
    cases t with
    | nil => exact nil
    | cons c rest =>
      rw [List.length_cons] at ht
      cases hfind : find (c :: rest) with
      | none => exact passed c rest hfind (ih rest (by omega))
      | some found =>
        apply taken c rest found.1 found.2 hfind
        apply ih
        rw [List.length_drop]
        omega

theorem text_ne_nil_of_mem_cut (find : Finder α) (t : Text) :
    ∀ piece ∈ cut find t, piece.text ≠ [] := by
  induction t using cut_induction find with
  | nil => exact fun piece h => by cases h
  | passed c rest hfind ih =>
    rw [cut_of_none hfind]
    exact Piece.text_ne_nil_of_mem_consChar ih
  | taken c rest v size hfind ih =>
    rw [cut_of_some hfind, List.forall_mem_cons]
    exact ⟨List.cons_ne_nil c _, ih⟩

/-- Plain text is taken together as far as it goes. -/
theorem cut_isChain (find : Finder α) (t : Text) : (cut find t).IsChain Piece.Separate := by
  induction t using cut_induction find with
  | nil => exact .nil
  | passed c rest hfind ih =>
    rw [cut_of_none hfind]
    exact Piece.isChain_consChar ih
  | taken c rest v size hfind ih =>
    rw [cut_of_some hfind]
    exact Piece.isChain_found ih

/-- Nothing that is recognised begins in a plain piece, be it that it would end behind the piece. -/
theorem find_eq_none_of_plain {find : Finder α} {t plain before after : Text} {c : Char}
    {pre post : List (Piece α)} (hcut : cut find t = pre ++ .plain plain :: post)
    (hplain : plain = before ++ c :: after) :
    find (c :: (after ++ post.flatMap Piece.text)) = none := by
  induction t using cut_induction find generalizing pre plain before with
  | nil => simp [cut, cutFrom] at hcut
  | taken d rest v size hfind ih =>
    rw [cut_of_some hfind] at hcut
    cases pre with
    | nil => cases hcut
    | cons piece pre =>
      obtain ⟨-, hrest⟩ := List.cons.inj hcut
      exact ih hrest hplain
  | passed d rest hfind ih =>
    rw [cut_of_none hfind] at hcut
    rcases Piece.of_consChar_eq hcut with ⟨pre', hlater⟩ | ⟨plain', rfl, hfirst⟩
    · exact ih hlater hplain
    · cases before with
      | nil =>
        obtain ⟨rfl, rfl⟩ := List.cons.inj hplain
        have hrest := flatMap_text_cut find rest
        rcases hfirst with ⟨rfl, hpost⟩ | hpost
        · rw [hpost] at hrest
          rw [List.nil_append, hrest]
          exact hfind
        · rw [hpost, List.flatMap_cons, Piece.text] at hrest
          rw [hrest]
          exact hfind
      | cons e before =>
        obtain ⟨-, rfl⟩ := List.cons.inj hplain
        rcases hfirst with ⟨hnil, -⟩ | hpost
        · exact absurd hnil (List.append_ne_nil_of_right_ne_nil _ (List.cons_ne_nil c after))
        · have hlater : cut find rest = [] ++ .plain _ :: post := hpost
          exact ih hlater rfl

theorem splitAtFirst_of_not_mem {c : Char} {s : Text} (h : c ∉ s) : splitAtFirst c s = (s, none) := by
  induction s with
  | nil => rfl
  | cons d s ih =>
    obtain ⟨hd, hs⟩ := not_or.1 (mt List.mem_cons.2 h)
    rw [splitAtFirst, if_neg (Ne.symm hd), ih hs]

theorem splitAtFirst_append {c : Char} {s : Text} (h : c ∉ s) (rest : Text) :
    splitAtFirst c (s ++ c :: rest) = (s, some rest) := by
  induction s with
  | nil => rw [List.nil_append, splitAtFirst, if_pos rfl]
  | cons d s ih =>
    obtain ⟨hd, hs⟩ := not_or.1 (mt List.mem_cons.2 h)
    rw [List.cons_append, splitAtFirst, if_neg (Ne.symm hd), ih hs]

theorem stretch_or_splits (inClass : Char → Bool) (t : Text) :
    (∀ c ∈ t, inClass c) ∨
      ∃ before c after, t = before ++ c :: after ∧ (∀ d ∈ before, inClass d) ∧ ¬inClass c := by
  induction t with
  | nil => exact .inl nofun
  | cons d t ih =>
    by_cases hd : inClass d
    · rcases ih with hall | ⟨before, c, after, rfl, hbefore, hc⟩
      · exact .inl (List.forall_mem_cons.2 ⟨hd, hall⟩)
      · exact .inr ⟨d :: before, c, after, rfl, List.forall_mem_cons.2 ⟨hd, hbefore⟩, hc⟩
    · exact .inr ⟨[], d, t, rfl, nofun, hd⟩

theorem first_unique {inClass : Char → Bool} {s t s' t' : Text} {c d : Char}
    (hs : ∀ e ∈ s, inClass e) (ht : ∀ e ∈ t, inClass e) (hc : ¬inClass c) (hd : ¬inClass d)
    (h : s ++ c :: s' = t ++ d :: t') : s = t ∧ c = d ∧ s' = t' := by
  induction s generalizing t with
  | nil =>
    cases t with
    | nil => exact ⟨rfl, List.cons.inj h⟩
    | cons e t =>
      obtain ⟨rfl, -⟩ := List.cons.inj h
      exact absurd (List.forall_mem_cons.1 ht).1 hc
  | cons e s ih =>
    cases t with
    | nil =>
      obtain ⟨rfl, -⟩ := List.cons.inj h
      exact absurd (List.forall_mem_cons.1 hs).1 hd
    | cons e' t =>
      obtain ⟨rfl, hrest⟩ := List.cons.inj h
      obtain ⟨rfl, hsame⟩ := ih (List.forall_mem_cons.1 hs).2 (List.forall_mem_cons.1 ht).2 hrest
      exact ⟨rfl, hsame⟩

theorem not_mem_or_splits (c : Char) (t : Text) :
    c ∉ t ∨ ∃ before after, t = before ++ c :: after ∧ c ∉ before := by
  by_cases h : c ∈ t
  · obtain ⟨before, after, ht, hbefore⟩ := List.eq_append_cons_of_mem h
    exact .inr ⟨before, after, ht, hbefore⟩
  · exact .inl h

end Text
end SnippetExpansion

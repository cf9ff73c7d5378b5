import SnippetExpansion.Proofs.Text.Cut

/-! # Where something is found
Cutting takes what it finds whole, so it passes over all that begins inside. With a finder that recognises
nothing inside what it recognises, the places where something is found are all the places where something is
recognised, and a finder that recognises less finds less and nothing else. -/
namespace SnippetExpansion

variable {α : Type}

namespace Text

theorem byteLength_append (s t : Text) : byteLength (s ++ t) = byteLength s + byteLength t := by
  induction s with
  | nil => simp [byteLength]
  | cons c s ih =>
    simp only [List.cons_append, byteLength, ih]
    omega

theorem byteLength_pos {t : Text} (h : t ≠ []) : 0 < byteLength t := by
  cases t with
  | nil => exact absurd rfl h
  | cons c t =>
    have hc := c.utf8Size_pos
    simp only [byteLength]
    omega

theorem append_inj_of_byteLength {s s' t t' : Text} (h : s ++ t = s' ++ t')
    (hlength : byteLength s = byteLength s') : s = s' ∧ t = t' := by
  induction s generalizing s' with
  | nil =>
    cases s' with
    | nil => exact ⟨rfl, h⟩
    | cons c s' =>
      have hc := byteLength_pos (List.cons_ne_nil c s')
      simp only [byteLength] at hlength hc
      omega
  | cons c s ih =>
    cases s' with
    | nil =>
      have hc := byteLength_pos (List.cons_ne_nil c s)
      simp only [byteLength] at hlength hc
      omega
    | cons c' s' =>
      obtain ⟨rfl, hrest⟩ := List.cons.inj h
      simp only [byteLength] at hlength
      obtain ⟨rfl, rfl⟩ := ih hrest (by omega)
      exact ⟨rfl, rfl⟩

end Text

namespace Piece

theorem positions_consChar (start : Nat) (c : Char) (pieces : List (Piece α)) :
    positions start (consChar c pieces) = positions (start + c.utf8Size) pieces := by
  unfold consChar
  split
  · simp only [positions, Text.byteLength, Nat.add_assoc]
  · simp only [positions, Text.byteLength, Nat.add_zero]

theorem positions_foldr_consChar (start : Nat) (stretch : Text) (pieces : List (Piece α)) :
    positions start (stretch.foldr consChar pieces) =
      positions (start + Text.byteLength stretch) pieces := by
  induction stretch generalizing start with
  | nil => rfl
  | cons c stretch ih =>
    rw [List.foldr_cons, positions_consChar, ih, Text.byteLength, Nat.add_assoc]

theorem map_snd_positions (start : Nat) (pieces : List (Piece α)) :
    (positions start pieces).map Prod.snd = pieces.filterMap value? := by
  induction pieces generalizing start with
  | nil => rfl
  | cons piece pieces ih =>
    cases piece with
    | plain t => exact ih _
    | found t v => exact congrArg (v :: ·) (ih _)

theorem le_of_mem_positions {start n : Nat} {v : α} {pieces : List (Piece α)}
    (h : (n, v) ∈ positions start pieces) : start ≤ n := by
  induction pieces generalizing start with
  | nil => cases h
  | cons piece pieces ih =>
    cases piece with
    | plain t =>
      have hrest := ih h
      omega
    | found t w =>
      rcases List.mem_cons.1 h with hhead | hrest
      · obtain ⟨rfl, -⟩ := Prod.mk.inj hhead
        exact Nat.le_refl _
      · have hlater := ih hrest
        omega

theorem positions_pairwise (size : α → Nat) {pieces : List (Piece α)}
    (hsize : ∀ t v, found t v ∈ pieces → size v = Text.byteLength t) (start : Nat) :
    (positions start pieces).Pairwise fun p q => p.1 + size p.2 ≤ q.1 := by
  induction pieces generalizing start with
  | nil => exact .nil
  | cons piece pieces ih =>
    have hpieces := ih fun t v hmem => hsize t v (List.mem_cons_of_mem piece hmem)
    cases piece with
    | plain t => exact hpieces _
    | found t v =>
      apply List.Pairwise.cons
      · intro q hq
        rw [hsize t v List.mem_cons_self]
        exact le_of_mem_positions hq
      · exact hpieces _

end Piece

/-- Nothing is recognised inside what is recognised. -/
def Finder.Apart (find : Finder α) : Prop :=
  ∀ c rest v more, find (c :: rest) = some (v, more) →
    ∀ before d after, rest = before ++ d :: after → before.length < more → find (d :: after) = none

namespace Text

open Piece

variable {find : Finder α}

theorem recognises_iff_positions {t : Text} (start : Nat) :
    recognises find t ↔ positions start (cut find t) ≠ [] := by
  induction t generalizing start with
  | nil => simp [recognises, cut, cutFrom, positions]
  | cons c rest ih =>
    rw [recognises, Bool.or_eq_true]
    cases hfind : find (c :: rest) with
    | none =>
      rw [cut_of_none hfind, positions_consChar, ← ih]
      simp
    | some found =>
      obtain ⟨v, more⟩ := found
      simp [cut_of_some hfind, positions]

/-- Where nothing is recognised inside what is recognised, everything recognised is found. -/
theorem mem_positions_cut (hapart : find.Apart) {t : Text} {start n : Nat} {v : α} :
    (n, v) ∈ positions start (cut find t) ↔
      ∃ before c rest more, t = before ++ c :: rest ∧ find (c :: rest) = some (v, more) ∧
        n = start + byteLength before := by
  induction t using cut_induction find generalizing start with
  | nil => simp [cut, cutFrom, positions]
  | passed c rest hfind ih =>
    rw [cut_of_none hfind, positions_consChar, ih]
    constructor
    · rintro ⟨before, d, after, more, rfl, hd, rfl⟩
      refine ⟨c :: before, d, after, more, rfl, hd, ?_⟩
      rw [byteLength, Nat.add_assoc]
    · rintro ⟨before, d, after, more, hsplit, hd, rfl⟩
      cases before with
      | nil =>
        obtain ⟨rfl, rfl⟩ := List.cons.inj hsplit
        rw [hfind] at hd
        cases hd
      | cons e before =>
        obtain ⟨rfl, rfl⟩ := List.cons.inj hsplit
        refine ⟨before, d, after, more, rfl, hd, ?_⟩
        rw [byteLength, Nat.add_assoc]
  | taken c rest w size hfind ih =>
    rw [cut_of_some hfind, positions, List.mem_cons, ih]
    constructor
    · rintro (hhead | ⟨before, d, after, more, hsplit, hd, rfl⟩)
      · obtain ⟨rfl, rfl⟩ := Prod.mk.inj hhead
        exact ⟨[], c, rest, size, rfl, hfind, rfl⟩
      · refine ⟨c :: rest.take size ++ before, d, after, more, ?_, hd, ?_⟩
        · rw [List.append_assoc, ← hsplit, List.cons_append, List.take_append_drop]
        · rw [byteLength_append, Nat.add_assoc]
    · rintro ⟨before, d, after, more, hsplit, hd, rfl⟩
      cases before with
      | nil =>
        obtain ⟨rfl, rfl⟩ := List.cons.inj hsplit
        rw [hfind] at hd
        obtain ⟨rfl, -⟩ := Prod.mk.inj (Option.some.inj hd)
        exact .inl rfl
      | cons e before =>
        rw [List.cons_append] at hsplit
        obtain ⟨rfl, rfl⟩ := List.cons.inj hsplit
        -- What begins inside the one found here would not be recognised.
        have hbehind : size ≤ before.length := by
          by_contra hinside
          rw [hapart c _ w size hfind before d after rfl (by omega)] at hd
          cases hd
        refine .inr ⟨before.drop size, d, after, more, ?_, hd, ?_⟩
        · rw [List.drop_append_of_le_length hbehind]
        · have hparts := byteLength_append (before.take size) (before.drop size)
          rw [List.take_append_drop] at hparts
          rw [List.take_append_of_le_length hbehind, byteLength, byteLength, hparts]
          omega

/-- A finder that keeps some of what another one recognises finds the same without the rest. -/
theorem positions_cut_filter {find' : Finder α} (keep : α → Bool) (hapart : find.Apart)
    (hkeep : ∀ t, find' t = (find t).filter fun e => keep e.1) (start : Nat) (t : Text) :
    positions start (cut find' t) = (positions start (cut find t)).filter fun e => keep e.2 := by
  have hnone {t : Text} (h : find t = none) : find' t = none := by
    rw [hkeep, h]
    rfl
  induction t using cut_induction find generalizing start with
  | nil => rfl
  | passed c rest hfind ih =>
    rw [cut_of_none hfind, cut_of_none (hnone hfind), positions_consChar, positions_consChar]
    exact ih _
  | taken c rest v size hfind ih =>
    by_cases hv : keep v
    · have hfind' : find' (c :: rest) = some (v, size) := by simp [hkeep, hfind, hv]
      rw [cut_of_some hfind, cut_of_some hfind', positions, positions,
        List.filter_cons_of_pos (by exact hv), ih]
    · have hfind' : find' (c :: rest) = none := by simp [hkeep, hfind, hv]
      -- Nothing is recognised on the way to the end of what the other one found.
      have hstretch : cut find' ((c :: rest.take size) ++ rest.drop size) =
          (c :: rest.take size).foldr consChar (cut find' (rest.drop size)) := by
        apply cut_append_of_none
        intro before d after hplace
        cases before with
        | nil =>
          obtain ⟨rfl, rfl⟩ := List.cons.inj hplace
          rw [List.take_append_drop]
          exact hfind'
        | cons e before =>
          rw [List.cons_append] at hplace
          obtain ⟨-, hinside⟩ := List.cons.inj hplace
          apply hnone
          apply hapart c rest v size hfind before d (after ++ rest.drop size)
          · rw [← List.cons_append, ← List.append_assoc, ← hinside, List.take_append_drop]
          · have hlength := congrArg List.length hinside
            have hle := List.length_take_le size rest
            rw [List.length_append, List.length_cons] at hlength
            omega
      rw [List.cons_append, List.take_append_drop] at hstretch
      rw [hstretch, positions_foldr_consChar, cut_of_some hfind, positions,
        List.filter_cons_of_neg (by exact hv), ih]

end Text
end SnippetExpansion

import SnippetExpansion.Template.Segment
import SnippetExpansion.Proofs.Template.Placeholder

/-! # How a template is split
A segment in brackets is a pair of brackets of one kind with something other than those brackets between
them. The two kinds may cross, and then the pair that opens first is taken. What is left over between such
pairs is literal: no pair opens in it, so by itself it is not split any further. -/
namespace SnippetExpansion

open Text (BracketFree)
open Placeholder

namespace Segment

theorem finder_written (b : Bracket) {inside : Text} (habsent : b.Absent inside)
    (hne : inside ≠ []) (rest : Text) :
    finder (written b inside ++ rest) = some ((), inside.length + 1) := by
  have hallowed : (!inside.isEmpty) = true := by simp [hne]
  have hfound : bracketed b (fun t => !t.isEmpty) (written b inside ++ rest) =
      some (inside, inside.length + 1) :=
    bracketed_eq_some.2 ⟨rest, rfl, habsent, hallowed, rfl⟩
  cases b with
  | curly =>
    rw [finder, hfound]
    rfl
  | square =>
    have hcurly : bracketed .curly (fun t => !t.isEmpty) (written .square inside ++ rest) = none :=
      bracketed_of_ne (by decide)
    rw [finder, hcurly, hfound]
    rfl

theorem written_of_finder {t : Text} {v : Unit} {n : Nat} (h : finder t = some (v, n)) :
    ∃ b inside rest, t = written b inside ++ rest ∧ b.Absent inside ∧ inside ≠ [] ∧
      n = inside.length + 1 := by
  have hpair {b : Bracket} {inside : Text}
      (hfound : bracketed b (fun t => !t.isEmpty) t = some (inside, n)) :
      ∃ b inside rest, t = written b inside ++ rest ∧ b.Absent inside ∧ inside ≠ [] ∧
        n = inside.length + 1 := by
    obtain ⟨rest, ht, habsent, hallowed, hn⟩ := bracketed_eq_some.1 hfound
    refine ⟨b, inside, rest, ht, habsent, ?_, hn⟩
    rintro rfl
    cases hallowed
  rw [finder, Option.map_eq_some_iff] at h
  obtain ⟨⟨inside, size⟩, hfound, hn⟩ := h
  obtain ⟨-, rfl⟩ := Prod.mk.inj hn
  rcases Option.or_eq_some_iff.1 hfound with hcurly | ⟨-, hsquare⟩
  · exact hpair hcurly
  · exact hpair hsquare

theorem finder_inner {c : Char} (hc : ∀ b : Bracket, b.isInner c) (rest : Text) :
    finder (c :: rest) = none := by
  have hopener (b : Bracket) : c ≠ b.opener := by
    rintro rfl
    exact b.not_isInner_opener (hc b)
  rw [finder, bracketed_of_ne (hopener .curly), bracketed_of_ne (hopener .square)]
  rfl

theorem written_of_mem_all {template text : Text} {v : Unit}
    (h : .found text v ∈ all template) :
    ∃ b inside, text = written b inside ∧ inside ≠ [] ∧ b.Absent inside := by
  obtain ⟨before, c, rest, more, -, hfind, rfl⟩ := Text.find_of_mem_cut h
  obtain ⟨b, inside, after, hsplit, habsent, hne, rfl⟩ := written_of_finder hfind
  rw [written_append] at hsplit
  obtain ⟨rfl, rfl⟩ := List.cons.inj hsplit
  refine ⟨b, inside, ?_, hne, habsent⟩
  rw [written, List.take_append, List.take_of_length_le (Nat.le_succ _)]
  simp

/-- No pair of brackets opens in a literal, be it that it would end behind it. -/
theorem eq_nil_of_opens_in_literal {template literal inside : Text} {b : Bracket}
    {pre post : List (Piece Unit)} (hall : all template = pre ++ .plain literal :: post)
    (before rest : Text)
    (hpair : literal ++ post.flatMap Piece.text = before ++ (written b inside ++ rest))
    (hopens : before.length < literal.length) (habsent : b.Absent inside) : inside = [] := by
  by_contra hne
  rw [written_append] at hpair
  rcases List.append_eq_append_iff.1 hpair with ⟨between, rfl, -⟩ | ⟨between, rfl, hbetween⟩
  · rw [List.length_append] at hopens
    omega
  · cases between with
    | nil =>
      rw [List.length_append, List.length_nil] at hopens
      omega
    | cons c between =>
      rw [List.cons_append] at hbetween
      obtain ⟨rfl, hrest⟩ := List.cons.inj hbetween
      have hnone := Text.find_eq_none_of_plain hall rfl
      rw [← hrest, ← written_append, finder_written b habsent hne] at hnone
      cases hnone

theorem all_of_no_pair {t : Text} (ht : t ≠ [])
    (h : ∀ b inside, inside ≠ [] → b.Absent inside → ¬written b inside <:+: t) :
    all t = [.plain t] := by
  apply Text.cut_of_forall_none ht
  intro before c after hsplit
  cases hfind : finder (c :: after) with
  | none => rfl
  | some found =>
    obtain ⟨b, inside, rest, hpair, habsent, hne, -⟩ := written_of_finder hfind
    exact absurd ⟨before, rest, by rw [hsplit, hpair, List.append_assoc]⟩ (h b inside hne habsent)

/-- A template and the segments it is split into. -/
structure SplitInto (template : Text) (segments : List (Piece Unit)) : Prop where
  lossless : segments.flatMap Piece.text = template
  nonempty : ∀ segment ∈ segments, segment.text ≠ []
  separate : segments.IsChain Piece.Separate
  bracketed : ∀ text v, .found text v ∈ segments →
    ∃ b inside, text = written b inside ∧ inside ≠ [] ∧ b.Absent inside
  /-- In no literal opens a pair of brackets of the template. -/
  leftmost : ∀ pre literal post, segments = pre ++ .plain literal :: post →
    ∀ before b inside rest,
      literal ++ post.flatMap Piece.text = before ++ (written b inside ++ rest) →
      before.length < literal.length → b.Absent inside → inside = []
  /-- No literal holds a pair of brackets, and split by itself it stays one segment. -/
  literal : ∀ literal, .plain literal ∈ segments →
    (∀ b inside, inside ≠ [] → b.Absent inside → ¬written b inside <:+: literal) ∧
      all literal = [.plain literal]

theorem splits_exactly (template : Text) : SplitInto template (all template) := by
  have hnonempty := Text.text_ne_nil_of_mem_cut finder template
  constructor
  case lossless => exact Text.flatMap_text_cut finder template
  case nonempty => exact hnonempty
  case separate => exact Text.cut_isChain finder template
  case bracketed =>
    intro text v h
    exact written_of_mem_all h
  case leftmost =>
    intro pre literal post hall before b inside rest hpair hopens habsent
    exact eq_nil_of_opens_in_literal hall before rest hpair hopens habsent
  case literal =>
    intro literal hmem
    have hfree : ∀ b inside, inside ≠ [] → b.Absent inside → ¬written b inside <:+: literal := by
      rintro b inside hne habsent ⟨before, after, hstands⟩
      obtain ⟨pre, post, hall⟩ := List.append_of_mem hmem
      apply hne
      apply eq_nil_of_opens_in_literal hall before (after ++ post.flatMap Piece.text) _ _ habsent
      · rw [← hstands]
        simp only [List.append_assoc]
      · rw [← hstands, List.length_append, List.length_append, written, List.length_cons]
        omega
    exact ⟨hfree, all_of_no_pair (hnonempty _ hmem) hfree⟩

end Segment
end SnippetExpansion

import SnippetExpansion.Markup.Basic
import SnippetExpansion.Proofs.Markup.Content

/-! # Escaped text reads back
Written text has an ampersand only where a name begins that stands for one character. So every name that is
decoded is one that was written, the ampersand's own name is decoded last, and no text comes out of it that
would be decoded once more. -/
namespace SnippetExpansion

namespace Entity

open Node (escape escapeChar)

def escapeOnly (kept : List Char) (c : Char) : Text := if c ∈ kept then escapeChar c else [c]

/-- Decoding these names in turn gives the characters of `kept` back one by one, the ampersand last. -/
def undoes (kept : List Char) : List (Text × Char) → Bool
  | [] => kept.isEmpty
  | (name, x) :: names =>
    decide ('&' ∈ kept) && name.head? == some '&' && decide (1 < name.length) &&
      kept.all (fun c => if c = x then escapeChar c == name else Text.misses name (escapeChar c)) &&
      undoes (kept.filter (· ≠ x)) names

theorem misses_singleton {name : Text} {c : Char} (hname : name.head? = some '&') (hlength : 1 < name.length)
    (hc : c ≠ '&') : Text.misses name [c] := by
  cases name with
  | nil => cases hname
  | cons d name =>
    cases name with
    | nil => simp at hlength
    | cons e name =>
      obtain rfl := Option.some.inj hname
      simp [Text.misses, List.isPrefixOf, hc]

theorem decodeWith_escapeOnly {names : List (Text × Char)} {kept : List Char}
    (h : undoes kept names) (t : Text) : decodeWith names (t.flatMap (escapeOnly kept)) = t := by
  induction names generalizing kept with
  | nil =>
    have hkept : kept = [] := List.isEmpty_iff.1 h
    subst hkept
    have hsame : escapeOnly [] = fun c => [c] := rfl
    rw [hsame, List.flatMap_singleton']
    rfl
  | cons e names ih =>
    obtain ⟨name, x⟩ := e
    simp only [undoes, Bool.and_eq_true, decide_eq_true_eq, beq_iff_eq, List.all_eq_true] at h
    obtain ⟨⟨⟨⟨hampersand, hhead⟩, hlength⟩, hkept⟩, hrest⟩ := h
    have hne : name ≠ [] := List.length_pos_iff.1 (by omega)
    have hstep : Text.replaceAll name [x] (t.flatMap (escapeOnly kept)) =
        t.flatMap (escapeOnly (kept.filter (· ≠ x))) := by
      apply Text.replaceAll_flatMap hne
      intro c
      by_cases hc : c ∈ kept
      · have hblock := hkept c hc
        by_cases hx : c = x
        · subst hx
          rw [if_pos rfl, beq_iff_eq] at hblock
          exact .inl ⟨by rw [escapeOnly, if_pos hc, hblock], by simp [escapeOnly]⟩
        · rw [if_neg hx] at hblock
          exact .inr ⟨by rw [escapeOnly, if_pos hc]; exact hblock, by simp [escapeOnly, hc, hx]⟩
      · have hother : c ≠ '&' := fun heq => hc (heq ▸ hampersand)
        refine .inr ⟨?_, by simp [escapeOnly, hc]⟩
        rw [escapeOnly, if_neg hc]
        exact misses_singleton hhead hlength hother
    have hcons : decodeWith ((name, x) :: names) (t.flatMap (escapeOnly kept)) =
        decodeWith names (Text.replaceAll name [x] (t.flatMap (escapeOnly kept))) := rfl
    rw [hcons, hstep]
    exact ih hrest

theorem escapeOnly_specials : escapeOnly ['&', '<', '>'] = escapeChar := by
  funext c
  rw [escapeOnly, escapeChar]
  by_cases hampersand : c = '&'
  · simp [hampersand]
  · by_cases hless : c = '<'
    · simp [hless]
    · by_cases hgreater : c = '>'
      · simp [hgreater]
      · simp [hampersand, hless, hgreater]

/-- Every text reads back from the way it is written, names of characters in it as well. -/
theorem decode_escape (t : Text) : decode (escape t) = t := by
  have hundoes : undoes ['&', '<', '>'] all := by decide
  rw [escape, ← escapeOnly_specials]
  exact decodeWith_escapeOnly hundoes t

end Entity
end SnippetExpansion

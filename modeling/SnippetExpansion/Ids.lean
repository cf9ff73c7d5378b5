import SnippetExpansion.Text.Basic

/-!
# Identifiers

Where new identifiers come from. An identifier is not empty and has not been used before.
-/
namespace SnippetExpansion

structure IdSource where
  next : List Text → Text
  next_ne_nil : ∀ used, next used ≠ []
  next_not_mem : ∀ used, next used ∉ used

namespace IdSource

def overlong (used : List Text) : Text := List.replicate (Text.totalLength used + 1) 'x'

theorem length_le_total {t : Text} {used : List Text} (h : t ∈ used) :
    t.length ≤ Text.totalLength used := by
  induction used with
  | nil => simp at h
  | cons head rest ih =>
    rcases List.mem_cons.1 h with rfl | h
    · simp [Text.totalLength]
    · simp only [Text.totalLength]
      exact Nat.le_trans (ih h) (Nat.le_add_left _ _)

theorem overlong_not_mem (used : List Text) : overlong used ∉ used := by
  intro h
  have := length_le_total h
  simp only [overlong, List.length_replicate] at this
  omega

def unused (used : List Text) (candidate : Text) : Bool :=
  !candidate.isEmpty && !used.contains candidate

/-- The first of `guess 0`, `guess 1`, … that can be taken, looking at one more than there are used
identifiers. -/
def guessed? (guess : Nat → Text) (used : List Text) : Option Text :=
  ((List.range (used.length + 1)).map guess).find? (unused used)

/-- Takes the first guess that can be taken, and an overlong text where guesses run out. -/
def guessing (guess : Nat → Text) : IdSource where
  next used := (guessed? guess used).getD (overlong used)
  next_ne_nil used := by
    cases h : guessed? guess used with
    | none => simp [overlong]
    | some t =>
      have := List.find?_some h
      simp_all [unused]
  next_not_mem used := by
    cases h : guessed? guess used with
    | none => exact overlong_not_mem used
    | some t =>
      have := List.find?_some h
      simp_all [unused]

end IdSource
end SnippetExpansion

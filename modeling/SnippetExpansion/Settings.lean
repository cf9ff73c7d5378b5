/-!
# Settings
-/
namespace SnippetExpansion

inductive MatchPolicy where
  | firstInOrder
  /-- The longest shortcut; of those the first in order. -/
  | longestSuffix
  deriving Repr, DecidableEq

structure Settings where
  maxDepth : Nat
  /-- The quiet time in milliseconds after an edit before shortcuts are looked for. -/
  debounce : Nat
  policy : MatchPolicy
  deriving Repr, DecidableEq

def Settings.standard : Settings := ⟨10, 50, .firstInOrder⟩

end SnippetExpansion

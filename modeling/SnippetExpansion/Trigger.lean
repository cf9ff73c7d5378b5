import SnippetExpansion.Settings
import SnippetExpansion.Snippet

/-!
# Triggers

The snippet whose shortcut has just been typed.
-/
namespace SnippetExpansion

/-- Whether the text ends with the snippet's shortcut. An empty shortcut never counts. -/
def Snippet.triggeredBy (text : Text) (s : Snippet) : Bool :=
  !s.shortcut.isEmpty && s.shortcut.isSuffixOf text

namespace MatchPolicy

/-- Keeps the snippet with the longer shortcut, the earlier one of two that are equally long. -/
def longer (best : Option Snippet) (s : Snippet) : Option Snippet :=
  match best with
  | none => some s
  | some b =>
    if Text.byteLength s.shortcut ≤ Text.byteLength b.shortcut then some b else some s

def choose : MatchPolicy → List Snippet → Option Snippet
  | firstInOrder, found => found.head?
  | longestSuffix, found => found.foldl longer none

end MatchPolicy

def findTrigger (policy : MatchPolicy) (text : Text) (snippets : List Snippet) : Option Snippet :=
  policy.choose (snippets.filter (Snippet.triggeredBy text))

end SnippetExpansion

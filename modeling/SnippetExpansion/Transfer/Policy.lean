import SnippetExpansion.Failure
import SnippetExpansion.Text.Blank

/-!
# Conflict policies

What happens to an incoming entry whose place is taken.
-/
namespace SnippetExpansion

inductive ConflictPolicy where
  | keepExisting
  | keepNew
  | keepBoth
  deriving Repr, DecidableEq

namespace ConflictPolicy

def name : ConflictPolicy → Text
  | keepExisting => "keep-existing".toList
  | keepNew => "keep-new".toList
  | keepBoth => "keep-both".toList

def spellings : List (Text × ConflictPolicy) :=
  [("keep-existing".toList, keepExisting), ("existing".toList, keepExisting),
   ("keep-new".toList, keepNew), ("new".toList, keepNew),
   ("keep-both".toList, keepBoth), ("both".toList, keepBoth)]

def parse (t : Text) : Except Failure ConflictPolicy :=
  let word := Text.lower (Text.trim t)
  match spellings.lookup word with
  | some policy => .ok policy
  | none => .error (.config (Failure.naming "unknown conflict policy" word))

end ConflictPolicy
end SnippetExpansion

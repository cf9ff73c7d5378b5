import SnippetExpansion.StoredData

/-!
# Snapshots

What expansion looks at: the stored data without the categories, which only sort the snippets.
-/
namespace SnippetExpansion

structure Snapshot where
  snippets : List Snippet
  vars : Variables
  ai : AiConfig
  deriving Repr, DecidableEq, Inhabited

namespace Snapshot

def empty : Snapshot := ⟨[], Dictionary.empty, AiConfig.empty⟩

def ofStoredData (d : StoredData) : Snapshot := ⟨d.snippets, d.vars, d.ai⟩

end Snapshot

end SnippetExpansion

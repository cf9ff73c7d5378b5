import SnippetExpansion.Snapshot

/-!
# Changes

The new value of one part of the stored data, as those who follow the store are told.
-/
namespace SnippetExpansion

inductive Change where
  | snippets (value : List Snippet)
  | categories (value : List Text)
  | vars (value : Variables)
  | ai (value : AiConfig)
  deriving Repr, DecidableEq

/-- Takes one change over. A snapshot has no categories. -/
def Snapshot.apply (s : Snapshot) : Change → Snapshot
  | .snippets value => { s with snippets := value }
  | .categories _ => s
  | .vars value => { s with vars := value }
  | .ai value => { s with ai := value }

def StoredData.apply (d : StoredData) : Change → StoredData
  | .snippets value => { d with snippets := value }
  | .categories value => { d with categories := value }
  | .vars value => { d with vars := value }
  | .ai value => { d with ai := value }

end SnippetExpansion

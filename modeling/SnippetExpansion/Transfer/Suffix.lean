import SnippetExpansion.Snippet

/-!
# Numbered names

The name that an entry gets when its own is taken.
-/
namespace SnippetExpansion

def numbered (base : Text) (n : Nat) : Text := base ++ '_' :: Text.ofNat n

/-- The first of `base_1`, `base_2`, … that is not taken. One more than there are taken names is
enough to look at, so counting in 32 bits does not wrap while fewer than `2 ^ 31 - 2` are taken. -/
def unusedSuffix (base : Text) (taken : List Text) : Text :=
  (((List.range' 1 (taken.length + 1)).map (numbered base)).find? (!taken.contains ·)).getD base

def Snippet.unusedShortcut (shortcut : Text) (snippets : List Snippet) : Text :=
  unusedSuffix shortcut (snippets.map (·.shortcut))

end SnippetExpansion

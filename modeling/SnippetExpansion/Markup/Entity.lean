import SnippetExpansion.Text.Cut

/-!
# Entities

The names that markup gives to characters it could not hold as such. They are decoded one after
another, `&amp;` last, so that the ampersand it gives starts no other name.
-/
namespace SnippetExpansion.Entity

def all : List (Text × Char) :=
  [("&lt;".toList, '<'), ("&gt;".toList, '>'), ("&quot;".toList, '"'), ("&#39;".toList, '\x27'),
   ("&apos;".toList, '\x27'), ("&nbsp;".toList, '\u00a0'), ("&amp;".toList, '&')]

def decode (t : Text) : Text :=
  all.foldl (fun t (name, c) => Text.replaceAll name [c] t) t

end SnippetExpansion.Entity

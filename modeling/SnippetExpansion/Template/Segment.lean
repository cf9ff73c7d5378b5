import SnippetExpansion.Template.Placeholder

/-!
# Segments

A template as what is typed in one go: literal runs, and bracketed parts of either kind. Here a
bracketed part may begin with a colon, and one kind of bracket may stand inside the other.
-/
namespace SnippetExpansion

def Segment.finder : Finder Unit := fun t =>
  ((Placeholder.bracketed .curly (!·.isEmpty) t).or
    (Placeholder.bracketed .square (!·.isEmpty) t)).map fun (_, size) => ((), size)

def Segment.all (template : Text) : List (Piece Unit) := Text.cut Segment.finder template

/-- The token that marks where the caret goes and stands for no text. -/
def isCursorMarker (token : Text) : Bool :=
  token = "\x7bcursor\x7d".toList || token = "[cursor]".toList

end SnippetExpansion

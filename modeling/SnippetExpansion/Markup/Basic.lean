import SnippetExpansion.Text.Cut

/-!
# Markup

Text with elements in it, as far as an editing region needs it: elements have a tag and no
attributes.
-/
namespace SnippetExpansion

inductive Node where
  | text (content : Text)
  | element (tag : Text) (children : List Node)
  deriving Repr, Inhabited

namespace Node

def voidTags : List Text :=
  ["br".toList, "hr".toList, "img".toList, "input".toList, "wbr".toList]

def escapeChar (c : Char) : Text :=
  if c = '&' then "&amp;".toList
  else if c = '<' then "&lt;".toList
  else if c = '>' then "&gt;".toList
  else [c]

def escape (t : Text) : Text := t.flatMap escapeChar

mutual

def write : Node → Text
  | .text content => escape content
  | .element tag children =>
    '<' :: tag ++ '>' ::
      if voidTags.contains tag then [] else writeAll children ++ '<' :: '/' :: tag ++ ['>']

def writeAll : List Node → Text
  | [] => []
  | node :: rest => write node ++ writeAll rest

end

mutual

def texts : Node → List Text
  | .text content => [content]
  | .element _ children => textsOfAll children

def textsOfAll : List Node → List Text
  | [] => []
  | node :: rest => texts node ++ textsOfAll rest

end

def textContent (nodes : List Node) : Text := (textsOfAll nodes).flatten

end Node
end SnippetExpansion

import SnippetExpansion.Markup.Basic
import SnippetExpansion.Markup.Entity
import SnippetExpansion.Text.Blank

/-!
# Reading markup

Every text is markup. A tag runs from `<` to the next `>` and must go on with a letter or a slash;
all else is text. A closing tag closes the innermost element of its name with everything open
inside it, and is passed over when there is none. What is still open at the end is closed there.
-/
namespace SnippetExpansion.Markup

def tagFinder : Finder Text
  | '<' :: c :: rest =>
    if c = '/' ∨ c.isAlpha then
      match Text.splitAtFirst '>' (c :: rest) with
      | (inside, some _) => some (inside, inside.length + 1)
      | (_, none) => none
    else none
  | _ => none

/-- Markup being read: the nodes read so far of the innermost open element, and around it the open
elements, each with its tag and the nodes before it. Nodes stand in reverse. -/
structure Building where
  inner : List Node
  outer : List (Text × List Node)

namespace Building

def start : Building := ⟨[], []⟩

def addNode (b : Building) (node : Node) : Building := { b with inner := node :: b.inner }

def addText (b : Building) (t : Text) : Building :=
  match b.inner with
  | .text before :: rest => { b with inner := .text (before ++ t) :: rest }
  | _ => b.addNode (.text t)

def openElement (b : Building) (tag : Text) : Building := ⟨[], (tag, b.inner) :: b.outer⟩

/-- Closes the open elements from the innermost on until one of them has the tag. -/
def closeUntil (tag : Text) (inner : List Node) : List (Text × List Node) → Building
  | [] => ⟨inner, []⟩
  | (name, before) :: outer =>
    let inner := .element name inner.reverse :: before
    if name = tag then ⟨inner, outer⟩ else closeUntil tag inner outer

def closeElement (b : Building) (tag : Text) : Building :=
  if b.outer.any (·.1 = tag) then closeUntil tag b.inner b.outer else b

def finish (b : Building) : List Node :=
  (b.outer.foldl (fun inner (name, before) => .element name inner.reverse :: before)
    b.inner).reverse

def tagName (inside : Text) : Text :=
  Text.asciiLower ((Text.dropTrailing (· = '/') inside).takeWhile (!Text.isBlankChar ·))

def addTag (b : Building) : Text → Building
  | '/' :: name => b.closeElement (Text.asciiLower (Text.trim name))
  | inside =>
    let name := tagName inside
    if name.isEmpty then b
    else if inside.getLast? = some '/' ∨ Node.voidTags.contains name then
      b.addNode (.element name [])
    else b.openElement name

def addPiece (b : Building) : Piece Text → Building
  | .plain t => b.addText (Entity.decode t)
  | .found _ inside => b.addTag inside

end Building

def parse (t : Text) : List Node :=
  ((Text.cut tagFinder t).foldl Building.addPiece Building.start).finish

end SnippetExpansion.Markup

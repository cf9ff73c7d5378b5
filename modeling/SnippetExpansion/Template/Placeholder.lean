import SnippetExpansion.Text.Cut

/-!
# Placeholders

`[key]` and `[key:argument]`, and the same in braces. What stands between the brackets is not
empty, does not start with a colon and holds no bracket of the same kind; its first colon ends the
key. A bracket without its partner is plain text.
-/
namespace SnippetExpansion

inductive Bracket where
  | square
  | curly
  deriving Repr, DecidableEq

namespace Bracket

def opener : Bracket → Char
  | square => '['
  | curly => '\x7b'

def closer : Bracket → Char
  | square => ']'
  | curly => '\x7d'

def isInner (b : Bracket) (c : Char) : Bool := c != b.opener && c != b.closer

end Bracket

structure Placeholder where
  text : Text
  key : Text
  argument : Option Text
  deriving Repr, DecidableEq

namespace Placeholder

def argumentOrEmpty (p : Placeholder) : Text := p.argument.getD []

def ofInside (b : Bracket) (inside : Text) : Placeholder :=
  let (key, argument) := Text.splitAtFirst ':' inside
  ⟨b.opener :: inside ++ [b.closer], key, argument⟩

def bracketed (b : Bracket) (allowed : Text → Bool) : Finder Text
  | [] => none
  | c :: rest =>
    let inside := rest.takeWhile b.isInner
    if c = b.opener ∧ allowed inside ∧ rest[inside.length]? = some b.closer then
      some (inside, inside.length + 1)
    else none

/-- Not empty and not starting with a colon. -/
def hasKey : Text → Bool
  | [] => false
  | c :: _ => c != ':'

def finder (b : Bracket) : Finder Placeholder := fun t =>
  (bracketed b hasKey t).map fun (inside, size) => (ofInside b inside, size)

def pieces (b : Bracket) (t : Text) : List (Piece Placeholder) := Text.cut (finder b) t

def all (b : Bracket) (t : Text) : List Placeholder := (pieces b t).filterMap Piece.value?

def located (b : Bracket) (t : Text) : List (Nat × Placeholder) :=
  Piece.positions 0 (pieces b t)

/-- Whether a pass over these brackets resolves the placeholder: in braces only with an argument. -/
def resolvedIn : Bracket → Placeholder → Bool
  | .square, _ => true
  | .curly, p => p.argument.isSome

def occursIn (b : Bracket) (t : Text) : Bool := (all b t).any (resolvedIn b)

/-- The first placeholder of a token, those in square brackets first. -/
def first? (token : Text) : Option Placeholder :=
  (all .square token).head?.or (all .curly token).head?

def splitAround (mark : Text) : List (Piece Placeholder) → Option (Text × Placeholder × Text)
  | [] => none
  | .found t p :: rest =>
    if Text.contains mark t then some ([], p, rest.flatMap Piece.text)
    else (splitAround mark rest).map fun (before, found) => (t ++ before, found)
  | .plain t :: rest =>
    (splitAround mark rest).map fun (before, found) => (t ++ before, found)

/-- The placeholder around `mark`, those in square brackets first, and the text on both sides. -/
def enclosing? (mark t : Text) : Option (Text × Placeholder × Text) :=
  (splitAround mark (pieces .square t)).or (splitAround mark (pieces .curly t))

end Placeholder
end SnippetExpansion

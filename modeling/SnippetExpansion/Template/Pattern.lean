import SnippetExpansion.Template.Placeholder

/-!
# Patterns

The forms in which placeholders are looked for, each read from left to right: the opening bracket, a
key of at least one character without a colon, then a colon with an argument or nothing, then the
closing bracket. Every form has a scan of its own.
-/
namespace SnippetExpansion

inductive Pattern where
  | command
  | token
  | bare
  deriving Repr, DecidableEq

namespace Pattern

def takes : Pattern → Option Text → Bool
  | command, argument => argument.isSome
  | token, _ => true
  | bare, argument => argument.isNone

def isKeyChar (b : Bracket) (c : Char) : Bool := b.isInner c && c != ':'

def afterKey (pattern : Pattern) (b : Bracket) (key : Text) : Finder Placeholder
  | [] => none
  | c :: rest =>
    let argument := rest.takeWhile b.isInner
    if c = b.closer ∧ pattern.takes none then
      some (⟨b.opener :: key ++ [b.closer], key, none⟩, key.length + 1)
    else if c = ':' ∧ pattern.takes (some argument) ∧ rest[argument.length]? = some b.closer then
      some (⟨b.opener :: key ++ ':' :: argument ++ [b.closer], key, some argument⟩,
        key.length + argument.length + 2)
    else none

def finder (pattern : Pattern) (b : Bracket) : Finder Placeholder
  | [] => none
  | c :: rest =>
    let key := rest.takeWhile (isKeyChar b)
    if c = b.opener ∧ !key.isEmpty then pattern.afterKey b key (rest.drop key.length) else none

def scan (pattern : Pattern) (b : Bracket) (t : Text) : List (Nat × Placeholder) :=
  Piece.positions 0 (Text.cut (pattern.finder b) t)

def occurs (pattern : Pattern) (b : Bracket) (t : Text) : Bool :=
  Text.recognises (pattern.finder b) t

def resolved : Bracket → Pattern
  | .square => token
  | .curly => command

end Pattern
end SnippetExpansion

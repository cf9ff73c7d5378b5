import SnippetExpansion.Text.Basic

/-!
# Cutting a text at what a finder recognises

A finder looks at the start of a text. `cut` asks it at every place from left to right, takes what
it recognises whole and keeps the rest as plain runs, so pieces never overlap and no character is
lost. Placeholders, date fields, markup tags and replaced words are all found this way.
-/
namespace SnippetExpansion

/-- Recognises something at the start of a text and says how many characters it takes after the
first one. -/
abbrev Finder (α : Type) := Text → Option (α × Nat)

inductive Piece (α : Type) where
  | plain (text : Text)
  | found (text : Text) (value : α)
  deriving Repr, DecidableEq

namespace Piece

def text {α : Type} : Piece α → Text
  | plain t => t
  | found t _ => t

def value? {α : Type} : Piece α → Option α
  | plain _ => none
  | found _ v => some v

def consChar {α : Type} (c : Char) : List (Piece α) → List (Piece α)
  | plain t :: pieces => plain (c :: t) :: pieces
  | pieces => plain [c] :: pieces

def positions {α : Type} (start : Nat) : List (Piece α) → List (Nat × α)
  | [] => []
  | plain t :: pieces => positions (start + Text.byteLength t) pieces
  | found t v :: pieces => (start, v) :: positions (start + Text.byteLength t) pieces

end Piece

namespace Text

/-- `cut` in the middle of something found: its last `skip` characters are still to pass. -/
def cutFrom {α : Type} (find : Finder α) : Nat → Text → List (Piece α)
  | _, [] => []
  | skip + 1, _ :: rest => cutFrom find skip rest
  | 0, c :: rest =>
    match find (c :: rest) with
    | some (value, more) => .found (c :: rest.take more) value :: cutFrom find more rest
    | none => Piece.consChar c (cutFrom find 0 rest)

def cut {α : Type} (find : Finder α) (t : Text) : List (Piece α) := cutFrom find 0 t

def recognises {α : Type} (find : Finder α) : Text → Bool
  | [] => false
  | c :: rest => (find (c :: rest)).isSome || recognises find rest

def word (w : Text) : Finder Unit := fun t =>
  if w.isPrefixOf t then some ((), w.length - 1) else none

def replaceAll (part new : Text) (t : Text) : Text :=
  (cut (word part) t).flatMap fun
    | .plain t => t
    | .found _ _ => new

end Text
end SnippetExpansion

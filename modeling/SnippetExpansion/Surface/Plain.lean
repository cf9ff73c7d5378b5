import SnippetExpansion.Outside

/-!
# Plain text fields

A field of plain text with one caret in it, counted in characters.
-/
namespace SnippetExpansion

inductive SurfaceEvent where
  | keyDown (key : Key)
  | input
  | change
  deriving Repr, DecidableEq

structure PlainField where
  value : Text
  caret : Nat
  readOnly : Bool
  events : List SurfaceEvent
  deriving Repr, DecidableEq

namespace PlainField

def empty : PlainField := ⟨[], 0, false, []⟩

def typed (value : Text) : PlainField := ⟨value, value.length, false, []⟩

def placeCaret (f : PlainField) (offset : Nat) : PlainField :=
  { f with caret := min offset f.value.length }

/-- Replaces the text; without a place for it the caret goes to the end. -/
def write (f : PlainField) (text : Text) (caret : Option Nat) : PlainField :=
  { f with value := text }.placeCaret (caret.getD text.length)

def withCaret (f : PlainField) : Text := f.value.take f.caret ++ '|' :: f.value.drop f.caret

end PlainField
end SnippetExpansion

import SnippetExpansion.Text.Case
import SnippetExpansion.Text.UnseenTable

/-!
# Quoted text

A text between quotes as an error message shows it: on one line, and with every character that could
not be told apart on a screen given by its number.
-/
namespace SnippetExpansion.Text

def quotedChar (c : Char) : Text :=
  if c = '\x00' then ['\\', '0']
  else if c = '\t' then ['\\', 't']
  else if c = '\n' then ['\\', 'n']
  else if c = '\r' then ['\\', 'r']
  else if c = '"' ∨ c = '\\' then ['\\', c]
  else if inRanges unseenRanges c then
    ['\\', 'u', '\x7b'] ++ Nat.toDigits 16 c.toNat ++ ['\x7d']
  else [c]

def quoted (t : Text) : Text := '"' :: t.flatMap quotedChar ++ ['"']

end SnippetExpansion.Text

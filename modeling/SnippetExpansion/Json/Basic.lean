import SnippetExpansion.Json.Double

/-!
# JSON values and their written form

Fields of an object keep their order. The written form puts each item on a line of its own,
indented by two spaces a level, and escapes only quotes, backslashes and control characters.
-/
namespace SnippetExpansion

inductive Number where
  | integer (value : Int)
  /-- A number that is no integer of sixty-four bits, as the bits of a double. -/
  | double (bits : UInt64)
  deriving Repr, DecidableEq

inductive Json where
  | null
  | bool (value : Bool)
  | number (value : Number)
  | string (value : Text)
  | array (items : List Json)
  | object (fields : List (Text × Json))
  deriving Repr, Inhabited

def Number.shown : Number → Text
  | .integer value => Text.ofInt value
  | .double bits => Double.shown bits

namespace Json

def escapeChar (c : Char) : Text :=
  if c = '"' ∨ c = '\\' then ['\\', c]
  else if c = '\n' then ['\\', 'n']
  else if c = '\t' then ['\\', 't']
  else if c = '\r' then ['\\', 'r']
  else if c = '\x08' then ['\\', 'b']
  else if c = '\x0c' then ['\\', 'f']
  else if c.toNat < 0x20 then
    '\\' :: 'u' :: Text.padLeft 4 '0' (Nat.toDigits 16 c.toNat)
  else [c]

def writeString (t : Text) : Text := '"' :: t.flatMap escapeChar ++ ['"']

def newline (indent : Nat) : Text := '\n' :: List.replicate (2 * indent) ' '

mutual

def write (indent : Nat) : Json → Text
  | .null => "null".toList
  | .bool true => "true".toList
  | .bool false => "false".toList
  | .number n => n.shown
  | .string t => writeString t
  | .array [] => ['[', ']']
  | .array (item :: items) =>
    '[' :: newline (indent + 1) ++ write (indent + 1) item ++ writeItems (indent + 1) items
      ++ newline indent ++ [']']
  | .object [] => ['\x7b', '\x7d']
  | .object ((name, value) :: fields) =>
    '\x7b' :: newline (indent + 1) ++ writeString name ++ ':' :: ' ' :: write (indent + 1) value
      ++ writeFields (indent + 1) fields ++ newline indent ++ ['\x7d']

def writeItems (indent : Nat) : List Json → Text
  | [] => []
  | item :: items => ',' :: newline indent ++ write indent item ++ writeItems indent items

def writeFields (indent : Nat) : List (Text × Json) → Text
  | [] => []
  | (name, value) :: fields =>
    ',' :: newline indent ++ writeString name ++ ':' :: ' ' :: write indent value
      ++ writeFields indent fields

end

def pretty (j : Json) : Text := write 0 j

def ofOption (t : Option Text) : Json := t.elim .null .string

end Json
end SnippetExpansion

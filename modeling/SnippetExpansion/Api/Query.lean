import SnippetExpansion.Text.Hex
import SnippetExpansion.Text.Utf8

/-!
# Query strings

Pairs between `&`s, a name and a value around the first `=`. A plus is a space and `%` with two
digits is a byte; bytes that are no text come out as U+FFFD.
-/
namespace SnippetExpansion

def percentByte? (percent high low : UInt8) : Option UInt8 := do
  guard (percent = 0x25)
  let high ← Text.hexDigit? (Char.ofNat high.toNat)
  let low ← Text.hexDigit? (Char.ofNat low.toNat)
  some (UInt8.ofNat (high * 16 + low))

/-- Decodes every `%XX`. A `%` without two digits after it stands for itself. -/
def percentDecode : Utf8.Bytes → Utf8.Bytes
  | a :: b :: c :: rest =>
    match percentByte? a b c with
    | some byte => byte :: percentDecode rest
    | none => a :: percentDecode (b :: c :: rest)
  | bytes => bytes

namespace Query

def decodePart (t : Text) : Text :=
  Utf8.decodeLossy
    (percentDecode (Utf8.encode (t.map fun c => if c = '+' then ' ' else c)))

def decodePair (t : Text) : Text × Text :=
  let (name, value) := Text.splitAtFirst '=' t
  (decodePart name, decodePart (value.getD []))

def parse (t : Text) : List (Text × Text) :=
  ((Text.splitOn '&' t).filter (!·.isEmpty)).map decodePair

def single (pairs : List (Text × Text)) (name : Text) : Except Unit (Option Text) :=
  match pairs.filter (·.1 = name) with
  | [] => .ok none
  | [(_, value)] => .ok (some value)
  | _ => .error ()

end Query

/-- What is asked for: a path, and a query after the first question mark. What follows a hash sign
is not sent. -/
structure Target where
  path : Text
  query : List (Text × Text)
  deriving Repr, DecidableEq

namespace Target

def parse (t : Text) : Target :=
  let (path, query) := Text.splitAtFirst '?' (t.takeWhile (· != '#'))
  ⟨path, Query.parse (query.getD [])⟩

end Target
end SnippetExpansion

import SnippetExpansion.Json.Reading
import SnippetExpansion.Text.Cut
import SnippetExpansion.Text.Hex

/-!
# JSON tokens

A token is a bracket, a separator or a scalar. What is neither a token nor white space is junk, and
reading goes no further than that.
-/
namespace SnippetExpansion.Json

inductive Token where
  | openArray
  | closeArray
  | openObject
  | closeObject
  | comma
  | colon
  | scalar (value : Reading)
  | junk

def hexQuad? (a b c d : Char) : Option Nat := do
  let a ← Text.hexDigit? a
  let b ← Text.hexDigit? b
  let c ← Text.hexDigit? c
  let d ← Text.hexDigit? d
  some (((a * 16 + b) * 16 + c) * 16 + d)

def unescape? (c : Char) : Option Char :=
  if c = '"' ∨ c = '\\' ∨ c = '/' then some c
  else if c = 'b' then some '\x08'
  else if c = 'f' then some '\x0c'
  else if c = 'n' then some '\n'
  else if c = 'r' then some '\r'
  else if c = 't' then some '\t'
  else none

/-- What a string is written from: characters, and numbers of UTF-16 units. -/
inductive StringPart where
  | char (c : Char)
  | unit (n : Nat)

def stringParts? : Text → Option (List StringPart × Nat)
  | '"' :: _ => some ([], 1)
  | '\\' :: 'u' :: a :: b :: c :: d :: rest => do
    let n ← hexQuad? a b c d
    let (parts, size) ← stringParts? rest
    some (.unit n :: parts, size + 6)
  | '\\' :: e :: rest => do
    let c ← unescape? e
    let (parts, size) ← stringParts? rest
    some (.char c :: parts, size + 2)
  | c :: rest =>
    if c.toNat < 0x20 then none
    else do
      let (parts, size) ← stringParts? rest
      some (.char c :: parts, size + 1)
  | [] => none

def isHighSurrogate (n : Nat) : Bool := 0xD800 ≤ n && n < 0xDC00
def isLowSurrogate (n : Nat) : Bool := 0xDC00 ≤ n && n < 0xE000

/-- Joins surrogate pairs; there is no text when half of one stands alone. -/
def joinParts? : List StringPart → Option Text
  | [] => some []
  | .char c :: rest => (c :: ·) <$> joinParts? rest
  | .unit n :: .unit m :: rest =>
    if isHighSurrogate n && isLowSurrogate m then
      (Char.ofNat (0x10000 + (n - 0xD800) * 0x400 + (m - 0xDC00)) :: ·) <$> joinParts? rest
    else if isHighSurrogate n || isLowSurrogate n then none
    else (Char.ofNat n :: ·) <$> joinParts? (.unit m :: rest)
  | .unit n :: rest =>
    if isHighSurrogate n || isLowSurrogate n then none
    else (Char.ofNat n :: ·) <$> joinParts? rest

def integer? (negative : Bool) (digits : Text) : Option Int :=
  let n := Text.digitsValue digits
  if negative then if 0 < n ∧ n ≤ Nat.pow 2 63 then some (-(n : Int)) else none
  else if n < Nat.pow 2 64 then some n else none

def readNumber (negative : Bool) (before : Text) (after : Option Text) (exponent : Option Int) :
    Reading :=
  let double := match Double.ofDecimal negative before (after.getD []) (exponent.getD 0) with
    | some bits => .number (.double bits)
    | none => .beyond
  if after.isSome || exponent.isSome then double
  else match integer? negative before with
    | some n => .number (.integer n)
    | none => double

def places? : Text → Option (Option Text)
  | '.' :: rest =>
    let digits := rest.takeWhile Char.isDigit
    if digits = [] then none else some (some digits)
  | _ => some none

def digitsOf? (t : Text) : Option Text :=
  let digits := t.takeWhile Char.isDigit
  if digits = [] then none else some digits

def exponent? : Text → Option (Option Int × Nat)
  | e :: rest =>
    if e = 'e' ∨ e = 'E' then
      match rest with
      | '-' :: rest =>
        (digitsOf? rest).map fun ds => (some (-(Text.digitsValue ds : Int)), ds.length + 2)
      | '+' :: rest => (digitsOf? rest).map fun ds => (some (Text.digitsValue ds), ds.length + 2)
      | _ => (digitsOf? rest).map fun ds => (some (Text.digitsValue ds), ds.length + 1)
    else some (none, 0)
  | [] => some (none, 0)

def number? (negative : Bool) (t : Text) : Option (Reading × Nat) := do
  let before ← digitsOf? t
  if before.length > 1 ∧ before.head? = some '0' then none
  let afterWhole := t.drop before.length
  let after ← places? afterWhole
  let pointSize := after.elim 0 (·.length + 1)
  let (exponent, exponentSize) ← exponent? (afterWhole.drop pointSize)
  some (readNumber negative before after exponent, before.length + pointSize + exponentSize)

def literal? (name : Text) (value : Reading) (t : Text) : Option (Token × Nat) :=
  if name.isPrefixOf t then some (.scalar value, name.length - 1) else none

def token : Finder Token
  | [] => none
  | c :: rest =>
    if c = '[' then some (.openArray, 0)
    else if c = ']' then some (.closeArray, 0)
    else if c = '\x7b' then some (.openObject, 0)
    else if c = '\x7d' then some (.closeObject, 0)
    else if c = ',' then some (.comma, 0)
    else if c = ':' then some (.colon, 0)
    else if c = '"' then
      (stringParts? rest).map fun (parts, size) =>
        (.scalar ((joinParts? parts).elim .unpaired .string), size)
    else if c = '-' then (number? true rest).map fun (r, size) => (.scalar r, size)
    else if c.isDigit then
      (number? false (c :: rest)).map fun (r, size) => (.scalar r, size - 1)
    else if c = 'n' then literal? "null".toList .null (c :: rest)
    else if c = 't' then literal? "true".toList (.bool true) (c :: rest)
    else if c = 'f' then literal? "false".toList (.bool false) (c :: rest)
    else none

def isSpace (c : Char) : Bool := c = ' ' || c = '\n' || c = '\t' || c = '\r'

def Token.ofPiece? : Piece Token → Option Token
  | .plain t => if t.all isSpace then none else some .junk
  | .found _ token => some token

def tokens (t : Text) : List Token := (Text.cut token t).filterMap Token.ofPiece?

end SnippetExpansion.Json

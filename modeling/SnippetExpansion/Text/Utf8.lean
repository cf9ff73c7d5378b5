import SnippetExpansion.Text.Basic

/-!
# UTF-8

Decoding bytes, with the place and the extent of what is no character, and the two ways the program
goes on after that: giving up, or taking U+FFFD for each faulty run.
-/
namespace SnippetExpansion.Utf8

abbrev Bytes := List UInt8

/-- One step of decoding. A faulty run is the longest start of a character that no byte completes.
-/
inductive Step where
  | character (c : Char) (size : Nat)
  | faulty (size : Nat)
  | truncated
  deriving Repr, DecidableEq

def isContinuation (b : UInt8) : Bool := b.toNat / 64 = 2

def secondRange (first : UInt8) : Nat × Nat :=
  if first = 0xE0 then (0xA0, 0xBF)
  else if first = 0xED then (0x80, 0x9F)
  else if first = 0xF0 then (0x90, 0xBF)
  else if first = 0xF4 then (0x80, 0x8F)
  else (0x80, 0xBF)

def sizeOfFirst (first : UInt8) : Nat :=
  let n := first.toNat
  if n < 0x80 then 1 else if n < 0xC2 then 0 else if n < 0xE0 then 2 else if n < 0xF0 then 3
  else if n < 0xF5 then 4 else 0

def scalar (first : UInt8) (size : Nat) (more : Bytes) : Char :=
  let lead := if size = 2 then first.toNat % 32 else if size = 3 then first.toNat % 16
    else first.toNat % 8
  Char.ofNat (more.foldl (fun n b => n * 64 + b.toNat % 64) lead)

def step (first : UInt8) (rest : Bytes) : Step :=
  match sizeOfFirst first with
  | 0 => .faulty 1
  | 1 => .character (Char.ofNat first.toNat) 1
  | size =>
    match rest with
    | [] => .truncated
    | second :: later =>
      let (low, high) := secondRange first
      if second.toNat < low ∨ high < second.toNat then .faulty 1
      else
        let good := (later.take (size - 2)).takeWhile isContinuation
        if good.length = size - 2 then .character (scalar first size (second :: good)) size
        else if good.length = later.length then .truncated
        else .faulty (2 + good.length)

inductive Fault where
  | invalid (size index : Nat)
  | incomplete (index : Nat)
  deriving Repr, DecidableEq

def Fault.message : Fault → Text
  | .invalid size index =>
    "invalid utf-8 sequence of ".toList ++ Text.ofNat size ++ " bytes from index ".toList
      ++ Text.ofNat index
  | .incomplete index =>
    "incomplete utf-8 byte sequence from index ".toList ++ Text.ofNat index

def decodeFrom (index : Nat) : Nat → Bytes → Except Fault Text
  | _, [] => .ok []
  | skip + 1, _ :: rest => decodeFrom (index + 1) skip rest
  | 0, b :: rest =>
    match step b rest with
    | .character c size => (c :: ·) <$> decodeFrom (index + 1) (size - 1) rest
    | .faulty size => .error (.invalid size index)
    | .truncated => .error (.incomplete index)

def decode (bytes : Bytes) : Except Fault Text := decodeFrom 0 0 bytes

/-- Decodes with `onFault` for each faulty run; `escaped` says whether an odd number of backslashes
stands just before. -/
def mendFrom (onFault : Bool → Text) (escaped : Bool) : Nat → Bytes → Text
  | _, [] => []
  | skip + 1, _ :: rest => mendFrom onFault escaped skip rest
  | 0, b :: rest =>
    match step b rest with
    | .character c size => c :: mendFrom onFault (c == '\\' && !escaped) (size - 1) rest
    | .faulty size => onFault escaped ++ mendFrom onFault false (size - 1) rest
    | .truncated => onFault escaped

def decodeLossy (bytes : Bytes) : Text := mendFrom (fun _ => ['\uFFFD']) false 0 bytes

/-- Decodes a JSON text. A faulty run inside a string is an escape that names no character, which
fails wherever the string is read and passes where it is skipped. -/
def decodeJson (bytes : Bytes) : Text :=
  mendFrom (fun escaped => if escaped then ['\x00'] else "\\ud800".toList) false 0 bytes

def encode (t : Text) : Bytes := t.flatMap String.utf8EncodeChar

end SnippetExpansion.Utf8

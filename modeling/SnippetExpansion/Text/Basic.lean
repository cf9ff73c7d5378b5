/-!
# Text

Text is a list of characters. Offsets and lengths count characters unless a name says bytes.
-/
namespace SnippetExpansion

abbrev Text := List Char

namespace Text

def byteLength : Text → Nat
  | [] => 0
  | c :: rest => c.utf8Size + byteLength rest

def totalLength : List Text → Nat
  | [] => 0
  | t :: rest => t.length + totalLength rest

def contains (part : Text) : Text → Bool
  | [] => part.isEmpty
  | c :: rest => part.isPrefixOf (c :: rest) || contains part rest

/-- Puts `new` in the place of the first `part`; a text without `part` is left alone. -/
def replaceFirst (part new : Text) : Text → Text
  | [] => []
  | c :: rest =>
    if part.isPrefixOf (c :: rest) then new ++ (c :: rest).drop part.length
    else c :: replaceFirst part new rest

def splitAtFirst (c : Char) : Text → Text × Option Text
  | [] => ([], none)
  | d :: rest =>
    if d = c then ([], some rest)
    else ((d :: (splitAtFirst c rest).1), (splitAtFirst c rest).2)

/-- The parts between the `c`s; a text without `c` is its only part. -/
def splitOn (c : Char) : Text → List Text
  | [] => [[]]
  | d :: rest =>
    if d = c then [] :: splitOn c rest
    else match splitOn c rest with
      | part :: parts => (d :: part) :: parts
      | [] => [[d]]

def dropTrailing (inClass : Char → Bool) (t : Text) : Text :=
  (t.reverse.dropWhile inClass).reverse

def ofNat (n : Nat) : Text := Nat.toDigits 10 n

def ofInt : Int → Text
  | .ofNat n => ofNat n
  | .negSucc n => '-' :: ofNat (n + 1)

def digitsValue (digits : Text) : Nat :=
  digits.foldl (fun n d => 10 * n + (d.toNat - '0'.toNat)) 0

def padLeft (width : Nat) (fill : Char) (t : Text) : Text :=
  List.replicate (width - t.length) fill ++ t

def padRight (width : Nat) (t : Text) : Text :=
  t ++ List.replicate (width - t.length) ' '

def asciiLower (t : Text) : Text := t.map Char.toLower

end Text
end SnippetExpansion

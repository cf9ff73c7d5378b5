import SnippetExpansion.Text.Basic

/-!
# Numbers beyond the integers

Reading a decimal as a double, and the shortest decimal that names a double. The reader takes as
many digits as sixty-four bits hold and multiplies or divides once by a power of ten, so its last
bit is not always the nearest one. The writer works in exact arithmetic.
-/
namespace SnippetExpansion.Double

/-- Adds digits as long as the number stays below 2^64; gives the number and how many were added. -/
def addDigits (n : Nat) : Text → Nat × Nat
  | [] => (n, 0)
  | d :: rest =>
    let next := 10 * n + (d.toNat - '0'.toNat)
    if next < Nat.pow 2 64 then
      let (m, added) := addDigits next rest
      (m, added + 1)
    else (n, 0)

def powerOfTen (k : Nat) : Float := Float.ofScientific 1 false k

def shrink (f : Float) (k : Nat) : Float :=
  if k ≤ 308 then f / powerOfTen k
  else if f == 0 then f
  else shrink (f / powerOfTen 308) (k - 308)
termination_by k

def scale (significand : Nat) (exponent : Int) : Option Float :=
  let f := Float.ofNat significand
  match exponent with
  | .negSucc k => some (shrink f (k + 1))
  | .ofNat k =>
    if k ≤ 308 then
      let g := f * powerOfTen k
      if g.isInf then none else some g
    else if significand = 0 then some f else none

def ofDecimal (negative : Bool) (before after : Text) (exponent : Int) : Option UInt64 :=
  let (whole, taken) := addDigits 0 before
  let (significand, places) := addDigits whole after
  let e : Int := (before.length - taken : Nat) - places + exponent
  (scale significand e).map fun f => (if negative then -f else f).toBits

/-- A positive double is `mantissa · 2 ^ exponent`; `edge` marks the least mantissa of a binade,
below which doubles lie twice as close. -/
structure Binary where
  mantissa : Nat
  exponent : Int
  edge : Bool

def Binary.ofBits (bits : UInt64) : Binary :=
  let fraction : Nat := bits.toNat % Nat.pow 2 52
  let e : Nat := bits.toNat / Nat.pow 2 52 % Nat.pow 2 11
  if e = 0 then ⟨fraction, -1074, false⟩
  else ⟨Nat.pow 2 52 + fraction, (e : Int) - 1075, fraction = 0 && e > 1⟩

def compareScaled (a : Nat) (s : Int) (b : Nat) (t : Int) : Ordering :=
  compare (a * Nat.pow 10 s.toNat * Nat.pow 2 (-t).toNat)
    (b * Nat.pow 2 t.toNat * Nat.pow 10 (-s).toNat)

/-- Whether the decimal rounds to the double: it lies between the midpoints to its neighbours, or on
one when the mantissa is even. -/
def Binary.admits (x : Binary) (digits : Nat) (s : Int) : Bool :=
  let low := compareScaled digits s (4 * x.mantissa - (if x.edge then 1 else 2)) (x.exponent - 2)
  let high := compareScaled digits s (4 * x.mantissa + 2) (x.exponent - 2)
  if x.mantissa % 2 = 0 then low != .lt && high != .gt else low == .gt && high == .lt

def Binary.floorAt (x : Binary) (s : Int) : Nat :=
  (x.mantissa * Nat.pow 2 x.exponent.toNat * Nat.pow 10 (-s).toNat)
    / (Nat.pow 10 s.toNat * Nat.pow 2 (-x.exponent).toNat)

def Binary.magnitude (x : Binary) : Int :=
  match (List.range 633).find? fun (k : Nat) =>
      compareScaled 1 (308 - (k : Int)) x.mantissa x.exponent != .gt with
  | some k => 308 - (k : Int)
  | none => -324

/-- The multiple of `10 ^ s` nearest to the double among those that round to it, if there is one; of
two equally near the even one. -/
def Binary.nearestAt (x : Binary) (s : Int) : Option Nat :=
  let below := x.floorAt s
  let above := below + 1
  match x.admits below s, x.admits above s with
  | true, true =>
    match compareScaled (2 * below + 1) s (2 * x.mantissa) x.exponent with
    | .gt => some below
    | .lt => some above
    | .eq => some (if below % 2 = 0 then below else above)
  | true, false => some below
  | false, true => some above
  | false, false => none

def Binary.shortest (x : Binary) : Text × Int :=
  let m := x.magnitude
  let hit := (List.range 17).findSome? fun (k : Nat) =>
    (x.nearestAt (m - (k : Int))).map fun digits => (digits, m - (k : Int))
  let (digits, s) := hit.getD (0, 0)
  let shown := Text.ofNat digits
  (Text.dropTrailing (· == '0') shown, s + (shown.length - 1 : Nat))

/-- Positional from `1e-5` up to below `1e16`, with at least one place; else one digit before the
point and an exponent with sign and two digits or more. -/
def layOut (digits : Text) (exponent : Int) : Text :=
  match exponent with
  | .ofNat e =>
    if e < 16 then
      let whole := digits.take (e + 1) ++ List.replicate (e + 1 - digits.length) '0'
      let places := digits.drop (e + 1)
      whole ++ '.' :: (if places = [] then ['0'] else places)
    else scientific digits '+' e
  | .negSucc e =>
    if e < 5 then '0' :: '.' :: List.replicate e '0' ++ digits
    else scientific digits '-' (e + 1)
where
  scientific (digits : Text) (sign : Char) (e : Nat) : Text :=
    digits.take 1 ++ (if digits.length > 1 then '.' :: digits.drop 1 else [])
      ++ 'e' :: sign :: Text.padLeft 2 '0' (Text.ofNat e)

def shown (bits : UInt64) : Text :=
  let sign : Text := if bits.toNat ≥ Nat.pow 2 63 then ['-'] else []
  let x := Binary.ofBits bits
  sign ++ if x.mantissa = 0 then "0.0".toList else layOut x.shortest.1 x.shortest.2

end SnippetExpansion.Double

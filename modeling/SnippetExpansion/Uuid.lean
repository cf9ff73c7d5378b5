import SnippetExpansion.Ids

/-!
# Random identifiers

The written form of a number of 128 bits whose version and variant say that the rest is random.
-/
namespace SnippetExpansion

namespace Uuid

def digits (n : Nat) : Text := Text.padLeft 32 '0' (Nat.toDigits 16 (n % Nat.pow 2 128))

def variantDigit (n : Nat) : Text := Nat.toDigits 16 (8 + n / Nat.pow 2 60 % 4)

/-- Five groups of digits. The third one begins with the version, the fourth with the variant. -/
def ofNat (n : Nat) : Text :=
  let d := digits n
  let group (first size : Nat) : Text := (d.drop first).take size
  group 0 8 ++ '-' :: group 8 4 ++ '-' :: '4' :: group 13 3 ++ '-' :: variantDigit n ++ group 17 3
    ++ '-' :: group 20 12

end Uuid

def IdSource.random (seed : Nat) : IdSource := .guessing fun n => Uuid.ofNat (seed + n)

end SnippetExpansion

import SnippetExpansion.Outside
import SnippetExpansion.Text.Cut

/-!
# Dates and times

A date format is text in which `DD`, `MM`, `YYYY`, `HH`, `mm` and `ss` stand for fields of the
moment. All other characters stand for themselves, and what a field gives is not read again.
-/
namespace SnippetExpansion

inductive DateField where
  | day
  | month
  | year
  | hour
  | minute
  | second
  deriving Repr, DecidableEq

namespace DateField

def all : List DateField := [day, month, year, hour, minute, second]

def letters : DateField → Text
  | day => "DD".toList
  | month => "MM".toList
  | year => "YYYY".toList
  | hour => "HH".toList
  | minute => "mm".toList
  | second => "ss".toList

def finder : Finder DateField := fun t =>
  (all.find? fun field => field.letters.isPrefixOf t).map fun field =>
    (field, field.letters.length - 1)

end DateField

def twoDigits (n : Nat) : Text := Text.padLeft 2 '0' (Text.ofNat n)

/-- A year fills four places, the sign being one of them. -/
def yearDigits : Int → Text
  | .ofNat n => Text.padLeft 4 '0' (Text.ofNat n)
  | .negSucc n => '-' :: Text.padLeft 3 '0' (Text.ofNat (n + 1))

namespace Instant

def shown (i : Instant) : DateField → Text
  | .day => twoDigits i.day
  | .month => twoDigits i.month
  | .year => yearDigits i.year
  | .hour => twoDigits i.hour
  | .minute => twoDigits i.minute
  | .second => twoDigits i.second

def formatDate (i : Instant) (format : Text) : Text :=
  (Text.cut DateField.finder format).flatMap fun
    | .plain t => t
    | .found _ field => i.shown field

def formatTime (i : Instant) : Text :=
  twoDigits i.hour ++ ':' :: twoDigits i.minute
    ++ ':' :: twoDigits (i.second + i.nanosecond / 1000000000)

end Instant
end SnippetExpansion

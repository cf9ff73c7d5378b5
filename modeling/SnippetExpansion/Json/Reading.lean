import SnippetExpansion.Json.Basic

/-!
# What can be read of a JSON text

A text that goes wrong somewhere still shows a good deal before that place, and a reader that
looks for a certain shape meets a wrong shape first when it comes first. So reading gives a tree
that says where the text breaks off. Two faults are no fault where a value is passed over: a
number beyond the doubles and a string with an escape that names no character.
-/
namespace SnippetExpansion

inductive Reading where
  | null
  | bool (value : Bool)
  | number (value : Number)
  | beyond
  | string (value : Text)
  /-- A string with half of a surrogate pair. -/
  | unpaired
  | array (items : List Reading) (closed : Bool)
  /-- A name is missing where it holds half of a surrogate pair. -/
  | object (fields : List (Option Text × Reading)) (closed : Bool)
  | broken
  deriving Inhabited

namespace Reading

mutual

def intact : Reading → Bool
  | .array items closed => allIntact items && closed
  | .object fields closed => fieldsIntact fields && closed
  | .broken => false
  | _ => true

def allIntact : List Reading → Bool
  | [] => true
  | r :: rest => intact r && allIntact rest

def fieldsIntact : List (Option Text × Reading) → Bool
  | [] => true
  | (_, r) :: rest => intact r && fieldsIntact rest

end

mutual

/-- The value, if it is without fault and at most `levels` arrays and objects deep. -/
def whole? : Nat → Reading → Option Json
  | _, .null => some .null
  | _, .bool value => some (.bool value)
  | _, .number value => some (.number value)
  | _, .string value => some (.string value)
  | levels + 1, .array items true => .array <$> wholeItems? levels items
  | levels + 1, .object fields true => .object <$> wholeFields? levels fields
  | _, _ => none

def wholeItems? : Nat → List Reading → Option (List Json)
  | _, [] => some []
  | levels, r :: rest => do
    let item ← whole? levels r
    let items ← wholeItems? levels rest
    some (item :: items)

def wholeFields? : Nat → List (Option Text × Reading) → Option (List (Text × Json))
  | _, [] => some []
  | levels, (name, r) :: rest => do
    let name ← name
    let value ← whole? levels r
    let fields ← wholeFields? levels rest
    some ((name, value) :: fields)

end

mutual

def ofJson : Json → Reading
  | .null => .null
  | .bool value => .bool value
  | .number value => .number value
  | .string value => .string value
  | .array items => .array (ofItems items) true
  | .object fields => .object (ofFields fields) true

def ofItems : List Json → List Reading
  | [] => []
  | item :: items => ofJson item :: ofItems items

def ofFields : List (Text × Json) → List (Option Text × Reading)
  | [] => []
  | (name, value) :: fields => (some name, ofJson value) :: ofFields fields

end

end Reading

/-- What was read of a text: its value, and whether anything but white space follows. -/
structure Document where
  root : Reading
  trailing : Bool

end SnippetExpansion

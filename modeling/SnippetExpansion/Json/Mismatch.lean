import SnippetExpansion.Json.Parser
import SnippetExpansion.Text.Quoted
import SnippetExpansion.Dictionary

/-!
# Fitting a reading to a shape

What is expected of a JSON text, field by field, and what is reported when it is something else. The
first place in the text that does not fit decides, whether it is a wrong value or no JSON at all; a
missing field is only reported when the rest fits.
-/
namespace SnippetExpansion

inductive Mismatch where
  | notJson
  | missingField (name : Text)
  | duplicateField (name : Text)
  | wrongType (found expected : Text)
  | wrongValue (found expected : Text)
  | wrongLength (length : Nat) (expected : Text)
  | unknownVariant (name : Text) (allowed : List Text)
  deriving Repr, DecidableEq

namespace Mismatch

def named (name : Text) : Text := '\x60' :: name ++ ['\x60']

def listed : List Text → Text
  | [] => []
  | [name] => named name
  | name :: names => named name ++ ", ".toList ++ listed names

def message : Mismatch → Text
  | notJson => "<json syntax error>".toList
  | missingField name => "missing field ".toList ++ named name
  | duplicateField name => "duplicate field ".toList ++ named name
  | wrongType found expected =>
    "invalid type: ".toList ++ found ++ ", expected ".toList ++ expected
  | wrongValue found expected =>
    "invalid value: ".toList ++ found ++ ", expected ".toList ++ expected
  | wrongLength length expected =>
    "invalid length ".toList ++ Text.ofNat length ++ ", expected ".toList ++ expected
  | unknownVariant name allowed =>
    "unknown variant ".toList ++ named name ++ ", expected one of ".toList ++ listed allowed

end Mismatch

namespace Reading

def described? : Reading → Option Text
  | .null => some "null".toList
  | .bool value => some ("boolean ".toList ++ Mismatch.named (toString value).toList)
  | .number (.integer value) => some ("integer ".toList ++ Mismatch.named (Text.ofInt value))
  | .number (.double bits) => some ("floating point ".toList ++ Mismatch.named (Double.shown bits))
  | .string value => some ("string ".toList ++ Text.quoted value)
  | .array _ _ => some "sequence".toList
  | .object _ _ => some "map".toList
  | .beyond | .unpaired | .broken => none

def unfit (r : Reading) (expected : String) : Mismatch :=
  match r.described? with
  | some found => .wrongType found expected.toList
  | none => .notJson

def text : Reading → Except Mismatch Text
  | .string value => .ok value
  | r => .error (r.unfit "a string")

def optionalText : Reading → Except Mismatch (Option Text)
  | .null => .ok none
  | r => some <$> r.text

def listOf {α : Type} (item : Reading → Except Mismatch α) : Reading → Except Mismatch (List α)
  | .array items closed => do
    let values ← items.mapM item
    if closed then .ok values else .error .notJson
  | r => .error (r.unfit "a sequence")

def entries : List (Option Text × Reading) → Except Mismatch (List (Text × Text))
  | [] => .ok []
  | (none, _) :: _ => .error .notJson
  | (some name, r) :: rest => do
    let value ← r.text
    let more ← entries rest
    .ok ((name, value) :: more)

def dictionary : Reading → Except Mismatch (Dictionary Text)
  | .object fields closed => do
    let found ← entries fields
    if closed then .ok (Dictionary.ofList found) else .error .notJson
  | r => .error (r.unfit "a map")

def skip (r : Reading) : Except Mismatch Unit :=
  if r.intact then .ok () else .error .notJson

end Reading

inductive Need where
  | required
  | defaulted
  | optional
  deriving Repr, DecidableEq

structure Field where
  name : Text
  need : Need

namespace Field

def required (name : String) : Field := ⟨name.toList, .required⟩
def defaulted (name : String) : Field := ⟨name.toList, .defaulted⟩
def optional (name : String) : Field := ⟨name.toList, .optional⟩

end Field

structure Record where
  title : Text
  fields : List Field

namespace Record

/-- Where the value comes from: straight from a text, or from a value read before. A value has its
names in rising order and each once; a list that is too long is only counted in a value. -/
inductive Source where
  | text
  | value
  deriving DecidableEq

def read (need : Need) (r : Reading) : Except Mismatch (Option Text) :=
  if need = .optional then r.optionalText else some <$> r.text

def collect (fields : List Field) (found : List (Text × Option Text)) :
    List (Option Text × Reading) → Except Mismatch (List (Text × Option Text))
  | [] => .ok found
  | (none, _) :: _ => .error .notJson
  | (some name, r) :: rest =>
    match fields.find? (·.name = name) with
    | none => do
      r.skip
      collect fields found rest
    | some field =>
      if (found.lookup name).isSome then .error (.duplicateField name)
      else do
        let value ← read field.need r
        collect fields (found ++ [(name, value)]) rest

def arrange (found : List (Text × Option Text)) :
    List Field → Except Mismatch (List (Option Text))
  | [] => .ok []
  | field :: rest => do
    let value ← match found.lookup field.name, field.need with
      | some value, _ => .ok value
      | none, .required => .error (.missingField field.name)
      | none, .defaulted => .ok (some [])
      | none, .optional => .ok none
    let more ← arrange found rest
    .ok (value :: more)

def sized (record : Record) : Text :=
  "struct ".toList ++ record.title ++ " with ".toList ++ Text.ofNat record.fields.length
    ++ (if record.fields.length = 1 then " element" else " elements").toList

def readInOrder (record : Record) (source : Source) (total : Nat) (closed : Bool) (count : Nat) :
    List Field → List Reading → Except Mismatch (List (Option Text))
  | [], [] => if closed then .ok [] else .error .notJson
  | [], _ :: _ =>
    if source = .value then .error (.wrongLength total "fewer elements in array".toList)
    else .error .notJson
  | field :: fields, [] =>
    if !closed then .error .notJson
    else match field.need with
      | .required => .error (.wrongLength count record.sized)
      | .defaulted => do
        let more ← readInOrder record source total closed (count + 1) fields []
        .ok (some [] :: more)
      | .optional => do
        let more ← readInOrder record source total closed (count + 1) fields []
        .ok (none :: more)
  | field :: fields, r :: rest => do
    let value ← read field.need r
    let more ← readInOrder record source total closed (count + 1) fields rest
    .ok (value :: more)

def decode (record : Record) (source : Source) : Reading → Except Mismatch (List (Option Text))
  | .object fields closed => do
    let found ← collect record.fields [] fields
    if closed then arrange found record.fields else .error .notJson
  | .array items closed =>
    readInOrder record source items.length closed 0 record.fields items
  | r => .error (match r.described? with
    | some found => .wrongType found ("struct ".toList ++ record.title)
    | none => .notJson)

/-- Decodes a value: of fields with one name the last counts, and they are read in order of names.
-/
def decodeValue (record : Record) : Json → Except Mismatch (List (Option Text))
  | .object fields =>
    record.decode .value (Reading.ofJson (.object (Dictionary.ofList fields).entries))
  | j => record.decode .value (Reading.ofJson j)

end Record

namespace Document

def decode {α : Type} (document : Document) (shape : Reading → Except Mismatch α) :
    Except Mismatch α := do
  let value ← shape document.root
  if document.trailing then .error .notJson else .ok value

end Document
end SnippetExpansion

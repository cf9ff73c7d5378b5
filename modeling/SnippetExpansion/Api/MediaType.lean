import SnippetExpansion.Text.Basic

/-!
# Media types

What a content-type header says: a type, a subtype with perhaps a suffix after a plus, and
parameters. Letter case does not count. A header that does not have this form says nothing.
-/
namespace SnippetExpansion

structure MediaType where
  type : Text
  subtype : Text
  deriving Repr, DecidableEq

namespace MediaType

def isTokenChar (c : Char) : Bool :=
  c.isAlphanum || "!#$%&'*+-.^_\x60|~".toList.contains c

def isQuotedChar (c : Char) : Bool := 0x20 ≤ c.toNat && c.toNat < 0x7F

def withoutSuffix (t : Text) : Text :=
  match t.reverse.span (· != '+') with
  | (_, '+' :: c :: rest) => (c :: rest).reverse
  | _ => t

/-- What has been read of the parameters. -/
inductive ParameterState where
  | start
  | name
  | equals
  | value
  | quoted (empty : Bool)
  | afterQuoted
  deriving DecidableEq

def ParameterState.step? (s : ParameterState) (c : Char) : Option ParameterState :=
  match s with
  | start => if c = ' ' then some start else if isTokenChar c then some name else none
  | name => if c = '=' then some equals else if isTokenChar c then some name else none
  | equals =>
    if c = '"' then some (quoted true) else if isTokenChar c then some value else none
  | value => if c = ';' then some start else if isTokenChar c then some value else none
  | quoted empty =>
    if c = '"' ∧ !empty then some afterQuoted
    else if isQuotedChar c then some (quoted false) else none
  | afterQuoted =>
    if c = ';' then some start else if c = ' ' then some afterQuoted else none

def ParameterState.isEnd : ParameterState → Bool
  | start | equals | value | afterQuoted => true
  | name | quoted _ => false

def validParameters (t : Text) : Bool :=
  (t.foldlM ParameterState.step? .start).any ParameterState.isEnd

def parse? (t : Text) : Option MediaType :=
  let t := Text.asciiLower t
  match Text.splitAtFirst '/' t with
  | (type, some rest) =>
    let (subtype, parameters) := Text.splitAtFirst ';' rest
    if type.isEmpty || !type.all isTokenChar || !subtype.all isTokenChar then none
    else
      match parameters with
      | none => some ⟨type, withoutSuffix subtype⟩
      | some parameters =>
        if subtype.isEmpty || !validParameters parameters then none
        else some ⟨type, withoutSuffix subtype⟩
  | (_, none) => none

def json : MediaType := ⟨"application".toList, "json".toList⟩

end MediaType
end SnippetExpansion

import SnippetExpansion.Json.Token

/-!
# Reading JSON

A machine goes over the tokens with the open arrays and objects on a stack. Where a token does not
fit, everything open is given back as far as it got.
-/
namespace SnippetExpansion.Json

/-- An open array or object; what it holds so far stands in reverse. -/
inductive Frame where
  | items (before : List Reading)
  | member (before : List (Option Text × Reading)) (name : Option Text)

inductive State where
  | value (stack : List Frame)
  | firstItem (stack : List Frame)
  | field (stack : List Frame) (before : List (Option Text × Reading)) (first : Bool)
  | colon (stack : List Frame) (before : List (Option Text × Reading)) (name : Option Text)
  | after (stack : List Frame) (value : Reading)
  | failed (root : Reading)
  | overfull (root : Reading)

/-- What the open arrays and objects come to when reading stops inside them. -/
def breakOff : List Frame → Reading → Reading
  | [], r => r
  | .items before :: stack, r => breakOff stack (.array (before.reverse ++ [r]) false)
  | .member before name :: stack, r =>
    breakOff stack (.object (before.reverse ++ [(name, r)]) false)

def State.finish : State → Document
  | .value stack => ⟨breakOff stack .broken, false⟩
  | .firstItem stack => ⟨breakOff stack .broken, false⟩
  | .field stack before _ => ⟨breakOff stack (.object before.reverse false), false⟩
  | .colon stack before name =>
    ⟨breakOff stack (.object (before.reverse ++ [(name, .broken)]) false), false⟩
  | .after [] v => ⟨v, false⟩
  | .after (.items before :: stack) v =>
    ⟨breakOff stack (.array (before.reverse ++ [v]) false), false⟩
  | .after (.member before name :: stack) v =>
    ⟨breakOff stack (.object (before.reverse ++ [(name, v)]) false), false⟩
  | .failed root => ⟨root, false⟩
  | .overfull root => ⟨root, true⟩

def State.fail (s : State) : State := .failed s.finish.root

def stepValue (s : State) (stack : List Frame) : Token → State
  | .scalar value => .after stack value
  | .openArray => .firstItem (.items [] :: stack)
  | .openObject => .field stack [] true
  | _ => s.fail

def step (s : State) (token : Token) : State :=
  match s with
  | .value stack => stepValue s stack token
  | .firstItem stack =>
    match token, stack with
    | .closeArray, _ :: outer => .after outer (.array [] true)
    | _, _ => stepValue s stack token
  | .field stack before first =>
    match token, first with
    | .scalar (.string name), _ => .colon stack before (some name)
    | .scalar .unpaired, _ => .colon stack before none
    | .closeObject, true => .after stack (.object [] true)
    | _, _ => s.fail
  | .colon stack before name =>
    match token with
    | .colon => .value (.member before name :: stack)
    | _ => s.fail
  | .after [] value => .overfull value
  | .after (.items before :: stack) value =>
    match token with
    | .comma => .value (.items (value :: before) :: stack)
    | .closeArray => .after stack (.array (value :: before).reverse true)
    | _ => s.fail
  | .after (.member before name :: stack) value =>
    match token with
    | .comma => .field stack ((name, value) :: before) false
    | .closeObject => .after stack (.object ((name, value) :: before).reverse true)
    | _ => s.fail
  | .failed root => .failed root
  | .overfull root => .overfull root

def read (t : Text) : Document := ((tokens t).foldl step (.value [])).finish

def maxLevels : Nat := 127

def parse? (t : Text) : Option Json :=
  let document := read t
  if document.trailing then none else document.root.whole? maxLevels

end SnippetExpansion.Json

import SnippetExpansion.Ai
import SnippetExpansion.CommandLine.Usage
import SnippetExpansion.Transfer.Policy

/-!
# Values of arguments
-/
namespace SnippetExpansion.CommandLine

inductive Collection where
  | snippets
  | vars
  deriving Repr, DecidableEq

def Collection.named? (t : Text) : Option Collection :=
  if t = "snippets".toList then some .snippets
  else if t = "variables".toList then some .vars
  else none

inductive Value where
  | text (t : Text)
  | collection (c : Collection)
  | provider (p : Provider)
  | policy (p : ConflictPolicy)
  | portNumber (n : Nat)
  deriving Repr, DecidableEq

def readInt? (t : Text) : Option Int :=
  let (negative, digits) := match t with
    | '-' :: rest => (true, rest)
    | '+' :: rest => (false, rest)
    | _ => (false, t)
  if digits.isEmpty || !digits.all Char.isDigit then none
  else
    let n : Int := Text.digitsValue digits
    some (if negative then -n else n)

inductive ValueKind where
  | text
  | path
  | collection
  | provider
  | policy
  | portNumber
  deriving Repr, DecidableEq

namespace ValueKind

def value? (kind : ValueKind) (t : Text) : Option Value :=
  match kind with
  | text => some (.text t)
  | path => if t.isEmpty then none else some (.text t)
  | collection => (Collection.named? t).map .collection
  | provider => (Provider.parse t).toOption.map .provider
  | policy => (ConflictPolicy.parse t).toOption.map .policy
  | portNumber =>
    ((readInt? t).filter fun n => 0 ≤ n ∧ n < 65536).map fun n => .portNumber n.toNat

def fault : ValueKind → Usage
  | text | path | collection => .wrongValue
  | provider | policy | portNumber => .unreadableValue

def read (kind : ValueKind) (t : Text) : Except Usage Value :=
  match kind.value? t with
  | some v => .ok v
  | none => .error kind.fault

end ValueKind
end SnippetExpansion.CommandLine

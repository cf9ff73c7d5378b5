import SnippetExpansion.CommandLine.Grammar

/-!
# Reading arguments

The arguments are taken one by one. An option may await its value, and a value is looked at only
when the next argument shows that it is complete; so of two faults the one that shows first
counts.
-/
namespace SnippetExpansion.CommandLine

inductive Shape where
  | endOfOptions
  | long (name : Text) (value : Option Text)
  | short (letters : Text)
  | plain (t : Text)
  deriving Repr, DecidableEq

def Shape.ofText : Text → Shape
  | ['-'] => plain ['-']
  | ['-', '-'] => endOfOptions
  | '-' :: '-' :: rest =>
    let (name, value) := Text.splitAtFirst '=' rest
    long name value
  | '-' :: letters => short letters
  | t => plain t

/-- An argument whose value has not been looked at yet. -/
structure Pending where
  name : Text
  kind : ValueKind
  value : Option Text
  deriving Repr, DecidableEq

structure Progress where
  verb : Verb
  switches : List Text
  values : List (Text × Value)
  pending : Option Pending
  operands : List Operand
  onlyOperands : Bool
  deriving Repr, DecidableEq

namespace Progress

def start : Progress := ⟨.root, [], [], none, [], false⟩

def choose (p : Progress) (v : Verb) : Progress := { p with verb := v, operands := v.operands }

def give (p : Progress) (name : Text) (kind : ValueKind) (t : Text) : Except Usage Progress :=
  if (p.values.lookup name).isSome then .error .repeated
  else do
    let v ← kind.read t
    .ok { p with values := p.values ++ [(name, v)] }

def settle (p : Progress) : Except Usage Progress :=
  match p.pending with
  | none => .ok p
  | some ⟨_, _, none⟩ => .error .wrongValue
  | some ⟨name, kind, some t⟩ => { p with pending := none }.give name kind t

def turnOn (p : Progress) (switch : Text) : Except Usage Progress :=
  if p.switches.contains switch then .error .repeated
  else .ok { p with switches := p.switches ++ [switch] }

def option (p : Progress) (o : OptionForm) (attached : Option Text) : Except Usage Progress :=
  match o.role, attached with
  | .value kind, some t => do (← p.settle).give o.long kind t
  | .value kind, none => do
    let p ← p.settle
    .ok { p with pending := some ⟨o.long, kind, none⟩ }
  | _, some _ => .error .needlessValue
  | .switch, none => do (← p.settle).turnOn o.long
  | .help, none => do
    let _ ← p.settle
    .error .help
  | .version, none => do
    let _ ← p.settle
    .error .version

def long (p : Progress) (name : Text) (attached : Option Text) : Except Usage Progress :=
  match p.verb.long? name with
  | some o => p.option o attached
  | none => .error .unknownArgument

def attachedValue : Text → Option Text
  | [] => none
  | '=' :: t => some t
  | t => some t

def short (p : Progress) : Text → Except Usage Progress
  | [] => .ok p
  | letter :: rest =>
    match p.verb.short? letter with
    | none => .error .unknownArgument
    | some o =>
      match o.role with
      | .value _ => p.option o (attachedValue rest)
      | _ => do (← p.option o none).short rest

/-- What is wrong with an operand too many. In a group it would have to be a command. -/
def surplus (p : Progress) (t : Text) : Usage :=
  if !p.verb.isGroup then .unknownArgument
  else if t = "help".toList || (p.verb.subcommands.lookup t).isSome then .unknownArgument
  else .unknownSubcommand

def operand (p : Progress) (t : Text) : Except Usage Progress :=
  match p.operands with
  | [] => .error (p.surplus t)
  | o :: rest => do
    let p ← p.settle
    .ok { p with operands := rest, pending := some ⟨o.name, o.kind, some t⟩ }

def plain (p : Progress) (t : Text) : Except Usage Progress :=
  match p.pending with
  | some ⟨name, kind, none⟩ => .ok { p with pending := some ⟨name, kind, some t⟩ }
  | _ => p.operand t

def take (p : Progress) (t : Text) : Except Usage Progress :=
  if p.onlyOperands then p.operand t
  else
    match p.verb.subcommands.lookup t with
    | some v => .ok (p.choose v)
    | none =>
      match Shape.ofText t with
      | .endOfOptions => .ok { p with onlyOperands := true }
      | .long name attached => p.long name attached
      | .short letters => p.short letters
      | .plain t => p.plain t

def finish (p : Progress) : Except Usage Progress := do
  let p ← p.settle
  if p.verb.needsSubcommand then .error .noSubcommand else .ok p

def helpOn (v : Verb) : List Text → Usage
  | [] => .help
  | t :: rest =>
    match v.subcommands.lookup t with
    | some v => helpOn v rest
    | none => if v.isGroup && t = "help".toList && rest.isEmpty then .help else .unknownSubcommand

def read (p : Progress) : List Text → Except Usage Progress
  | [] => p.finish
  | t :: rest =>
    if !p.onlyOperands && p.verb.isGroup && t = "help".toList then .error (helpOn p.verb rest)
    else do (← p.take t).read rest

end Progress
end SnippetExpansion.CommandLine

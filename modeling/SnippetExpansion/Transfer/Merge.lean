import SnippetExpansion.Ids
import SnippetExpansion.Transfer.Policy
import SnippetExpansion.Transfer.Suffix

/-!
# Merging

Incoming entries go one by one into what is there. One whose shortcut or name is taken is a
conflict, and a policy is asked for it. A policy may depend on how many conflicts came before.
-/
namespace SnippetExpansion

structure Report where
  imported : Nat
  conflicts : Nat
  deriving Repr, DecidableEq

/-- Settles a conflict by its number, the existing snippet and the incoming one. -/
abbrev SnippetDecision := Nat → Snippet → Snippet → ConflictPolicy

structure SnippetMerge where
  snippets : List Snippet
  imported : Nat
  conflicts : List (Snippet × Snippet)
  issued : List Text

namespace SnippetMerge

def report (m : SnippetMerge) : Report := ⟨m.imported, m.conflicts.length⟩

/-- Gives the snippet an identifier of its own, unless it has one that is not among `others`. -/
def identify (ids : IdSource) (m : SnippetMerge) (others : List Snippet) (s : Snippet) :
    Snippet × List Text :=
  if s.id.isEmpty || others.any (·.id = s.id) then
    let id := ids.next (m.issued ++ m.snippets.map (·.id))
    ({ s with id }, m.issued ++ [id])
  else (s, m.issued)

def append (ids : IdSource) (m : SnippetMerge) (s : Snippet) : SnippetMerge :=
  let (s, issued) := identify ids m m.snippets s
  { m with snippets := m.snippets ++ [s], imported := m.imported + 1, issued }

def replace (ids : IdSource) (m : SnippetMerge) (index : Nat) (s : Snippet) : SnippetMerge :=
  let (s, issued) := identify ids m (m.snippets.eraseIdx index) s
  { m with snippets := m.snippets.set index s, imported := m.imported + 1, issued }

def add (ids : IdSource) (decide : SnippetDecision) (m : SnippetMerge) (s : Snippet) :
    SnippetMerge :=
  match m.snippets.findIdx? (·.shortcut = s.shortcut) with
  | none => m.append ids s
  | some index =>
    let old := (m.snippets[index]?).getD default
    let asked := { m with conflicts := m.conflicts ++ [(old, s)] }
    match decide m.conflicts.length old s with
    | .keepExisting => asked
    | .keepNew => asked.replace ids index s
    | .keepBoth =>
      asked.append ids { s with shortcut := Snippet.unusedShortcut s.shortcut m.snippets }

end SnippetMerge

def mergeSnippets (ids : IdSource) (issued : List Text) (decide : SnippetDecision)
    (existing incoming : List Snippet) : SnippetMerge :=
  incoming.foldl (SnippetMerge.add ids decide) ⟨existing, 0, [], issued⟩

abbrev VariableDecision := Nat → Text → Text → Text → ConflictPolicy

structure VariableMerge where
  vars : Variables
  imported : Nat
  conflicts : List (Text × Text × Text)

namespace VariableMerge

def report (m : VariableMerge) : Report := ⟨m.imported, m.conflicts.length⟩

def set (m : VariableMerge) (name value : Text) : VariableMerge :=
  { m with vars := m.vars.insert name value, imported := m.imported + 1 }

def add (decide : VariableDecision) (m : VariableMerge) (name value : Text) : VariableMerge :=
  match m.vars.find? name with
  | none => m.set name value
  | some old =>
    let asked := { m with conflicts := m.conflicts ++ [(name, old, value)] }
    match decide m.conflicts.length name old value with
    | .keepExisting => asked
    | .keepNew => asked.set name value
    | .keepBoth => asked.set (unusedSuffix name m.vars.names) value

end VariableMerge

def mergeVariables (decide : VariableDecision) (existing incoming : Variables) : VariableMerge :=
  incoming.entries.foldl (fun m e => m.add decide e.1 e.2) ⟨existing, 0, []⟩

end SnippetExpansion

import SnippetExpansion.Store.Edit
import SnippetExpansion.Transfer.Exchange
import SnippetExpansion.Transfer.Merge

/-!
# Importing into a store

A text to import is read and merged before anything is written, so a bad one changes nothing. A
merge that changes nothing writes nothing.
-/
namespace SnippetExpansion.Store

def importSnippets (ids : IdSource) (content : Text) (policy : ConflictPolicy) : StoreM Report :=
  match Snippet.parseImport content with
  | .error failure => throw failure
  | .ok incoming => do
    let existing ← loadSnippets
    let m := mergeSnippets ids (← get).issued (fun _ _ _ => policy) existing incoming
    modify fun s => { s with issued := m.issued }
    if m.snippets = existing then pure () else replaceSnippets m.snippets
    pure m.report

def importVariables (content : Text) (policy : ConflictPolicy) : StoreM Report :=
  match Variables.parseImport content with
  | .error failure => throw failure
  | .ok incoming => do
    let existing ← loadVariables
    let m := mergeVariables (fun _ _ _ _ => policy) existing incoming
    if m.vars = existing then pure () else replaceVariables m.vars
    pure m.report

end SnippetExpansion.Store

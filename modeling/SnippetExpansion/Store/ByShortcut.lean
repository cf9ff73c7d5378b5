import SnippetExpansion.Store.Edit

/-!
# Snippets by their shortcuts

A user names a snippet by its shortcut; the store goes by its identifier.
-/
namespace SnippetExpansion.Store

def snippetWithShortcut (shortcut : Text) : StoreM Snippet := do
  match Snippet.withShortcut? (← loadSnippets) shortcut with
  | some s => pure s
  | none => throw (.notFound (Failure.naming "snippet" shortcut))

def updateByShortcut (ids : IdSource) (shortcut text : Text) (category : Option Text) :
    StoreM Snippet := do
  let s ← snippetWithShortcut shortcut
  saveSnippet ids { s with text, category := category.or s.category }

def deleteByShortcut (shortcut : Text) : StoreM Unit := do
  let s ← snippetWithShortcut shortcut
  deleteSnippet s.id

end SnippetExpansion.Store

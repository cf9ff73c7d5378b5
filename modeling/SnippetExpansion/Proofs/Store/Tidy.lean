import SnippetExpansion.Proofs.Store.History
import SnippetExpansion.Proofs.Transfer.Merge
import SnippetExpansion.Proofs.Transfer.ReadBack

/-! # Stored data is tidy
Every identifier and shortcut stands for one snippet and can be used, no category is listed twice, and a
provider is selected only with its key. Each operation that puts something into a store keeps it so; the one
exception is putting a whole list of snippets in the place of all, which takes the list as it is. -/
namespace SnippetExpansion

def AiConfig.Keyed (config : AiConfig) : Prop :=
  ∀ provider, config.selected = some provider →
    ∃ key, config.storedKey provider = some key ∧ ¬Text.isBlank key

structure StoredData.Tidy (d : StoredData) : Prop where
  snippets_distinct : Snippet.Distinct d.snippets
  snippets_named : ∀ s ∈ d.snippets, s.Named
  categories_distinct : d.categories.Nodup
  ai_keyed : d.ai.Keyed

theorem AiConfig.storedKey_of_key {config : AiConfig} {provider : Provider}
    (h : (config.key provider).isSome) :
    ∃ key, config.storedKey provider = some key ∧ ¬Text.isBlank key := by
  obtain ⟨key, hkey⟩ := Option.isSome_iff_exists.1 h
  obtain ⟨hstored, hblank⟩ := Option.filter_eq_some_iff.1 hkey
  exact ⟨key, hstored, by simpa using hblank⟩

theorem Operation.MakesAi.keyed {op : Operation} {before after : AiConfig}
    (hmakes : op.MakesAi before after) (h : before.Keyed) : after.Keyed := by
  cases op with
  | saveAi ai =>
    obtain ⟨hkey, rfl⟩ := hmakes
    exact fun provider hprovider => AiConfig.storedKey_of_key (hkey provider hprovider)
  | _ =>
    obtain rfl := hmakes
    exact h

theorem Snippet.Distinct.filter {snippets : List Snippet} (h : Distinct snippets)
    (p : Snippet → Bool) : Distinct (snippets.filter p) :=
  ⟨h.ids.sublist (List.filter_sublist.map _), h.shortcuts.sublist (List.filter_sublist.map _)⟩

namespace Operation.MakesSnippets

variable {ids : IdSource} {issued : List Text} {op : Operation} {before after : List Snippet}

theorem distinct (hmakes : op.MakesSnippets ids issued before after)
    (hlist : ∀ l, op ≠ .replaceSnippets l) (h : Snippet.Distinct before) :
    Snippet.Distinct after := by
  cases op with
  | saveSnippet new =>
    obtain ⟨-, htaken, rfl⟩ := hmakes
    exact (Store.placeSnippet_enters ids issued htaken).distinct h
  | deleteSnippet id =>
    obtain rfl := hmakes
    exact h.filter _
  | replaceSnippets snippets => exact absurd rfl (hlist snippets)
  | importSnippets content policy =>
    obtain ⟨incoming, -, rfl⟩ := hmakes
    exact mergeSnippets_distinct h
  | _ =>
    obtain rfl := hmakes
    exact h

theorem named (hmakes : op.MakesSnippets ids issued before after)
    (hlist : ∀ l, op ≠ .replaceSnippets l) (h : ∀ s ∈ before, s.Named) : ∀ s ∈ after, s.Named := by
  intro x hx
  cases op with
  | saveSnippet new =>
    obtain ⟨hblank, htaken, rfl⟩ := hmakes
    rcases (Store.placeSnippet_enters ids issued htaken).mem hx with hx | ⟨-, hnamed⟩
    · exact h x hx
    · exact hnamed hblank
  | deleteSnippet id =>
    obtain rfl := hmakes
    exact h x (List.mem_of_mem_filter hx)
  | replaceSnippets snippets => exact absurd rfl (hlist snippets)
  | importSnippets content policy =>
    obtain ⟨incoming, hincoming, rfl⟩ := hmakes
    rcases mem_mergeSnippets hx with hx | ⟨s, hs, -, hnamed⟩
    · exact h x hx
    · exact hnamed (Snippet.parseImport_shortcut hincoming s hs)
  | _ =>
    obtain rfl := hmakes
    exact h x hx

end Operation.MakesSnippets

namespace StoredData.Tidy

theorem of_empty : Tidy .empty where
  snippets_distinct := ⟨List.nodup_nil, List.nodup_nil⟩
  snippets_named := fun _ hs => absurd hs List.not_mem_nil
  categories_distinct := List.nodup_nil
  ai_keyed := fun _ hprovider => absurd hprovider (Option.some_ne_none _).symm

theorem of_makes {ids : IdSource} {issued : List Text} {d d' : StoredData} {op : Operation}
    (h : d.Tidy) (hlist : ∀ l, op ≠ .replaceSnippets l) (hmakes : op.Makes ids issued d d') :
    d'.Tidy where
  snippets_distinct := hmakes.snippets.distinct hlist h.snippets_distinct
  snippets_named := hmakes.snippets.named hlist h.snippets_named
  categories_distinct := hmakes.categories ▸ Store.filed_nodup h.categories_distinct op.category
  ai_keyed := hmakes.ai.keyed h.ai_keyed

end StoredData.Tidy

/-- A store that starts without data loads tidy data after every course of operations, whatever they are
given and whether they succeed, unless the whole list of snippets is replaced. -/
theorem Store.Reached.loads_tidy {ids : IdSource} {file : File} {done : List Operation} {s : Store}
    (hfile : file.data = .ok .empty) (h : Store.Reached ids file done s)
    (hlist : ∀ op ∈ done, ∀ l, op ≠ .replaceSnippets l) :
    ∃ d, (Store.load.run s).1 = .ok d ∧ d.Tidy :=
  h.invariant (P := fun _ => StoredData.Tidy) hfile .of_empty
    (fun _ _ _ _ _ hop hd hmakes => hd.of_makes hop hmakes) hlist

namespace SharedShortcut

def ids : IdSource := .guessing (numbered ['s'])

def incoming : List Snippet :=
  [⟨[], ['/', 'a'], ['m'], none⟩, ⟨[], ['/', 'a'], ['n'], none⟩]

def bring : Operation := .importSnippets (Snippet.exportText incoming) .keepBoth

def data : StoredData :=
  { StoredData.empty with
    snippets := [⟨['s', '_', '0'], ['/', 'a'], ['m'], none⟩,
      ⟨['s', '_', '1'], ['/', 'a', '_', '1'], ['n'], none⟩] }

def store : Store :=
  ⟨.text data.write, [.snippets data.snippets], [['s', '_', '0'], ['s', '_', '1']], none⟩

theorem reached : Store.Reached ids .missing [bring] store := by
  have hrun : (bring.perform ids).run (Store.ofFile .missing) = (.ok ⟨2, 1⟩, store) := by
    have hincoming : Snippet.parseImport (Snippet.exportText incoming) = .ok incoming :=
      Snippet.parseImport_exportText (by decide)
    have hperform : bring.perform ids =
        Store.importSnippets ids (Snippet.exportText incoming) .keepBoth := rfl
    rw [hperform, Store.importSnippets, hincoming]
    rfl
  exact .succeed bring ⟨2, 1⟩ .start hrun

/-- Two snippets with one shortcut are imported where there is no file yet. -/
theorem loads_apart : Store.Reached ids .missing [bring] store ∧
    ∃ d, (Store.load.run store).1 = .ok d ∧ d.Tidy :=
  ⟨reached, Store.Reached.loads_tidy rfl reached (by simp [bring])⟩

end SharedShortcut
end SnippetExpansion

import SnippetExpansion.Proofs.Store.History
import SnippetExpansion.Proofs.Transfer.Merge
import SnippetExpansion.Proofs.Transfer.ReadBack

/-! # Which categories are listed
A category is listed once a snippet is saved with it, or it is saved itself, and by nothing else. An import
lists none, so a snippet may stand in a category that is not listed, but only one that an import has
brought. No listed category is blank, but for one that a snippet was saved with. -/
namespace SnippetExpansion

/-- Whether the operation takes in a text with a snippet in this category. -/
def Operation.BringsCategory (c : Text) : Operation → Prop
  | importSnippets content _ =>
      ∃ incoming, Snippet.parseImport content = .ok incoming ∧ ∃ s ∈ incoming, s.category = some c
  | _ => False

theorem Operation.MakesSnippets.category_of_mem {ids : IdSource} {issued : List Text}
    {op : Operation} {before after : List Snippet} {x : Snippet} {c : Text}
    (hmakes : op.MakesSnippets ids issued before after) (hlist : ∀ l, op ≠ .replaceSnippets l)
    (hx : x ∈ after) (hc : x.category = some c) :
    x ∈ before ∨ op.category = some c ∨ op.BringsCategory c := by
  cases op with
  | saveSnippet new =>
    obtain ⟨-, htaken, rfl⟩ := hmakes
    rcases (Store.placeSnippet_enters ids issued htaken).mem hx with hx | ⟨hcategory, -⟩
    · exact .inl hx
    · exact .inr (.inl (hcategory.symm.trans hc))
  | deleteSnippet id =>
    obtain rfl := hmakes
    exact .inl (List.mem_of_mem_filter hx)
  | replaceSnippets snippets => exact absurd rfl (hlist snippets)
  | importSnippets content policy =>
    obtain ⟨incoming, hincoming, rfl⟩ := hmakes
    rcases mem_mergeSnippets hx with hx | ⟨s, hs, hcategory, -⟩
    · exact .inl hx
    · exact .inr (.inr ⟨incoming, hincoming, s, hs, hcategory.symm.trans hc⟩)
  | _ =>
    obtain rfl := hmakes
    exact .inl hx

/-- What the data has to do with the operations that have listed and brought its categories. -/
structure StoredData.Filed (done : List Operation) (d : StoredData) : Prop where
  listed : ∀ c, c ∈ d.categories ↔ c ≠ [] ∧ ∃ op ∈ done, op.category = some c
  carried : ∀ x ∈ d.snippets, ∀ c, x.category = some c → c ≠ [] →
    c ∈ d.categories ∨ ∃ op ∈ done, op.BringsCategory c

namespace StoredData.Filed

theorem listed_of_makes {ids : IdSource} {issued : List Text} {done : List Operation}
    {d d' : StoredData} {op : Operation}
    (h : ∀ c, c ∈ d.categories ↔ c ≠ [] ∧ ∃ op ∈ done, op.category = some c)
    (hmakes : op.Makes ids issued d d') (c : Text) :
    c ∈ d'.categories ↔ c ≠ [] ∧ ∃ op' ∈ done ++ [op], op'.category = some c := by
  rw [hmakes.categories, Store.mem_filed, h]
  constructor
  · rintro (⟨hne, op', hop', hc⟩ | ⟨hc, hne⟩)
    · exact ⟨hne, op', List.mem_append_left _ hop', hc⟩
    · exact ⟨hne, op, List.mem_append_right _ (List.mem_singleton_self op), hc⟩
  · rintro ⟨hne, op', hop', hc⟩
    rcases List.mem_append.1 hop' with hop' | hop'
    · exact .inl ⟨hne, op', hop', hc⟩
    · obtain rfl := List.mem_singleton.1 hop'
      exact .inr ⟨hc, hne⟩

theorem of_empty : Filed [] .empty where
  listed := fun _ => iff_of_false List.not_mem_nil fun ⟨_, _, hop, _⟩ => absurd hop List.not_mem_nil
  carried := fun _ hx => absurd hx List.not_mem_nil

theorem of_makes {ids : IdSource} {issued : List Text} {done : List Operation} {d d' : StoredData}
    {op : Operation} (h : Filed done d) (hlist : ∀ l, op ≠ .replaceSnippets l)
    (hmakes : op.Makes ids issued d d') : Filed (done ++ [op]) d' := by
  have hmem (c : Text) : c ∈ d'.categories ↔ c ∈ d.categories ∨ op.category = some c ∧ c ≠ [] := by
    rw [hmakes.categories, Store.mem_filed]
  constructor
  · exact listed_of_makes h.listed hmakes
  · intro x hx c hc hne
    rcases hmakes.snippets.category_of_mem hlist hx hc with hx | hlisted | hbrought
    · rcases h.carried x hx c hc hne with hknown | ⟨op', hop', hbrought⟩
      · exact .inl ((hmem c).2 (.inl hknown))
      · exact .inr ⟨op', List.mem_append_left _ hop', hbrought⟩
    · exact .inl ((hmem c).2 (.inr ⟨hlisted, hne⟩))
    · exact .inr ⟨op, List.mem_append_right _ (List.mem_singleton_self op), hbrought⟩

end StoredData.Filed

/-- In a store that starts without data, the categories that are listed are those that snippets were saved
with and those that were saved themselves. A stored snippet's category is one of these or an import has
brought it. Replacing all snippets at once takes them in any categories. -/
theorem Store.Reached.categories_listed_or_brought {ids : IdSource} {file : File}
    {done : List Operation} {s : Store} (hfile : file.data = .ok .empty)
    (h : Store.Reached ids file done s) (hlist : ∀ op ∈ done, ∀ l, op ≠ .replaceSnippets l) :
    ∃ d, (Store.load.run s).1 = .ok d ∧
      (∀ c, c ∈ d.categories ↔ c ≠ [] ∧ ∃ op ∈ done, op.category = some c) ∧
      ∀ x ∈ d.snippets, ∀ c, x.category = some c → c ≠ [] →
        c ∈ d.categories ∨ ∃ op ∈ done, op.BringsCategory c := by
  obtain ⟨d, hd, hfiled⟩ := h.invariant (P := StoredData.Filed) hfile .of_empty
    (fun _ _ _ _ _ hop hfiled hmakes => hfiled.of_makes hop hmakes) hlist
  exact ⟨d, hd, hfiled.listed, hfiled.carried⟩

namespace NewCategory

def ids : IdSource := .guessing (numbered ['s'])

def snippet : Snippet := ⟨['i'], ['/', 'a'], ['t'], some ['w']⟩

def bring : Operation := .importSnippets (Snippet.exportText [snippet]) .keepExisting

def store : Store :=
  ⟨.text { StoredData.empty with snippets := [snippet] }.write, [.snippets [snippet]], [], none⟩

theorem reached : Store.Reached ids .missing [bring] store := by
  have hrun : (bring.perform ids).run (Store.ofFile .missing) = (.ok ⟨1, 0⟩, store) := by
    have hincoming : Snippet.parseImport (Snippet.exportText [snippet]) = .ok [snippet] :=
      Snippet.parseImport_exportText (by decide)
    have hperform : bring.perform ids =
        Store.importSnippets ids (Snippet.exportText [snippet]) .keepExisting := rfl
    rw [hperform, Store.importSnippets, hincoming]
    rfl
  exact .succeed bring ⟨1, 0⟩ .start hrun

/-- A snippet in a category is imported where there is no file yet. -/
theorem category_brought : Store.Reached ids .missing [bring] store ∧
    ∃ d, (Store.load.run store).1 = .ok d ∧
      (∀ c, c ∈ d.categories ↔ c ≠ [] ∧ ∃ op ∈ [bring], op.category = some c) ∧
      ∀ x ∈ d.snippets, ∀ c, x.category = some c → c ≠ [] →
        c ∈ d.categories ∨ ∃ op ∈ [bring], op.BringsCategory c :=
  ⟨reached, Store.Reached.categories_listed_or_brought rfl reached (by simp [bring])⟩

/-- The imported snippet stands in a category, and none is listed. -/
theorem counterexample_category_not_listed : Store.Reached ids .missing [bring] store ∧
    (Store.loadSnippets.run store).1 = .ok [snippet] ∧ snippet.category = some ['w'] ∧
    (Store.loadCategories.run store).1 = .ok [] := by
  have hdata : store.file.data = .ok { StoredData.empty with snippets := [snippet] } :=
    File.data_write _
  refine ⟨reached, ?_, rfl, ?_⟩
  · rw [Store.loadSnippets, Store.run_map_load, hdata]
    rfl
  · rw [Store.loadCategories, Store.run_map_load, hdata]
    rfl

end NewCategory

theorem Text.trim_eq_nil_of_isBlank {t : Text} (h : isBlank (trim t)) : trim t = [] := by
  by_contra hne
  -- What stands last in a trimmed text is not white space.
  have hrest : (trimStart t).reverse.dropWhile isBlankChar ≠ [] := mt List.reverse_eq_nil_iff.2 hne
  have hlast := List.head_dropWhile_not isBlankChar hrest
  rw [List.all_eq_true.1 h _ (List.mem_reverse.2 (List.head_mem hrest))] at hlast
  cases hlast

theorem Operation.category_blank_iff {op : Operation} {c : Text} (hne : c ≠ [])
    (hblank : Text.isBlank c) :
    op.category = some c ↔ ∃ x, op = .saveSnippet x ∧ x.category = some c := by
  cases op with
  | saveSnippet x => simp [category]
  | saveCategory name =>
    refine iff_of_false (fun hc => hne ?_) (by simp)
    obtain rfl := Option.some.inj hc
    exact Text.trim_eq_nil_of_isBlank hblank
  | _ => simp [category]

/-- In a store that starts without data, no category is blank as long as no snippet is saved with a
category of nothing but white space, whatever else is done and whatever it is given. -/
theorem Store.Reached.categories_not_blank_iff {ids : IdSource} {file : File} {done : List Operation}
    {s : Store} (hfile : file.data = .ok .empty) (h : Store.Reached ids file done s) :
    ∃ d, (Store.load.run s).1 = .ok d ∧
      ((∀ c ∈ d.categories, ¬Text.isBlank c) ↔
        ∀ x, .saveSnippet x ∈ done → ∀ c, x.category = some c → c ≠ [] → ¬Text.isBlank c) := by
  obtain ⟨d, hd, hlisted⟩ := h.invariant
    (P := fun done d => ∀ c, c ∈ d.categories ↔ c ≠ [] ∧ ∃ op ∈ done, op.category = some c) hfile
    StoredData.Filed.of_empty.listed
    (fun _ _ _ _ _ _ hlisted hmakes => StoredData.Filed.listed_of_makes hlisted hmakes)
    (fun _ _ => trivial : ∀ op ∈ done, True)
  refine ⟨d, hd, fun hnone x hx c hc hne => ?_, fun hsaved c hmem hblank => ?_⟩
  · exact hnone c ((hlisted c).2 ⟨hne, .saveSnippet x, hx, hc⟩)
  · obtain ⟨hne, op, hop, hc⟩ := (hlisted c).1 hmem
    obtain ⟨x, rfl, hx⟩ := (Operation.category_blank_iff hne hblank).1 hc
    exact hsaved x hop c hx hne hblank

namespace SpaceCategory

def ids : IdSource := .guessing (numbered ['s'])

def snippet : Snippet := ⟨[], ['/', 'a'], ['t'], some [' ']⟩

def saved : Snippet := { snippet with id := ['s', '_', '0'] }

def data : StoredData := { StoredData.empty with snippets := [saved], categories := [[' ']] }

def store : Store :=
  ⟨.text data.write, [.snippets [saved], .categories [[' ']]], [saved.id], none⟩

theorem reached : Store.Reached ids .missing [.saveSnippet snippet] store :=
  .succeed (.saveSnippet snippet) saved .start rfl

/-- A snippet is saved with a space for its category, where there is no file yet. -/
theorem blank_where_saved : Store.Reached ids .missing [.saveSnippet snippet] store ∧
    ∃ d, (Store.load.run store).1 = .ok d ∧
      ((∀ c ∈ d.categories, ¬Text.isBlank c) ↔
        ∀ x, .saveSnippet x ∈ [Operation.saveSnippet snippet] →
          ∀ c, x.category = some c → c ≠ [] → ¬Text.isBlank c) :=
  ⟨reached, Store.Reached.categories_not_blank_iff rfl reached⟩

/-- The space is listed, and saving it as a category is refused. -/
theorem counterexample_space_listed : Store.Reached ids .missing [.saveSnippet snippet] store ∧
    (Store.loadCategories.run store).1 = .ok [[' ']] ∧ Text.isBlank [' '] ∧
    (Store.saveCategory [' ']).run store =
      (.error (.config "category must not be empty".toList), store) := by
  have hdata : store.file.data = .ok data := File.data_write _
  refine ⟨reached, ?_, rfl, rfl⟩
  rw [Store.loadCategories, Store.run_map_load, hdata]
  rfl

end SpaceCategory
end SnippetExpansion

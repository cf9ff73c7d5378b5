import SnippetExpansion.CommandLine.Terminal
import SnippetExpansion.Proofs.Store.ByShortcut

/-! # Commands on one snippet
A command that does something to the stored data reads the file, leaves in it what the data has become and
says so, and touches nothing else at the terminal. -/
namespace SnippetExpansion

namespace FileTree

variable {tree written : FileTree} {path content : Text} {parts other : List Text}

/-- Whether a file can be put at the path, with the directory that it is in. -/
def Writable (tree : FileTree) (path : Text) : Prop :=
  ∀ content, ∃ written, (tree.withDirectoryOf path).write path content = .ok written

theorem lookup_put_self : (tree.put parts content).files.lookup parts = some content :=
  List.lookup_cons_self

theorem lookup_put_of_ne (h : other ≠ parts) :
    (tree.put parts content).files.lookup other = tree.files.lookup other := by
  have hfilter (files : List (List Text × Text)) :
      (files.filter (·.1 ≠ parts)).lookup other = files.lookup other := by
    induction files with
    | nil => rfl
    | cons file files ih =>
      by_cases hfile : file.1 = parts
      · rw [List.filter_cons_of_neg (by simpa using hfile), ih, List.lookup_cons,
          beq_false_of_ne (hfile ▸ h)]
      · rw [List.filter_cons_of_pos (by simpa using hfile), List.lookup_cons, List.lookup_cons, ih]
  rw [put, List.lookup_cons, beq_false_of_ne h]
  exact hfilter tree.files

theorem write_ok (h : tree.write path content = .ok written) :
    written = tree.put (Path.parts path) content ∧ written.read path = .ok content := by
  rw [write] at h
  by_cases hname : Path.namesDirectory path
  · simp only [hname, if_true] at h
    split_ifs at h
  · split_ifs at h
    obtain rfl := Except.ok.inj h
    refine ⟨rfl, ?_⟩
    rw [read, lookup_put_self]
    exact if_neg hname

end FileTree

theorem StoredData.write_injective {d d' : StoredData} (h : d.write = d'.write) : d = d' := by
  have hdata := File.data_write d
  rw [h, File.data_write] at hdata
  exact (Except.ok.inj hdata).symm

theorem File.read_of_ofRead {read : Except FileFault Text} {content : Text}
    (h : File.ofRead read = .text content) : read = .ok content := by
  unfold File.ofRead at h
  split at h
  · exact congrArg Except.ok (File.text.inj h)
  all_goals cases h

theorem Terminal.run_bind {α β : Type} (c : Console α) (f : α → Console β) (t : Terminal) :
    (run (c >>= f)).run t = (run (f ((run c).run t).1)).run ((run c).run t).2 := by
  rw [run, Dialogue.interpret_bind]
  rfl

namespace CommandLine

variable {α β : Type} {path : Text} {t : Terminal}

theorem CommandM.run_bind (m : CommandM α) (k : α → CommandM β) (t : Terminal) :
    (Terminal.run (m >>= k).run).run t = match (Terminal.run m.run).run t with
      | (.ok a, t') => (Terminal.run (k a).run).run t'
      | (.error failure, t') => (.error failure, t') := by
  change (Terminal.run (m.run >>= ExceptT.bindCont k)).run t = _
  rw [Terminal.run_bind]
  rcases (Terminal.run m.run).run t with ⟨_ | a, t'⟩ <;> rfl

theorem CommandM.run_lift (c : Console α) (t : Terminal) :
    (Terminal.run (ExceptT.lift c : CommandM α).run).run t =
      (.ok ((Terminal.run c).run t).1, ((Terminal.run c).run t).2) := by
  change (Terminal.run (Except.ok <$> c)).run t = _
  rw [map_eq_pure_bind, Terminal.run_bind]
  rfl

theorem orFault_run (c : Console (Except FileFault α)) (t : Terminal) :
    (Terminal.run (orFault c).run).run t = match (Terminal.run c).run t with
      | (.ok a, t') => (.ok a, t')
      | (.error fault, t') => (.error (.file fault), t') := by
  rw [orFault, CommandM.run_bind, CommandM.run_lift]
  rcases (Terminal.run c).run t with ⟨_ | a, t'⟩ <;> rfl

theorem CommandM.run_ofExcept (result : Except Failure α) (t : Terminal) :
    (Terminal.run (MonadExcept.ofExcept result : CommandM α).run).run t = (result, t) := by
  cases result <;> rfl

def storeAt (path : Text) (t : Terminal) : Store := .ofFile (.ofRead (t.tree.read path))

theorem openStore_run (path : Text) (t : Terminal) :
    (Terminal.run (openStore path).run).run t = (.ok (storeAt path t), t) := rfl

/-- The terminal with another content in the file at the path, all other files as they were. -/
structure Rewritten (path content : Text) (t t' : Terminal) : Prop where
  file : t'.tree.read path = .ok content
  others : ∀ parts, parts ≠ Path.parts path →
    t'.tree.files.lookup parts = t.tree.files.lookup parts
  rest : t' = { t with tree := t'.tree }

theorem keepFile_run (content : Text) (hwritable : t.tree.Writable path) :
    ∃ t', (Terminal.run (orFault (Console.keepFile path content)).run).run t = (.ok (), t') ∧
      Rewritten path content t t' := by
  obtain ⟨written, hwritten⟩ := hwritable content
  obtain ⟨hput, hread⟩ := FileTree.write_ok hwritten
  refine ⟨{ t with tree := written }, ?_, hread, fun parts hparts => ?_, rfl⟩
  · have hkept : (Terminal.run (Console.keepFile path content)).run t =
        (.ok (), { t with tree := written }) := by
      change Terminal.writeFile path content { t with tree := t.tree.withDirectoryOf path } = _
      simp only [Terminal.writeFile, hwritten]
    rw [orFault_run, hkept]
  · rw [hput, FileTree.lookup_put_of_ne hparts]
    rfl

theorem onStore_run {m : StoreM α} {content : Text} {result : Except Failure α} {changed : Store}
    (hwritable : t.tree.Writable path) (hrun : m.run (storeAt path t) = (result, changed))
    (hfile : changed.file = .text content) :
    ∃ t', (Terminal.run (onStore path m).run).run t = (result, t') ∧ Rewritten path content t t' := by
  rw [onStore, CommandM.run_bind, openStore_run]
  simp only [hrun, hfile]
  -- A file that would be written as it is stays without being written.
  by_cases hsame : File.text content = (storeAt path t).file
  · rw [if_pos hsame]
    exact ⟨t, CommandM.run_ofExcept result t, File.read_of_ofRead hsame.symm, fun _ _ => rfl, rfl⟩
  · obtain ⟨t', hkept, hrewritten⟩ := keepFile_run content hwritable
    rw [if_neg hsame, CommandM.run_bind, hkept]
    exact ⟨t', CommandM.run_ofExcept result t', hrewritten⟩

theorem onStore_run_unchanged {m : StoreM α} {result : Except Failure α} {changed : Store}
    (hrun : m.run (storeAt path t) = (result, changed)) (hfile : changed.file = (storeAt path t).file) :
    (Terminal.run (onStore path m).run).run t = (result, t) := by
  rw [onStore, CommandM.run_bind, openStore_run]
  simp only [hrun, hfile, if_true]
  cases (storeAt path t).file <;> exact CommandM.run_ofExcept result t

def reporting (path : Text) (m : StoreM α) (word : String) (name : Text) : CommandM Sequel := do
  let _ ← onStore path m
  report word name
  pure .nothing

theorem complete_run (ids : IdSource) (path : Text) (order : Order) (t : Terminal) :
    (Invocation.complete ids path ⟨false, some order⟩).run t =
      match (Terminal.run (order.run ids path).run).run t with
      | (.ok (.lines snapshot), t) => (.ok (), typeAll snapshot t)
      | (.ok _, t) => (.ok (), t)
      | (.error failure, t) => (.error failure, t) := rfl

section Complete

variable {ids : IdSource} {order : Order} {m : StoreM α} {word : String} {name : Text} {t' : Terminal}

theorem complete_reporting {a : α} (horder : order.run ids path = reporting path m word name)
    (hrun : (Terminal.run (onStore path m).run).run t = (.ok a, t')) :
    (Invocation.complete ids path ⟨false, some order⟩).run t =
      (.ok (), { t' with printed := t'.printed ++ (Failure.naming word name ++ ['\n']) }) := by
  have horderRun : (Terminal.run (order.run ids path).run).run t =
      (.ok .nothing, { t' with printed := t'.printed ++ (Failure.naming word name ++ ['\n']) }) := by
    rw [horder, reporting, CommandM.run_bind, hrun]
    rfl
  rw [complete_run, horderRun]

theorem complete_failing {failure : Failure} (horder : order.run ids path = reporting path m word name)
    (hrun : (Terminal.run (onStore path m).run).run t = (.error failure, t')) :
    (Invocation.complete ids path ⟨false, some order⟩).run t = (.error failure, t') := by
  have horderRun : (Terminal.run (order.run ids path).run).run t = (.error failure, t') := by
    rw [horder, reporting, CommandM.run_bind, hrun]
  rw [complete_run, horderRun]

end Complete

/-- The arguments make up a command that ends without failure. It leaves these data in the file and prints
this line, and all else at the terminal is as it was. -/
def Leaves (ids : IdSource) (path : Text) (arguments : List Text) (line : Text) (d : StoredData)
    (t : Terminal) : Prop :=
  ∃ i t', Invocation.parse arguments = .ok i ∧ Rewritten path d.write t t' ∧
    (i.complete ids path).run t = (.ok (), { t' with printed := t'.printed ++ (line ++ ['\n']) })

section Leaves

variable {ids : IdSource} {arguments : List Text} {order : Order} {m : StoreM α} {word : String}
  {name : Text} {d d' : StoredData}

theorem leaves_iff {a : α} {changed : Store}
    (hparse : Invocation.parse arguments = .ok ⟨false, some order⟩)
    (horder : order.run ids path = reporting path m word name) (hwritable : t.tree.Writable path)
    (hrun : m.run (storeAt path t) = (.ok a, changed)) (hfile : changed.file = .text d'.write) :
    Leaves ids path arguments (Failure.naming word name) d t ↔ d' = d := by
  obtain ⟨t', hstore, hrewritten⟩ := onStore_run hwritable hrun hfile
  have hcomplete := complete_reporting horder hstore
  constructor
  · rintro ⟨i, t₁, hi, hleft, hended⟩
    obtain rfl := Except.ok.inj (hparse.symm.trans hi)
    have hsame := congrArg (·.2.tree.read path) (hcomplete.symm.trans hended)
    exact StoredData.write_injective (Except.ok.inj (hrewritten.file.symm.trans
      (Eq.trans hsame hleft.file)))
  · rintro rfl
    exact ⟨_, t', hparse, hrewritten, hcomplete⟩

theorem not_leaves {line : Text} {failure : Failure}
    (hparse : Invocation.parse arguments = .ok ⟨false, some order⟩)
    (horder : order.run ids path = reporting path m word name)
    (hrun : m.run (storeAt path t) = (.error failure, storeAt path t)) :
    ¬Leaves ids path arguments line d t := by
  rintro ⟨i, t₁, hi, -, hended⟩
  obtain rfl := Except.ok.inj (hparse.symm.trans hi)
  have hcomplete := complete_failing horder (onStore_run_unchanged hrun rfl)
  cases hcomplete.symm.trans hended

end Leaves

section Named

variable {d : StoredData} {x : Snippet} {text : Text} {category : Option Text}
  {deletion change : List Text}

theorem leaves_without_iff (ids : IdSource) (hwritable : t.tree.Writable path)
    (hopen : (storeAt path t).file.data = .ok d) (hdistinct : (Snippet.shortcuts d.snippets).Nodup)
    (hx : x ∈ d.snippets)
    (hdeletion : Invocation.parse deletion = .ok ⟨false, some (.delete x.shortcut)⟩) :
    Leaves ids path deletion (Failure.naming "Deleted snippet" x.shortcut)
        { d with snippets := Snippet.without x.shortcut d.snippets } t ↔
      ∀ y ∈ d.snippets, y.id = x.id → y = x := by
  obtain ⟨changed, hrun, hfile⟩ := Store.deleteByShortcut_run hopen rfl hdistinct hx
  rw [leaves_iff hdeletion rfl hwritable hrun hfile, ← Snippet.filter_id_eq_without_iff hdistinct hx]
  exact ⟨congrArg StoredData.snippets, fun hsame => by rw [hsame]⟩

theorem leaves_revised_iff (ids : IdSource) (hwritable : t.tree.Writable path)
    (hopen : (storeAt path t).file.data = .ok d) (hdistinct : (Snippet.shortcuts d.snippets).Nodup)
    (hx : x ∈ d.snippets) (hblank : ¬Text.isBlank x.shortcut)
    (hchange : Invocation.parse change = .ok ⟨false, some (.update x.shortcut text category)⟩) :
    Leaves ids path change (Failure.naming "Updated snippet" x.shortcut)
        { d with
          snippets := Snippet.reviseAt x.shortcut text category d.snippets
          categories := Store.filed d.categories (category.or x.category) } t ↔
      x.id ≠ [] ∧ d.snippets.find? (·.id = x.id) = some x := by
  by_cases hid : x.id = []
  · have hrun := Store.updateByShortcut_taken ids text category hopen hdistinct hx hblank hid
    exact iff_of_false (not_leaves hchange rfl hrun) fun h => h.1 hid
  · obtain ⟨first, hfirst⟩ : ∃ first, d.snippets.find? (·.id = x.id) = some first :=
      Option.isSome_iff_exists.1 (List.find?_isSome.2 ⟨x, hx, by simp⟩)
    obtain ⟨hsame, before, rest, hsplit, hbefore⟩ := List.find?_eq_some_iff_append.1 hfirst
    obtain ⟨changed, hrun, hfile⟩ := Store.updateByShortcut_run ids text category hopen rfl hdistinct
      hx hblank hid hsplit (by simpa using hsame) (by simpa using hbefore)
    rw [leaves_iff hchange rfl hwritable hrun hfile, hfirst]
    have hplace := Snippet.replaced_eq_reviseAt_iff text category (hsplit ▸ hdistinct) (hsplit ▸ hx)
    rw [← hsplit] at hplace
    constructor
    · intro hdata
      rw [hplace.1 (congrArg StoredData.snippets hdata)]
      exact ⟨hid, rfl⟩
    · rintro ⟨-, hfound⟩
      rw [hplace.2 (Option.some.inj hfound)]

end Named

/-- Where shortcuts are distinct and none is blank, deleting by a shortcut takes away the snippet it names
and no other exactly if no other has its identifier. Updating by it changes that snippet and no other exactly
if it has an identifier, and is the first that has it. -/
theorem named_snippet_only_iff (ids : IdSource) {path : Text} {t : Terminal} {d : StoredData}
    {x : Snippet} {text : Text} {category : Option Text} {deletion change : List Text}
    (hwritable : t.tree.Writable path) (hdata : (File.ofRead (t.tree.read path)).data = .ok d)
    (hdistinct : (Snippet.shortcuts d.snippets).Nodup)
    (hblank : ∀ y ∈ d.snippets, ¬Text.isBlank y.shortcut) (hx : x ∈ d.snippets)
    (hdeletion : Invocation.parse deletion = .ok ⟨false, some (.delete x.shortcut)⟩)
    (hchange : Invocation.parse change = .ok ⟨false, some (.update x.shortcut text category)⟩) :
    (Leaves ids path deletion (Failure.naming "Deleted snippet" x.shortcut)
        { d with snippets := Snippet.without x.shortcut d.snippets } t ↔
      ∀ y ∈ d.snippets, y.id = x.id → y = x) ∧
    (Leaves ids path change (Failure.naming "Updated snippet" x.shortcut)
        { d with
          snippets := Snippet.reviseAt x.shortcut text category d.snippets
          categories := Store.filed d.categories (category.or x.category) } t ↔
      x.id ≠ [] ∧ d.snippets.find? (·.id = x.id) = some x) :=
  ⟨leaves_without_iff ids hwritable hdata hdistinct hx hdeletion,
    leaves_revised_iff ids hwritable hdata hdistinct hx (hblank x hx) hchange⟩

namespace TwoSnippets

def ids : IdSource := .guessing (numbered ['s'])

def dataFile : Text := "data.json".toList

def data (idA idB : Text) : StoredData :=
  { StoredData.empty with
    snippets := [⟨idA, ['/', 'a'], ['m'], none⟩, ⟨idB, ['/', 'b'], ['n'], none⟩] }

def terminal (d : StoredData) : Terminal :=
  ⟨⟨[[]], [(Path.parts dataFile, d.write)]⟩, [], [], [], ⟨default, .ok [], [], fun _ _ _ => .ok [], []⟩⟩

def deletion : List Text := ["delete".toList, "--shortcut".toList, "/a".toList]

def change : List Text :=
  ["update".toList, "--shortcut".toList, "/a".toList, "--text".toList, "new".toList]

theorem terminal_writable (d : StoredData) : (terminal d).tree.Writable dataFile := fun _ => ⟨_, rfl⟩

theorem terminal_data (d : StoredData) :
    (File.ofRead ((terminal d).tree.read dataFile)).data = .ok d := File.data_write d

theorem shortcuts_distinct (idA idB : Text) :
    (Snippet.shortcuts (data idA idB).snippets).Nodup := by
  simp [data, Snippet.shortcuts]

theorem shortcuts_not_blank (idA idB : Text) :
    ∀ y ∈ (data idA idB).snippets, ¬Text.isBlank y.shortcut := by
  simp only [data, List.forall_mem_cons]
  exact ⟨by decide, by decide, List.forall_mem_nil _⟩

/-- A terminal with two snippets in its data file. -/
theorem only_named_where_numbered :
    (terminal (data ['1'] ['2'])).tree.Writable dataFile ∧
    Leaves ids dataFile deletion "Deleted snippet '/a'".toList
      { data ['1'] ['2'] with snippets := [⟨['2'], ['/', 'b'], ['n'], none⟩] }
      (terminal (data ['1'] ['2'])) ∧
    Leaves ids dataFile change "Updated snippet '/a'".toList
      { data ['1'] ['2'] with
        snippets := [⟨['1'], ['/', 'a'], "new".toList, none⟩, ⟨['2'], ['/', 'b'], ['n'], none⟩] }
      (terminal (data ['1'] ['2'])) := by
  have hmem : ⟨['1'], ['/', 'a'], ['m'], none⟩ ∈ (data ['1'] ['2']).snippets := List.mem_cons_self
  have hdeletion : Invocation.parse deletion = .ok ⟨false, some (.delete ['/', 'a'])⟩ := rfl
  have hchange : Invocation.parse change =
      .ok ⟨false, some (.update ['/', 'a'] "new".toList none)⟩ := rfl
  obtain ⟨hdeleted, hupdated⟩ := named_snippet_only_iff ids (terminal_writable _) (terminal_data _)
    (shortcuts_distinct ['1'] ['2']) (shortcuts_not_blank ['1'] ['2']) hmem hdeletion hchange
  exact ⟨terminal_writable _, hdeleted.2 (by decide), hupdated.2 (by decide)⟩

/-- Where snippets have no identifiers, deleting one deletes both, and none can be updated. -/
theorem counterexample_without_identifiers :
    (File.ofRead ((terminal (data [] [])).tree.read dataFile)).data = .ok (data [] []) ∧
    (Snippet.shortcuts (data [] []).snippets).Nodup ∧
    Leaves ids dataFile deletion "Deleted snippet '/a'".toList .empty (terminal (data [] [])) ∧
    ¬Leaves ids dataFile deletion "Deleted snippet '/a'".toList
      { data [] [] with snippets := [⟨[], ['/', 'b'], ['n'], none⟩] } (terminal (data [] [])) ∧
    Invocation.parse change = .ok ⟨false, some (.update "/a".toList "new".toList none)⟩ ∧
    (Invocation.complete ids dataFile ⟨false, some (.update "/a".toList "new".toList none)⟩).run
        (terminal (data [] [])) =
      (.error (.duplicateShortcut "/a".toList), terminal (data [] [])) := by
  have hopen : (storeAt dataFile (terminal (data [] []))).file.data = .ok (data [] []) :=
    terminal_data _
  have hdistinct := shortcuts_distinct [] []
  obtain ⟨changed, hrun, hfile⟩ := Store.deleteByShortcut_run
    (x := ⟨[], ['/', 'a'], ['m'], none⟩) hopen rfl hdistinct (by decide)
  have hleaves (d : StoredData) : Leaves ids dataFile deletion "Deleted snippet '/a'".toList d
      (terminal (data [] [])) ↔ .empty = d :=
    leaves_iff (show Invocation.parse deletion = .ok ⟨false, some (.delete ['/', 'a'])⟩ from rfl) rfl
      (terminal_writable _) hrun hfile
  have htaken := Store.updateByShortcut_taken ids "new".toList none
    (x := ⟨[], ['/', 'a'], ['m'], none⟩) hopen hdistinct (by decide) (by decide) rfl
  exact ⟨hopen, hdistinct, (hleaves .empty).2 (by decide), fun h => absurd ((hleaves _).1 h) (by decide),
    rfl, complete_failing rfl (onStore_run_unchanged htaken rfl)⟩

end TwoSnippets

end CommandLine
end SnippetExpansion

import SnippetExpansion.Transfer.Import
import SnippetExpansion.Proofs.StoredData.ReadBack

/-! # Operations tell what they write
Whatever is asked of a store, a failure leaves the file as it was and nothing is told of it. What is
told of a success, done to the data that was loaded before, is the data that is loaded after. -/
namespace SnippetExpansion

theorem File.data_write (d : StoredData) : (File.text d.write).data = .ok d := by
  have hblank : Text.isBlank d.write = false := rfl
  rw [File.data, hblank, StoredData.parse_write]
  rfl

namespace Store

variable {α β : Type}

@[simp] theorem run_bind (m : StoreM α) (k : α → StoreM β) (s : Store) :
    (m >>= k).run s = match m.run s with
      | (.ok a, s') => (k a).run s'
      | (.error failure, s') => (.error failure, s') := by
  change (ExceptT.bindCont k (m.run s).1) (m.run s).2 = _
  rcases m.run s with ⟨_ | a, s'⟩ <;> rfl

@[simp] theorem run_pure (a : α) (s : Store) : (pure a : StoreM α).run s = (.ok a, s) := rfl

@[simp] theorem run_get (s : Store) : (get : StoreM Store).run s = (.ok s, s) := rfl

@[simp] theorem run_modify (f : Store → Store) (s : Store) :
    (modify f : StoreM Unit).run s = (.ok (), f s) := rfl

@[simp] theorem run_load (s : Store) : load.run s = (s.file.data, s) := rfl

@[simp] theorem run_throw (failure : Failure) (s : Store) :
    (throw failure : StoreM α).run s = (.error failure, s) := rfl

@[simp] theorem run_ite (c : Prop) [Decidable c] (m m' : StoreM α) (s : Store) :
    (if c then m else m').run s = if c then m.run s else m'.run s := by
  split <;> rfl

@[simp] theorem issue_run (made : List Text) (s : Store) :
    (issue made).run s = (.ok (), { s with issued := s.issued ++ made }) := rfl

@[simp] theorem notify_run (c : Change) (s : Store) :
    (notify c).run s = (.ok (), { s with sent := s.sent ++ [c] }) := rfl

theorem run_map_load (f : StoredData → β) (s : Store) : (f <$> load).run s = (s.file.data.map f, s) := by
  rw [map_eq_pure_bind, run_bind, run_load]
  cases s.file.data <;> rfl

theorem write_run (d : StoredData) (s : Store) :
    (write d).run s = match s.writeFault with
      | some fault => (.error (.file fault), s)
      | none => (.ok (), { s with file := .text d.write }) := by
  obtain ⟨file, sent, issued, fault⟩ := s
  cases fault <;> rfl

/-- Where the document is written and these changes are told then. If it cannot be written nothing is told. -/
def carriedOut (d : StoredData) (told : List Change) (a : α) (s : Store) : Except Failure α × Store :=
  match s.writeFault with
  | some fault => (.error (.file fault), s)
  | none => (.ok a, { s with file := .text d.write, sent := s.sent ++ told })

theorem write_notify_run (d : StoredData) (c : Change) (s : Store) :
    (do write d; notify c : StoreM Unit).run s = carriedOut d [c] () s := by
  rw [run_bind, write_run, carriedOut]
  cases s.writeFault <;> rfl

variable {s : Store} {d : StoredData}

def Refuses (m : StoreM α) (s : Store) : Prop := ∃ failure, m.run s = (.error failure, s)

theorem throw_refuses (failure : Failure) (s : Store) : Refuses (throw failure : StoreM α) s :=
  ⟨failure, rfl⟩

theorem ite_refuses {c : Prop} [Decidable c] {m m' : StoreM α} (h : Refuses m s) (h' : Refuses m' s) :
    Refuses (if c then m else m') s := by
  split
  · exact h
  · exact h'

theorem load_refuses {failure : Failure} (h : s.file.data = .error failure) (k : StoredData → StoreM α) :
    Refuses (load >>= k) s := by
  refine ⟨failure, ?_⟩
  rw [run_bind, run_load, h]

def filed (categories : List Text) (category : Option Text) : List Text :=
  (withCategory categories category).getD categories

theorem foldl_withCategory (category : Option Text) (d : StoredData) :
    ((withCategory d.categories category).toList.map Change.categories).foldl StoredData.apply d =
      { d with categories := filed d.categories category } := by
  rw [filed]
  cases withCategory d.categories category <;> rfl

section Loaded

variable (hd : s.file.data = .ok d)
include hd

theorem load_bind_run (k : StoredData → StoreM α) : (load >>= k).run s = (k d).run s := by
  rw [run_bind, run_load, hd]

theorem loadSnippets_run : loadSnippets.run s = (.ok d.snippets, s) := by
  rw [loadSnippets, run_map_load, hd]
  rfl

theorem loadVariables_run : loadVariables.run s = (.ok d.vars, s) := by
  rw [loadVariables, run_map_load, hd]
  rfl

theorem saveSnippet_run (ids : IdSource) (new : Snippet) :
    (saveSnippet ids new).run s =
      if Text.isBlank new.shortcut then
        (.error (.config "shortcut must not be empty".toList), s)
      else if shortcutTaken d.snippets new then (.error (.duplicateShortcut new.shortcut), s)
      else
        let (saved, snippets, made) := placeSnippet ids s.issued d.snippets new
        carriedOut { d with snippets, categories := filed d.categories new.category }
          (.snippets snippets :: (withCategory d.categories new.category).toList.map .categories) saved
          { s with issued := s.issued ++ made } := by
  rcases hplaced : placeSnippet ids s.issued d.snippets new with ⟨saved, snippets, made⟩
  rw [saveSnippet, run_ite, load_bind_run hd, run_ite, run_bind, run_get]
  simp only [hplaced, run_bind, issue_run, write_run, filed, carriedOut]
  rcases withCategory d.categories new.category with _ | categories
  · cases s.writeFault <;> rfl
  · cases hfault : s.writeFault with
    | some fault => rfl
    | none =>
      simp only [notify_run, run_bind, run_pure, List.append_assoc]
      rfl

theorem deleteSnippet_run (id : Text) :
    (deleteSnippet id).run s =
      let snippets := d.snippets.filter (·.id ≠ id)
      if snippets.length = d.snippets.length then
        (.error (.notFound (Failure.naming "snippet" id)), s)
      else carriedOut { d with snippets } [.snippets snippets] () s := by
  rw [deleteSnippet, load_bind_run hd]
  simp only [run_ite, run_throw, write_notify_run]

theorem replaceSnippets_run (snippets : List Snippet) :
    (replaceSnippets snippets).run s = carriedOut { d with snippets } [.snippets snippets] () s := by
  rw [replaceSnippets, load_bind_run hd, write_notify_run]

theorem saveCategory_run (name : Text) :
    (saveCategory name).run s =
      if (Text.trim name).isEmpty then (.error (.config "category must not be empty".toList), s)
      else if d.categories.contains (Text.trim name) then (.ok (), s)
      else
        let categories := d.categories ++ [Text.trim name]
        carriedOut { d with categories } [.categories categories] () s := by
  rw [saveCategory]
  simp only [run_ite, load_bind_run hd, run_pure, write_notify_run]
  rfl

theorem saveVariable_run (name value : Text) (oldName : Option Text) :
    (saveVariable name value oldName).run s =
      if Text.isBlank (Variables.cleanName name) then
        (.error (.config "variable name must not be empty".toList), s)
      else
        let vars := (withoutOld d.vars (Variables.cleanName name) oldName).insert
          (Variables.cleanName name) value
        carriedOut { d with vars } [.vars vars] () s := by
  rw [saveVariable]
  simp only [run_ite, load_bind_run hd, write_notify_run]
  rfl

theorem deleteVariable_run (name : Text) :
    (deleteVariable name).run s =
      if d.vars.contains (Variables.cleanName name) then
        let vars := d.vars.erase (Variables.cleanName name)
        carriedOut { d with vars } [.vars vars] () s
      else (.error (.notFound (Failure.naming "variable" (Variables.cleanName name))), s) := by
  rw [deleteVariable]
  simp only [load_bind_run hd, run_ite, run_throw, write_notify_run]

theorem replaceVariables_run (vars : Variables) :
    (replaceVariables vars).run s = carriedOut { d with vars } [.vars vars] () s := by
  rw [replaceVariables, load_bind_run hd, write_notify_run]

theorem saveAi_run (ai : AiConfig) :
    (saveAi ai).run s =
      match ai.selected.filter fun provider => (ai.key provider).isNone with
      | some provider =>
        (.error (.config
          (Failure.naming "an API key is required for the selected provider" provider.name)), s)
      | none => carriedOut { d with ai } [.ai ai] () s := by
  rw [saveAi]
  cases ai.selected.filter fun provider => (ai.key provider).isNone with
  | some provider => rfl
  | none =>
    simp only [load_bind_run hd, write_notify_run]

/-- An import loads twice, to merge and to replace, and nothing comes in between. -/
theorem importSnippets_run (ids : IdSource) {content : Text} {incoming : List Snippet}
    (hincoming : Snippet.parseImport content = .ok incoming) (policy : ConflictPolicy) :
    (importSnippets ids content policy).run s =
      let m := mergeSnippets ids s.issued (fun _ _ _ => policy) d.snippets incoming
      if m.snippets = d.snippets then (.ok m.report, { s with issued := m.issued })
      else carriedOut { d with snippets := m.snippets } [.snippets m.snippets] m.report
        { s with issued := m.issued } := by
  rw [importSnippets, hincoming]
  simp only [run_bind, loadSnippets_run hd, run_get, run_modify]
  split
  · rfl
  · have hagain : ({ s with issued := (mergeSnippets ids s.issued (fun _ _ _ => policy) d.snippets
        incoming).issued } : Store).file.data = .ok d := hd
    rw [run_bind, replaceSnippets_run hagain, carriedOut, carriedOut]
    cases s.writeFault <;> rfl

theorem importVariables_run {content : Text} {incoming : Variables}
    (hincoming : Variables.parseImport content = .ok incoming) (policy : ConflictPolicy) :
    (importVariables content policy).run s =
      let m := mergeVariables (fun _ _ _ _ => policy) d.vars incoming
      if m.vars = d.vars then (.ok m.report, s)
      else carriedOut { d with vars := m.vars } [.vars m.vars] m.report s := by
  rw [importVariables, hincoming]
  simp only [run_bind, loadVariables_run hd]
  split
  · rfl
  · rw [run_bind, replaceVariables_run hd, carriedOut, carriedOut]
    cases s.writeFault <;> rfl

end Loaded

/-- Whether a store has come from one state to another in keeping with how an operation ended. -/
def Honest (before : Store) : Except Failure α × Store → Prop
  | (.error _, after) => after.file = before.file ∧ after.sent = before.sent
  | (.ok _, after) => ∃ d told, before.file.data = .ok d ∧ after.sent = before.sent ++ told ∧
      after.file.data = .ok (told.foldl StoredData.apply d)

theorem refused_honest (failure : Failure) : Honest s ((.error failure, s) : Except Failure α × Store) :=
  ⟨rfl, rfl⟩

section Loaded

variable (hd : s.file.data = .ok d)
include hd

theorem unchanged_honest (a : α) (made : List Text) : Honest s (.ok a, { s with issued := made }) :=
  ⟨d, [], hd, (List.append_nil _).symm, hd⟩

/-- What is told has to lead from the document that was loaded to the one that is written. -/
theorem carriedOut_honest {d' : StoredData} {told : List Change} (a : α) (made : List Text)
    (htold : told.foldl StoredData.apply d = d') :
    Honest s (carriedOut d' told a { s with issued := made }) := by
  unfold carriedOut
  cases s.writeFault with
  | some fault => exact ⟨rfl, rfl⟩
  | none =>
    refine ⟨d, told, hd, rfl, ?_⟩
    rw [htold]
    exact File.data_write d'

theorem saveSnippet_honest (ids : IdSource) (new : Snippet) :
    Honest s ((saveSnippet ids new).run s) := by
  rw [saveSnippet_run hd]
  split
  · exact refused_honest _
  · split
    · exact refused_honest _
    · exact carriedOut_honest hd _ _ (foldl_withCategory new.category { d with snippets := _ })

theorem deleteSnippet_honest (id : Text) : Honest s ((deleteSnippet id).run s) := by
  rw [deleteSnippet_run hd]
  dsimp only
  split
  · exact refused_honest _
  · exact carriedOut_honest hd _ _ rfl

theorem replaceSnippets_honest (snippets : List Snippet) :
    Honest s ((replaceSnippets snippets).run s) := by
  rw [replaceSnippets_run hd]
  exact carriedOut_honest hd _ _ rfl

theorem saveCategory_honest (name : Text) : Honest s ((saveCategory name).run s) := by
  rw [saveCategory_run hd]
  split
  · exact refused_honest _
  · split
    · exact unchanged_honest hd _ _
    · exact carriedOut_honest hd _ _ rfl

theorem saveVariable_honest (name value : Text) (oldName : Option Text) :
    Honest s ((saveVariable name value oldName).run s) := by
  rw [saveVariable_run hd]
  split
  · exact refused_honest _
  · exact carriedOut_honest hd _ _ rfl

theorem deleteVariable_honest (name : Text) : Honest s ((deleteVariable name).run s) := by
  rw [deleteVariable_run hd]
  split
  · exact carriedOut_honest hd _ _ rfl
  · exact refused_honest _

theorem replaceVariables_honest (vars : Variables) : Honest s ((replaceVariables vars).run s) := by
  rw [replaceVariables_run hd]
  exact carriedOut_honest hd _ _ rfl

theorem saveAi_honest (ai : AiConfig) : Honest s ((saveAi ai).run s) := by
  rw [saveAi_run hd]
  split
  · exact refused_honest _
  · exact carriedOut_honest hd _ _ rfl

theorem importSnippets_honest (ids : IdSource) (content : Text) (policy : ConflictPolicy) :
    Honest s ((importSnippets ids content policy).run s) := by
  cases hincoming : Snippet.parseImport content with
  | error failure =>
    rw [importSnippets, hincoming]
    exact refused_honest _
  | ok incoming =>
    rw [importSnippets_run hd ids hincoming]
    dsimp only
    split
    · exact unchanged_honest hd _ _
    · exact carriedOut_honest hd _ _ rfl

theorem importVariables_honest (content : Text) (policy : ConflictPolicy) :
    Honest s ((importVariables content policy).run s) := by
  cases hincoming : Variables.parseImport content with
  | error failure =>
    rw [importVariables, hincoming]
    exact refused_honest _
  | ok incoming =>
    rw [importVariables_run hd hincoming]
    dsimp only
    split
    · exact unchanged_honest hd _ _
    · exact carriedOut_honest hd _ _ rfl

end Loaded
end Store

inductive Operation where
  | saveSnippet (s : Snippet)
  | deleteSnippet (id : Text)
  | replaceSnippets (snippets : List Snippet)
  | saveCategory (name : Text)
  | saveVariable (name value : Text) (oldName : Option Text)
  | deleteVariable (name : Text)
  | replaceVariables (vars : Variables)
  | saveAi (ai : AiConfig)
  | importSnippets (content : Text) (policy : ConflictPolicy)
  | importVariables (content : Text) (policy : ConflictPolicy)
  deriving Repr, DecidableEq

namespace Operation

def Result : Operation → Type
  | saveSnippet _ => Snippet
  | importSnippets _ _ | importVariables _ _ => Report
  | _ => Unit

def perform (ids : IdSource) : (op : Operation) → StoreM op.Result
  | saveSnippet s => Store.saveSnippet ids s
  | deleteSnippet id => Store.deleteSnippet id
  | replaceSnippets snippets => Store.replaceSnippets snippets
  | saveCategory name => Store.saveCategory name
  | saveVariable name value oldName => Store.saveVariable name value oldName
  | deleteVariable name => Store.deleteVariable name
  | replaceVariables vars => Store.replaceVariables vars
  | saveAi ai => Store.saveAi ai
  | importSnippets content policy => Store.importSnippets ids content policy
  | importVariables content policy => Store.importVariables content policy

theorem perform_refuses (ids : IdSource) (op : Operation) {s : Store} {failure : Failure}
    (h : s.file.data = .error failure) : Store.Refuses (op.perform ids) s := by
  cases op with
  | saveSnippet new => exact Store.ite_refuses (Store.throw_refuses _ s) (Store.load_refuses h _)
  | deleteSnippet id => exact Store.load_refuses h _
  | replaceSnippets snippets => exact Store.load_refuses h _
  | saveCategory name => exact Store.ite_refuses (Store.throw_refuses _ s) (Store.load_refuses h _)
  | saveVariable name value oldName =>
    exact Store.ite_refuses (Store.throw_refuses _ s) (Store.load_refuses h _)
  | deleteVariable name => exact Store.load_refuses h _
  | replaceVariables vars => exact Store.load_refuses h _
  | saveAi ai =>
    rw [perform, Store.saveAi]
    split
    · exact Store.throw_refuses _ s
    · exact Store.load_refuses h _
  | importSnippets content policy =>
    rw [perform, Store.importSnippets]
    split
    · exact Store.throw_refuses _ s
    · rw [Store.loadSnippets, bind_map_left]
      exact Store.load_refuses h _
  | importVariables content policy =>
    rw [perform, Store.importVariables]
    split
    · exact Store.throw_refuses _ s
    · rw [Store.loadVariables, bind_map_left]
      exact Store.load_refuses h _

theorem perform_honest (ids : IdSource) (op : Operation) (s : Store) :
    Store.Honest s ((op.perform ids).run s) := by
  cases hd : s.file.data with
  | error failure =>
    obtain ⟨failure', hrun⟩ := op.perform_refuses ids hd
    rw [hrun]
    exact Store.refused_honest failure'
  | ok d =>
    cases op with
    | saveSnippet new => exact Store.saveSnippet_honest hd ids new
    | deleteSnippet id => exact Store.deleteSnippet_honest hd id
    | replaceSnippets snippets => exact Store.replaceSnippets_honest hd snippets
    | saveCategory name => exact Store.saveCategory_honest hd name
    | saveVariable name value oldName => exact Store.saveVariable_honest hd name value oldName
    | deleteVariable name => exact Store.deleteVariable_honest hd name
    | replaceVariables vars => exact Store.replaceVariables_honest hd vars
    | saveAi ai => exact Store.saveAi_honest hd ai
    | importSnippets content policy => exact Store.importSnippets_honest hd ids content policy
    | importVariables content policy => exact Store.importVariables_honest hd content policy

/-- An operation that fails changes no file and tells nothing; of one that succeeds, the changes it
tells, done in order to the data loaded before, give the data loaded after. -/
theorem told_changes_replay (ids : IdSource) (op : Operation) (s : Store) :
    match (op.perform ids).run s with
    | (.error _, after) => after.file = s.file ∧ after.sent = s.sent
    | (.ok _, after) => ∃ d told, (Store.load.run s).1 = .ok d ∧ after.sent = s.sent ++ told ∧
        (Store.load.run after).1 = .ok (told.foldl StoredData.apply d) := by
  have h := perform_honest ids op s
  rcases hrun : (op.perform ids).run s with ⟨failure | result, after⟩ <;> rw [hrun] at h
  · exact h
  · obtain ⟨d, told, hbefore, hsent, hafter⟩ := h
    exact ⟨d, told, hbefore, hsent, hafter⟩

end Operation
end SnippetExpansion

import SnippetExpansion.Api.Basic
import SnippetExpansion.Proofs.Store.ByShortcut

/-! # Requests that change snippets
A client can have a snippet added, updated or deleted. Where identifiers are distinct each of these comes to
one snippet and leaves all others as they are and where they are. It is done, and the answer says so, exactly
if the snippets allow for it and the file can be written; otherwise nothing is changed. -/
namespace SnippetExpansion

open Snippet (nodup_map_middle shortcuts)

namespace Store

variable {α : Type} {m : StoreM α} {s : Store} {d : StoredData}

/-- An operation that gives a result and leaves such snippets where it is met, and otherwise fails and leaves
the data as they are. -/
def Ends (m : StoreM α) (s : Store) (d : StoredData) (met : Prop) (Gives : α → List Snippet → Prop) :
    Prop :=
  (met ∧ ∃ a s' d', m.run s = (.ok a, s') ∧ s'.file.data = .ok d' ∧ Gives a d'.snippets) ∨
    ¬met ∧ ∃ failure s', m.run s = (.error failure, s') ∧ s'.file.data = .ok d

namespace Ends

variable {met met' : Prop} {Gives Gives' : α → List Snippet → Prop}

theorem imp (h : Ends m s d met Gives) (hmet : met ↔ met')
    (hgives : met → ∀ a snippets, Gives a snippets → Gives' a snippets) : Ends m s d met' Gives' := by
  rcases h with ⟨hdone, a, s', d', hrun, hd', ha⟩ | ⟨hrefused, hfails⟩
  · exact .inl ⟨hmet.1 hdone, a, s', d', hrun, hd', hgives hdone a _ ha⟩
  · exact .inr ⟨mt hmet.2 hrefused, hfails⟩

theorem of_run {m' : StoreM α} (h : Ends m s d met Gives) (hrun : m'.run s = m.run s) :
    Ends m' s d met Gives := by
  rw [Ends, hrun]
  exact h

theorem of_refused {failure : Failure} (hd : s.file.data = .ok d) (hrun : m.run s = (.error failure, s))
    (hmet : ¬met) : Ends m s d met Gives :=
  .inr ⟨hmet, failure, s, hrun, hd⟩

theorem of_carriedOut {allowed : Prop} {d' : StoredData} {told : List Change} {a : α} {made : List Text}
    (hd : s.file.data = .ok d) (hrun : m.run s = carriedOut d' told a { s with issued := made })
    (hallowed : allowed) (hgives : Gives a d'.snippets) :
    Ends m s d (allowed ∧ s.writeFault = none) Gives := by
  cases hfault : s.writeFault with
  | none =>
    obtain ⟨s', hdone, hd'⟩ : ∃ s', carriedOut d' told a { s with issued := made } = (.ok a, s') ∧
        (load.run s').1 = .ok d' := carriedOut_loads hfault
    exact .inl ⟨⟨hallowed, rfl⟩, a, s', d', hrun.trans hdone, hd', hgives⟩
  | some fault =>
    refine .inr ⟨nofun, .file fault, { s with issued := made }, hrun.trans ?_, hd⟩
    simp only [carriedOut, hfault]

end Ends

theorem shortcutTaken_eq_false_iff {snippets : List Snippet} {new : Snippet} :
    shortcutTaken snippets new = false ↔
      ∀ x ∈ snippets, x.shortcut = new.shortcut → new.id ≠ [] ∧ x.id = new.id := by
  rw [shortcutTaken, List.any_eq_false]
  refine forall₂_congr fun x _ => ?_
  simp

theorem saveSnippet_ends (ids : IdSource) (hd : s.file.data = .ok d) (new : Snippet) :
    Ends (saveSnippet ids new) s d
      ((¬Text.isBlank new.shortcut ∧ shortcutTaken d.snippets new = false) ∧ s.writeFault = none)
      fun saved after => saved = (placeSnippet ids s.issued d.snippets new).1 ∧
        after = (placeSnippet ids s.issued d.snippets new).2.1 := by
  have hrun := saveSnippet_run hd ids new
  by_cases hblank : Text.isBlank new.shortcut
  · rw [if_pos hblank] at hrun
    exact .of_refused hd hrun fun hmet => hmet.1.1 hblank
  · rw [if_neg hblank] at hrun
    cases htaken : shortcutTaken d.snippets new with
    | true =>
      rw [if_pos htaken] at hrun
      exact .of_refused hd hrun fun hmet => Bool.false_ne_true hmet.1.2.symm
    | false =>
      rw [if_neg (ne_true_of_eq_false htaken)] at hrun
      exact .of_carriedOut hd hrun ⟨hblank, rfl⟩ ⟨rfl, rfl⟩

theorem placeSnippet_nil (ids : IdSource) (issued : List Text) (snippets : List Snippet) (new : Snippet) :
    placeSnippet ids issued snippets { new with id := [] } =
      ({ new with id := ids.next (issued ++ Snippet.ids snippets) },
        snippets ++ [{ new with id := ids.next (issued ++ Snippet.ids snippets) }],
        [ids.next (issued ++ Snippet.ids snippets)]) := by
  have hnone : snippets.findIdx? (fun other => !([] : Text).isEmpty && other.id = []) = none :=
    List.findIdx?_eq_none_iff.2 fun _ _ => rfl
  rw [placeSnippet, hnone]
  rfl

end Store

/-- What a client can have done to the snippets. -/
inductive SnippetRequest where
  | add (snippet : Snippet)
  | update (snippet : Snippet)
  | delete (id : Text)

namespace SnippetRequest

def route : SnippetRequest → Route
  | add new => .addSnippet new
  | update new => .updateSnippet new
  | delete id => .deleteSnippet id

def task : SnippetRequest → String
  | add _ => "add snippet"
  | update _ => "update snippet"
  | delete _ => "delete snippet"

/-- Whether the snippets allow for the request. -/
def Allowed (snippets : List Snippet) : SnippetRequest → Prop
  | add new => ¬Text.isBlank new.shortcut ∧ new.shortcut ∉ shortcuts snippets
  | update new => (new.id ≠ [] ∧ new.id ∈ Snippet.ids snippets) ∧ ¬Text.isBlank new.shortcut ∧
      ∀ x ∈ snippets, x.shortcut = new.shortcut → x.id = new.id
  | delete id => id ∈ Snippet.ids snippets

/-- What a request makes of the snippets, with the data of its answer. These identifiers have been issued
before. -/
inductive Done (issued : List Text) (before : List Snippet) :
    SnippetRequest → Json → List Snippet → Prop where
  | added {new : Snippet} {id : Text} : id ≠ [] → id ∉ issued → id ∉ Snippet.ids before →
      Done issued before (.add new) (Snippet.toJson { new with id }) (before ++ [{ new with id }])
  | updated {new old : Snippet} {front back : List Snippet} : before = front ++ old :: back →
      old.id = new.id → (∀ x ∈ front ++ back, x.id ≠ new.id) →
      Done issued before (.update new) new.toJson (front ++ new :: back)
  | deleted {id : Text} {old : Snippet} {front back : List Snippet} : before = front ++ old :: back →
      old.id = id → (∀ x ∈ front ++ back, x.id ≠ id) →
      Done issued before (.delete id) .null (front ++ back)

theorem Done.ids_nodup {issued : List Text} {before after : List Snippet} {request : SnippetRequest}
    {data : Json} (hdone : Done issued before request data after)
    (hdistinct : (Snippet.ids before).Nodup) : (Snippet.ids after).Nodup := by
  cases hdone with
  | added _ _ hfresh => exact Snippet.nodup_map_append hdistinct hfresh
  | updated hsplit _ hothers =>
    rw [hsplit] at hdistinct
    exact nodup_map_middle.2 ⟨hothers, (nodup_map_middle.1 hdistinct).2⟩
  | deleted hsplit _ _ =>
    rw [hsplit] at hdistinct
    exact (nodup_map_middle.1 hdistinct).2

theorem Done.shortcuts_nodup {issued : List Text} {before after : List Snippet}
    {request : SnippetRequest} {data : Json} (hdone : Done issued before request data after)
    (hallowed : request.Allowed before) (h : (shortcuts before).Nodup) : (shortcuts after).Nodup := by
  cases hdone with
  | added => exact Snippet.nodup_map_append h hallowed.2
  | @updated new old front back hsplit hold hothers =>
    obtain ⟨-, -, hfree⟩ := hallowed
    rw [hsplit] at h hfree
    refine nodup_map_middle.2 ⟨fun x hx hsame => ?_, (nodup_map_middle.1 h).2⟩
    -- Another snippet with the new shortcut would be the one that is updated.
    have hbefore : x ∈ front ++ old :: back :=
      ((List.sublist_cons_self old back).append_left front).mem hx
    exact hothers x hx (hfree x hbefore hsame)
  | deleted hsplit _ _ =>
    rw [hsplit] at h
    exact (nodup_map_middle.1 h).2

end SnippetRequest

theorem Snippet.exists_split {snippets : List Snippet} {id : Text}
    (hdistinct : (Snippet.ids snippets).Nodup) (hid : id ∈ Snippet.ids snippets) :
    ∃ front old back, snippets = front ++ old :: back ∧ old.id = id ∧
      ∀ x ∈ front ++ back, x.id ≠ id := by
  obtain ⟨old, hold, rfl⟩ := List.mem_map.1 hid
  obtain ⟨front, back, rfl⟩ := List.append_of_mem hold
  exact ⟨front, old, back, rfl, rfl, (nodup_map_middle.1 hdistinct).1⟩

namespace Store

open SnippetRequest (Done)

variable {s : Store} {d : StoredData} (ids : IdSource) (hd : s.file.data = .ok d)
include hd

theorem addSnippet_ends (new : Snippet) :
    Ends (addSnippet ids new) s d
      ((SnippetRequest.add new).Allowed d.snippets ∧ s.writeFault = none)
      fun saved after => Done s.issued d.snippets (.add new) saved.toJson after := by
  refine (saveSnippet_ends ids hd { new with id := [] }).imp (and_congr_left' ?_) ?_
  · refine and_congr_right' ?_
    rw [shortcutTaken_eq_false_iff]
    constructor
    · intro hfree hmem
      obtain ⟨x, hx, hsame⟩ := List.mem_map.1 hmem
      exact (hfree x hx hsame).1 rfl
    · intro hfree x hx hsame
      exact absurd (List.mem_map.2 ⟨x, hx, hsame⟩) hfree
  · rintro - saved after ⟨rfl, rfl⟩
    rw [placeSnippet_nil]
    have hfresh := ids.next_not_mem (s.issued ++ Snippet.ids d.snippets)
    obtain ⟨hissued, hids⟩ := not_or.1 (mt List.mem_append.2 hfresh)
    exact .added (ids.next_ne_nil _) hissued hids

theorem updateSnippet_ends (hdistinct : (Snippet.ids d.snippets).Nodup) (new : Snippet) :
    Ends (updateSnippet ids new) s d
      ((SnippetRequest.update new).Allowed d.snippets ∧ s.writeFault = none)
      fun saved after => Done s.issued d.snippets (.update new) saved.toJson after := by
  -- Whether the snippet is known is what tells the two results of the operation apart.
  have hrun : (updateSnippet ids new).run s =
      (if d.snippets.any fun other => !new.id.isEmpty && other.id = new.id then saveSnippet ids new
        else throw (.notFound (Failure.naming "snippet" new.id))).run s := by
    rw [updateSnippet, run_bind, loadSnippets_run hd]
  have hknown : (d.snippets.any fun other => !new.id.isEmpty && other.id = new.id) ↔
      new.id ≠ [] ∧ new.id ∈ Snippet.ids d.snippets := by
    rw [List.any_eq_true, Snippet.ids, List.mem_map]
    constructor
    · rintro ⟨x, hx, hsame⟩
      rw [Bool.and_eq_true, Bool.not_eq_true', List.isEmpty_eq_false_iff, decide_eq_true_eq] at hsame
      exact ⟨hsame.1, x, hx, hsame.2⟩
    · rintro ⟨hid, x, hx, hsame⟩
      exact ⟨x, hx, by simp [hid, hsame]⟩
  by_cases h : new.id ≠ [] ∧ new.id ∈ Snippet.ids d.snippets
  · rw [if_pos (hknown.2 h)] at hrun
    refine ((saveSnippet_ends ids hd new).of_run hrun).imp (and_congr_left' ?_) ?_
    · rw [shortcutTaken_eq_false_iff]
      constructor
      · rintro ⟨hblank, hfree⟩
        exact ⟨h, hblank, fun x hx hsame => (hfree x hx hsame).2⟩
      · rintro ⟨-, hblank, hfree⟩
        exact ⟨hblank, fun x hx hsame => ⟨h.1, hfree x hx hsame⟩⟩
    · rintro - saved after ⟨rfl, rfl⟩
      obtain ⟨front, old, back, hsplit, hold, hothers⟩ := Snippet.exists_split hdistinct h.2
      rw [hsplit, placeSnippet_first h.1 hold fun x hx => hothers x (List.mem_append_left _ hx)]
      exact .updated rfl hold hothers
  · rw [if_neg (mt hknown.1 h)] at hrun
    exact .of_refused hd hrun fun hmet => h hmet.1.1

theorem deleteSnippet_ends (hdistinct : (Snippet.ids d.snippets).Nodup) (id : Text) :
    Ends (deleteSnippet id) s d
      ((SnippetRequest.delete id).Allowed d.snippets ∧ s.writeFault = none)
      fun _ after => Done s.issued d.snippets (.delete id) .null after := by
  have hsame : (d.snippets.filter (·.id ≠ id)).length = d.snippets.length ↔
      id ∉ Snippet.ids d.snippets := by
    rw [List.length_filter_eq_length_iff, Snippet.ids, List.mem_map]
    simp
  have hrun := deleteSnippet_run hd id
  by_cases hid : id ∈ Snippet.ids d.snippets
  · refine .of_carriedOut hd (hrun.trans (if_neg fun hlength => hsame.1 hlength hid)) hid ?_
    obtain ⟨front, old, back, hsplit, hold, hothers⟩ := Snippet.exists_split hdistinct hid
    have hrest : d.snippets.filter (·.id ≠ id) = front ++ back := by
      rw [hsplit, List.filter_append, List.filter_cons_of_neg (by simpa using hold),
        ← List.filter_append, List.filter_eq_self]
      intro x hx
      exact decide_eq_true (hothers x hx)
    change Done s.issued d.snippets (.delete id) .null (d.snippets.filter (·.id ≠ id))
    rw [hrest]
    exact .deleted hsplit hold hothers
  · exact .of_refused hd (hrun.trans (if_pos (hsame.2 hid))) fun hmet => hid hmet.1

end Store

namespace Api

open SnippetRequest (Done)

variable {α : Type} {d : StoredData}

theorem onStore_done {api : Api} {store : Store} {m : StoreM α} {a : α} (what : String)
    (toJson : α → Json) (h : m.run api.store = (.ok a, store)) :
    (onStore what toJson m).run api = .done (success (toJson a), { api with store }) := by
  simp only [onStore, StateT.run_bind, StateT.run_get, pure_bind, h]
  rfl

theorem onStore_failed {api : Api} {store : Store} {m : StoreM α} {failure : Failure} (what : String)
    (toJson : α → Json) (h : m.run api.store = (.error failure, store)) :
    (onStore what toJson m).run api =
      .done (failed ("Failed to ".toList ++ what.toList ++ ": ".toList ++ failure.message),
        { api with store }) := by
  simp only [onStore, StateT.run_bind, StateT.run_get, pure_bind, h]
  rfl

/-- A request that is answered with such data and leaves such snippets where it is met, and otherwise is
answered with what went wrong and leaves the data as they are. -/
def Answers (m : ApiM Content) (task : String) (api : Api) (d : StoredData) (met : Prop)
    (Gives : Json → List Snippet → Prop) : Prop :=
  ∃ answer api' d', m.run api = .done (.json answer, api') ∧ api'.store.file.data = .ok d' ∧
    (met ∧ (∃ data, answer = success data ∧ Gives data d'.snippets) ∨
      ¬met ∧ (∃ failure : Failure, answer =
        failed ("Failed to ".toList ++ task.toList ++ ": ".toList ++ failure.message)) ∧ d' = d)

theorem onStore_answers {api : Api} {m : StoreM α} {met : Prop} {Gives : Json → List Snippet → Prop}
    (what : String) (toJson : α → Json)
    (h : Store.Ends m api.store d met fun a after => Gives (toJson a) after) :
    Answers (.json <$> onStore what toJson m) what api d met Gives := by
  rcases h with ⟨hmet, a, s', d', hrun, hd', hgives⟩ | ⟨hmet, failure, s', hrun, hd'⟩
  · refine ⟨success (toJson a), { api with store := s' }, d', ?_, hd', .inl ⟨hmet, _, rfl, hgives⟩⟩
    rw [StateT.run_map, onStore_done what toJson hrun]
    rfl
  · refine ⟨_, { api with store := s' }, d, ?_, hd', .inr ⟨hmet, ⟨failure, rfl⟩, rfl⟩⟩
    rw [StateT.run_map, onStore_failed what toJson hrun]
    rfl

theorem handle_run {ids : IdSource} {settings : Settings} {r : HttpRequest} {route : Route}
    {api api' : Api} {content : Content} (hroute : Route.ofRequest r = .ok route)
    (hserve : (serve ids settings route).run api = .done (content, api')) :
    (handle ids settings r).run api = .done (⟨200, content⟩, catchUp api') := by
  simp only [handle, hroute, StateT.run_bind, StateT.run_map, hserve]
  rfl

theorem serve_answers (ids : IdSource) (settings : Settings) {api : Api} (request : SnippetRequest)
    (hd : api.store.file.data = .ok d) (hdistinct : (Snippet.ids d.snippets).Nodup) :
    Answers (serve ids settings request.route) request.task api d
      (request.Allowed d.snippets ∧ api.store.writeFault = none)
      (Done api.store.issued d.snippets request) := by
  cases request with
  | add new => exact onStore_answers "add snippet" Snippet.toJson (Store.addSnippet_ends ids hd new)
  | update new =>
    exact onStore_answers "update snippet" Snippet.toJson
      (Store.updateSnippet_ends ids hd hdistinct new)
  | delete id =>
    exact onStore_answers "delete snippet" unitJson (Store.deleteSnippet_ends hd hdistinct id)

/-- Where identifiers are distinct, what a client has done to the snippets is done to one of them. It is
answered as done exactly if the snippets allow for it and the file can be written, and nothing is changed
otherwise. Identifiers stay distinct, and so do shortcuts. -/
theorem snippet_request_comes_to_one (ids : IdSource) (settings : Settings) {api : Api}
    (request : SnippetRequest) (hd : api.store.file.data = .ok d)
    (hdistinct : (Snippet.ids d.snippets).Nodup) :
    ∃ answer api' d', (serve ids settings request.route).run api = .done (.json answer, api') ∧
      (∀ r, Route.ofRequest r = .ok request.route →
        (handle ids settings r).run api = .done (⟨200, .json answer⟩, catchUp api')) ∧
      api'.store.file.data = .ok d' ∧
      ((request.Allowed d.snippets ∧ api.store.writeFault = none) ∧
          (∃ data, answer = success data ∧
            Done api.store.issued d.snippets request data d'.snippets) ∨
        ¬(request.Allowed d.snippets ∧ api.store.writeFault = none) ∧
          (∃ failure : Failure, answer =
            failed ("Failed to ".toList ++ request.task.toList ++ ": ".toList ++ failure.message)) ∧
          d' = d) ∧
      (Snippet.ids d'.snippets).Nodup ∧
      ((shortcuts d.snippets).Nodup → (shortcuts d'.snippets).Nodup) := by
  obtain ⟨answer, api', d', hserve, hd', hends⟩ :=
    serve_answers ids settings request hd hdistinct
  refine ⟨answer, api', d', hserve, fun r hroute => handle_run hroute hserve, hd', hends, ?_⟩
  rcases hends with ⟨⟨hallowed, -⟩, data, -, hdone⟩ | ⟨-, -, rfl⟩
  · exact ⟨hdone.ids_nodup hdistinct, hdone.shortcuts_nodup hallowed⟩
  · exact ⟨hdistinct, id⟩

namespace TwoSnippets

def snippet (id shortcut text : Char) : Snippet := ⟨[id], [shortcut], [text], none⟩

def data : StoredData :=
  { StoredData.empty with snippets := [snippet '1' 'a' 'x', snippet '2' 'b' 'y'] }

def api : Api := ⟨.ofFile (.text data.write), ⟨.ofStoredData data, ⟨0⟩⟩⟩

/-- One of two snippets is given another shortcut and another text. -/
theorem first_updated :
    api.store.file.data = .ok data ∧ (Snippet.ids data.snippets).Nodup ∧
    ∃ api' d', (serve (.guessing fun _ => ['3']) .standard
        (.updateSnippet (snippet '1' 'c' 'z'))).run api =
          .done (.json (success (snippet '1' 'c' 'z').toJson), api') ∧
      api'.store.file.data = .ok d' ∧
      d'.snippets = [snippet '1' 'c' 'z', snippet '2' 'b' 'y'] := by
  have hdata : api.store.file.data = .ok data := File.data_write data
  have hdistinct : (Snippet.ids data.snippets).Nodup := by decide
  have hallowed : (SnippetRequest.update (snippet '1' 'c' 'z')).Allowed data.snippets :=
    ⟨by decide, by decide, by decide⟩
  refine ⟨hdata, hdistinct, ?_⟩
  obtain ⟨answer, api', d', hserve, -, hd', ⟨-, answered, rfl, hdone⟩ | ⟨hrefused, -⟩, -⟩ :=
    snippet_request_comes_to_one (.guessing fun _ => ['3']) .standard
      (.update (snippet '1' 'c' 'z')) hdata hdistinct
  · generalize hafter : d'.snippets = after at hdone
    cases hdone with
    | @updated _ old front back hsplit hold hothers =>
      refine ⟨api', d', hserve, hd', hafter.trans ?_⟩
      cases front with
      | nil =>
        obtain ⟨-, rfl⟩ := List.cons.inj hsplit
        rfl
      | cons x front =>
        obtain ⟨rfl, -⟩ := List.cons.inj hsplit
        exact (hothers _ List.mem_cons_self rfl).elim
  · exact absurd ⟨hallowed, rfl⟩ hrefused

end TwoSnippets

end Api

end SnippetExpansion

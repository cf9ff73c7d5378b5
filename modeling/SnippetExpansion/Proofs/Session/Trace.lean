import SnippetExpansion.Session.Detection
import SnippetExpansion.Proofs.Session.PlainField
import SnippetExpansion.Proofs.Session.Steps

/-! # All that happens between an edit and its end
Work that is alone in a session makes its calls on one surface and takes its time. What an edit of a plain field
comes to in this way is told by the steps that the pieces of the snippet come to. -/
namespace SnippetExpansion

open Replacement (Step)

theorem MatchPolicy.mem_of_foldl_longer {best : Option Snippet} {found : List Snippet} {s : Snippet}
    (h : found.foldl longer best = some s) : s ∈ found ∨ best = some s := by
  induction found generalizing best with
  | nil => exact .inr h
  | cons other found ih =>
    rcases ih h with hmem | hbest
    · exact .inl (List.mem_cons_of_mem other hmem)
    · unfold longer at hbest
      split at hbest
      · obtain rfl := Option.some.inj hbest
        exact .inl List.mem_cons_self
      · split at hbest
        · exact .inr hbest
        · obtain rfl := Option.some.inj hbest
          exact .inl List.mem_cons_self

theorem MatchPolicy.mem_of_choose {policy : MatchPolicy} {found : List Snippet} {s : Snippet}
    (h : policy.choose found = some s) : s ∈ found := by
  cases policy with
  | firstInOrder => exact List.mem_of_head? h
  | longestSuffix => exact (mem_of_foldl_longer h).resolve_right nofun

theorem isSuffix_of_findTrigger {policy : MatchPolicy} {t : Text} {snippets : List Snippet} {s : Snippet}
    (h : findTrigger policy t snippets = some s) : s.shortcut <:+ t := by
  have htriggered := (List.mem_filter.1 (MatchPolicy.mem_of_choose h)).2
  rw [Snippet.triggeredBy, Bool.and_eq_true] at htriggered
  exact List.isSuffixOf_iff_suffix.1 htriggered.2

namespace Expansion

variable {σ α : Type}

def gather (outside : (r : Request) → StateM σ r.Answer) :
    (r : Request) → StateT (List Key) (StateM σ) r.Answer
  | .wait _ => pure ()
  | .press key => modify (· ++ [key])
  | .clipboard => StateT.lift (outside .clipboard)
  | .prompt label => StateT.lift (outside (.prompt label))
  | .generate provider key prompt => StateT.lift (outside (.generate provider key prompt))
  | .clock => StateT.lift (outside .clock)

def gathered (outside : (r : Request) → StateM σ r.Answer) (e : Expansion α) : StateM σ (α × List Key) :=
  (e.interpret (gather outside)).run []

end Expansion

def Piece.step {σ : Type} (outside : (r : Request) → StateM σ r.Answer) (s : Snapshot) (maxDepth : Nat) :
    Piece Unit → StateM σ Step
  | .plain t => pure (.add [] t)
  | .found token _ =>
    if isCursorMarker token then pure .mark
    else do
      let (value, keys) ← (execute s maxDepth token).gathered outside
      pure (.add keys value)

namespace Session

def after (s : Session) (index : Nat) (calls : List Call) (clock : Nat) : Session :=
  { s.onSite index (·.callAll calls) with clock }

theorem after_nil (s : Session) (index clock : Nat) : s.after index [] clock = { s with clock } := by
  have hsites : s.sites.modify index (·.callAll []) = s.sites := List.modify_id index s.sites
  rw [after, onSite, hsites]

theorem after_after (s : Session) (index : Nat) (calls calls' : List Call) (clock clock' : Nat) :
    (s.after index calls clock).after index calls' clock' = s.after index (calls ++ calls') clock' := by
  have hsites : (s.sites.modify index (·.callAll calls)).modify index (·.callAll calls') =
      s.sites.modify index (·.callAll (calls ++ calls')) := by
    rw [List.modify_modify_eq]
    congr 1
    funext site
    exact List.foldl_append.symm
  simp only [after, onSite, hsites]

variable {σ α β : Type} {outside : (r : Request) → StateM σ r.Answer} {maxDepth index : Nat}
  {s : Session} {w w' w'' : σ} {calls calls' : List Call} {a : α} {b : β}

variable (outside index s w) in
/-- Alone in a session, the work makes these calls on its surface and comes to this. -/
def Does (d : Work α) (calls : List Call) (a : α) (w' : σ) : Prop :=
  ∃ clock, ends outside index d s w = ((a, s.after index calls clock), w')

theorem does_pure : Does outside index s w (pure a) [] a w :=
  ⟨s.clock, by rw [after_nil]; rfl⟩

theorem Does.bind {d : Work α} {f : α → Work β} (h : Does outside index s w d calls a w')
    (hf : ∀ clock, Does outside index (s.after index calls clock) w' (f a) calls' b w'') :
    Does outside index s w (d >>= f) (calls ++ calls') b w'' := by
  obtain ⟨clock, hd⟩ := h
  obtain ⟨clock', hrest⟩ := hf clock
  refine ⟨clock', ?_⟩
  rw [ends_bind_of hd, hrest, after_after]

theorem Does.map {d : Work α} (g : α → β) (h : Does outside index s w d calls a w') :
    Does outside index s w (d >>= fun a => pure (g a)) calls (g a) w' := by
  obtain ⟨clock, hd⟩ := h
  exact ⟨clock, (ends_bind_of hd).trans rfl⟩

theorem does_call (c : Call) : Does outside index s w (Work.call c) [c] ((s.site index).outcome c) w :=
  ⟨s.clock, rfl⟩

theorem does_measure (t : Text) :
    Does outside index s w (Work.measure t) [] ((s.site index).surface.measure t) w :=
  ⟨s.clock, by rw [after_nil]; rfl⟩

theorem does_snapshot : Does outside index s w Work.snapshot [] s.snapshot w :=
  ⟨s.clock, by rw [after_nil]; rfl⟩

theorem does_answer (r : Request) (keys : List Key) :
    let answered := ((Expansion.gather outside r).run keys).run w
    Does outside index s w ((Work.answer r).run keys) [] answered.1 answered.2 := by
  cases r with
  | wait milliseconds => exact ⟨s.clock + milliseconds, by rw [after_nil]; rfl⟩
  | _ => exact ⟨s.clock, by rw [after_nil]; rfl⟩

theorem does_interpret (e : Expansion α) (keys : List Key) :
    let gathered := ((e.interpret (Expansion.gather outside)).run keys).run w
    Does outside index s w ((e.interpret Work.answer).run keys) [] gathered.1 gathered.2 := by
  induction e generalizing keys s w with
  | done a => exact does_pure
  | ask r resume ih => exact (does_answer r keys).bind fun clock => ih _ _

theorem does_pressAll (keys : List Key) :
    Does outside index s w (Work.pressAll keys) (keys.map fun key => .dispatch (.keyDown key)) () w := by
  induction keys generalizing s with
  | nil => exact does_pure
  | cons key keys ih => exact (does_call _).bind fun clock => ih

theorem does_writeOut (current : Text) (caret : Option Nat) :
    Does outside index s w (Work.writeOut current caret)
      [.write current caret, .dispatch .input, .dispatch .change] () w :=
  (does_call _).bind fun _ => (does_call _).bind fun _ => (does_call _).bind fun _ => does_pure

theorem does_tokenText (token : Text) :
    let gathered := ((execute s.snapshot maxDepth token).gathered outside).run w
    Does outside index s w (Work.tokenText maxDepth token)
      (gathered.1.2.map fun key => .dispatch (.keyDown key)) gathered.1.1 gathered.2 := by
  intro gathered
  exact does_snapshot.bind fun _ => (does_interpret _ []).bind fun _ =>
    (does_pressAll gathered.1.2).map fun _ => gathered.1.1

variable {f : PlainField} {made : List Call}

theorem field_after (hfield : s.sites[index]? = some ⟨.plain f, false, made⟩) (calls : List Call)
    (clock : Nat) : (s.after index calls clock).sites[index]? =
      some ⟨.plain (f.performAll calls), false, made ++ calls⟩ := by
  rw [← Site.callAll_plain]
  exact sites_onSite index hfield (·.callAll calls)

theorem run_mapM_cons {g : α → StateM σ β} {a : α} {as : List α} {bs : List β}
    (h : ((a :: as).mapM g).run w = (bs, w')) :
    ∃ b bs' w'', (g a).run w = (b, w'') ∧ (as.mapM g).run w'' = (bs', w') ∧ bs = b :: bs' := by
  rw [List.mapM_cons] at h
  obtain ⟨rfl, rfl⟩ := Prod.ext_iff.1 h
  exact ⟨_, _, _, rfl, rfl, rfl⟩

/-- The pieces of a template, each where the ones before it have left the text and the services. -/
theorem does_addPieces {pieces : List (Piece Unit)} {steps : List Step} {current : Text}
    {caret : Option Nat} (hfield : s.sites[index]? = some ⟨.plain f, false, made⟩)
    (hsteps : (pieces.mapM (Piece.step outside s.snapshot maxDepth)).run w = (steps, w')) :
    Does outside index s w (Work.addPieces maxDepth current caret pieces) (Step.calls current caret steps)
      (current ++ (Step.texts steps).flatten, Step.lastMark current caret steps) w' := by
  -- what the pieces before have changed is general: the text, the caret, the field, the time and the services
  induction pieces generalizing current caret s w f made steps with
  | nil =>
    cases hsteps
    change Does outside index s _ (pure (current, caret)) [] (current ++ [], caret) _
    rw [List.append_nil]
    exact does_pure
  | cons piece pieces ih =>
    obtain ⟨step, steps, between, hstep, hsteps, rfl⟩ := run_mapM_cons hsteps
    have hadded (keys : List Key) (t : Text) : current ++ (Step.texts (.add keys t :: steps)).flatten =
        (current ++ t) ++ (Step.texts steps).flatten := (List.append_assoc _ _ _).symm
    cases piece with
    | plain t =>
      cases hstep
      rw [hadded]
      exact (does_writeOut _ _).bind fun clock => ih (field_after hfield _ clock) hsteps
    | found token found =>
      rw [Piece.step] at hstep
      rw [Work.addPieces]
      split at hstep
      · next hmarker =>
        cases hstep
        have hmeasured : (s.site index).surface.measure current = current.length := by
          rw [site_of_getElem? index hfield]
          rfl
        rw [if_pos hmarker]
        refine (does_measure current).bind fun clock => ?_
        rw [hmeasured]
        exact ih (field_after hfield [] clock) hsteps
      · next hmarker =>
        cases hstep
        rw [if_neg hmarker, hadded, Step.calls, List.append_assoc]
        exact (does_tokenText token).bind fun clock => (does_writeOut _ _).bind fun clock' =>
          ih (field_after (field_after hfield _ clock) _ clock') hsteps

theorem does_replace {snippet : Snippet} {before : Text} {steps : List Step}
    (hfield : s.sites[index]? = some ⟨.plain f, false, made⟩) (hidle : s.replacing = false)
    (hvalue : f.value = before ++ snippet.shortcut)
    (hsteps : ((Segment.all snippet.text).mapM (Piece.step outside s.snapshot maxDepth)).run w = (steps, w')) :
    Does outside index s w (Work.replace maxDepth snippet) (Step.allCalls before steps)
      (.replaced (before ++ (Step.texts steps).flatten) (Step.lastMark before none steps)) w' := by
  obtain ⟨settings, snapshot, sites, clock, edits, replacing⟩ := s
  obtain rfl : replacing = false := hidle
  -- the mark is set before the first piece and taken off after the last, so it does not show in the end
  let begun : Session := ⟨settings, snapshot, sites, clock, edits, true⟩
  have hbegin : ends outside index Work.begin ⟨settings, snapshot, sites, clock, edits, false⟩ w =
      ((true, begun), w) := rfl
  have htyped : ends outside index Work.text begun w = ((before ++ snippet.shortcut, begun), w) := by
    change (((begun.site index).surface.text, begun), w) = _
    rw [site_of_getElem? index (s := begun) hfield, ← hvalue]
    rfl
  obtain ⟨clock', hpieces⟩ : Does outside index begun w
      (Work.addPieces maxDepth before none (Segment.all snippet.text)) (Step.calls before none steps)
      (before ++ (Step.texts steps).flatten, Step.lastMark before none steps) w' :=
    does_addPieces hfield hsteps
  refine ⟨clock', ?_⟩
  rw [Work.replace, ends_bind_of hbegin, if_pos rfl, ends_bind_of htyped, Work.kept_append,
    ends_bind_of hpieces, Step.allCalls]
  cases Step.lastMark before none steps with
  | none =>
    rw [Option.toList_none, List.map_nil, List.append_nil]
    rfl
  | some offset =>
    rw [Option.toList_some, List.map_singleton, ← after_after _ _ _ _ clock' clock']
    rfl

theorem isSome_text?_steps {pieces : List (Piece Unit)} {s : Snapshot} {steps : List Step}
    (hsteps : (pieces.mapM (Piece.step outside s maxDepth)).run w = (steps, w')) :
    (steps.map fun step => step.text?.isSome) = pieces.map Piece.isWritten := by
  induction pieces generalizing w steps with
  | nil =>
    cases hsteps
    rfl
  | cons piece pieces ih =>
    obtain ⟨step, steps, between, hstep, hrest, rfl⟩ := run_mapM_cons hsteps
    have hpiece : step.text?.isSome = piece.isWritten := by
      cases piece with
      | plain t =>
        cases hstep
        rfl
      | found token found =>
        rw [Piece.step] at hstep
        rw [Piece.isWritten]
        split at hstep
        · next hmarker =>
          cases hstep
          rw [hmarker]
          rfl
        · next hmarker =>
          cases hstep
          rw [eq_false_of_ne_true hmarker]
          rfl
    rw [List.map_cons, List.map_cons, hpiece, ih hrest]

theorem does_detect {settings : Settings} {snippet : Snippet} {before : Text} {steps : List Step}
    (hfield : s.sites[index]? = some ⟨.plain f, false, made⟩) (hidle : s.replacing = false)
    (hsnippet : findTrigger settings.policy f.value s.snapshot.snippets = some snippet)
    (hvalue : f.value = before ++ snippet.shortcut)
    (hsteps : ((Segment.all snippet.text).mapM
      (Piece.step outside s.snapshot settings.maxDepth)).run w = (steps, w')) :
    Does outside index s w (Work.detect settings) (Step.allCalls before steps)
      (.replaced snippet.shortcut (before ++ (Step.texts steps).flatten)) w' := by
  have htext : ends outside index Work.text s w = ((f.value, s), w) := by
    change (((s.site index).surface.text, s), w) = _
    rw [site_of_getElem? index hfield]
    rfl
  have hsnapshot : ends outside index Work.snapshot s w = ((s.snapshot, s), w) := rfl
  obtain ⟨clock, hreplace⟩ := does_replace hfield hidle hvalue hsteps
  refine ⟨clock, ?_⟩
  rw [Work.detect, ends_bind_of htext, ends_bind_of hsnapshot, hsnippet]
  exact ends_bind_of hreplace

theorem ends_onEdit {settings : Settings} (hfield : s.sites[index]? = some ⟨.plain f, false, made⟩)
    (hwritable : f.readOnly = false) (hidle : s.replacing = false) :
    ends outside index (Work.onEdit settings) s w = ends outside index (Work.detect settings)
      { s with edits := s.edits + 1, clock := s.clock + settings.debounce } w := by
  let counted : Session := { s with edits := s.edits + 1 }
  let quiet : Session := { counted with clock := s.clock + settings.debounce }
  have hcounted : ends outside index Work.registerEdit s w = ((s.edits + 1, counted), w) := rfl
  have hpaused : ends outside index (Work.pause settings.debounce) counted w = (((), quiet), w) := rfl
  have hlatest : ends outside index Work.latestEdit quiet w = ((s.edits + 1, quiet), w) := rfl
  have hfree : ends outside index Work.busy quiet w = ((false, quiet), w) := by
    rw [← hidle]
    rfl
  have heditable : ends outside index Work.editable quiet w = ((true, quiet), w) := by
    change (((quiet.site index).surface.isEditable, quiet), w) = _
    rw [site_of_getElem? index (s := quiet) hfield, Surface.isEditable, hwritable, Bool.not_false]
  rw [Work.onEdit, ends_bind_of hcounted, ends_bind_of hpaused, ends_bind_of hlatest,
    if_neg (not_not_intro rfl), ends_bind_of hfree, if_neg Bool.false_ne_true, ends_bind_of heditable,
    if_pos rfl]

/-- All that happens between an edit and its end, alone in the session. The text in front of the shortcut is
that of the field without just the shortcut. It is written with the first piece that is no mark behind it, then
with the first two, and so on, and the surface is told of each write at once. The keys of a piece go before its
own write. If there is a mark, the caret is left where the last one stands, and else at the end. What is
reported is what is written last, and services are left as the pieces leave them one after another. -/
theorem trace_of_edit (outside : (r : Request) → StateM σ r.Answer) (index : Nat) {settings : Settings}
    {snippet : Snippet} (w : σ)
    (hfield : s.sites[index]? = some ⟨.plain f, false, made⟩) (hwritable : f.readOnly = false)
    (hidle : s.replacing = false)
    (hsnippet : findTrigger settings.policy f.value s.snapshot.snippets = some snippet) :
    ∃ before steps s' w' f', f.value = before ++ snippet.shortcut ∧
      ((Segment.all snippet.text).mapM (Piece.step outside s.snapshot settings.maxDepth)).run w =
        (steps, w') ∧
      (steps.map fun step => step.text?.isSome) = (Segment.all snippet.text).map Piece.isWritten ∧
      (((Work.onEdit settings).interpret (perform outside index)).run s).run w =
        ((.replaced snippet.shortcut (before ++ (Step.texts steps).flatten), s'), w') ∧
      s'.sites[index]? = some ⟨.plain f', false, made ++ Step.allCalls before steps⟩ ∧
      f.Replaced f' before steps ∧
      (Step.allCalls before steps).filterMap Call.written? =
        ((List.range (Step.texts steps).length).map fun k =>
          before ++ ((Step.texts steps).take (k + 1)).flatten) ∧
      (Step.texts steps ≠ [] → ((Step.allCalls before steps).filterMap Call.written?).getLast? =
        some (before ++ (Step.texts steps).flatten)) := by
  obtain ⟨before, hbefore⟩ := isSuffix_of_findTrigger hsnippet
  have hvalue : f.value = before ++ snippet.shortcut := hbefore.symm
  obtain ⟨steps, w', hsteps⟩ : ∃ steps w', ((Segment.all snippet.text).mapM
      (Piece.step outside s.snapshot settings.maxDepth)).run w = (steps, w') := ⟨_, _, rfl⟩
  let quiet : Session := { s with edits := s.edits + 1, clock := s.clock + settings.debounce }
  obtain ⟨clock, hdetect⟩ := does_detect (s := quiet) hfield hidle hsnippet hvalue hsteps
  refine ⟨before, steps, quiet.after index (Step.allCalls before steps) clock, w',
    f.performAll (Step.allCalls before steps), hvalue, hsteps, isSome_text?_steps hsteps, ?_,
    field_after (s := quiet) hfield _ clock, PlainField.replaced_performAll hvalue steps,
    Step.written_allCalls before steps, fun htexts => Step.getLast?_written before htexts⟩
  exact (ends_onEdit hfield hwritable hidle).trans hdetect

end Session

namespace MarkedSnippet

def snippet : Snippet := ⟨[], "✂x".toList, "Hi [cursor][enter]you".toList, none⟩

def field : PlainField := .typed "a✂x".toList

def session : Session :=
  .start .standard { Snapshot.empty with snippets := [snippet] } [.fresh (.plain field) false]

def edited : (Detection × Session) × Surroundings :=
  (((Work.onEdit .standard).interpret (Session.perform Surroundings.answer 0)).run session).run
    ⟨default, .ok [], [], fun _ _ _ => .ok [], []⟩

/-- A key between two pieces, behind a mark, and a shortcut of more bytes than characters. -/
theorem trace_of_edit_marked :
    findTrigger Settings.standard.policy field.value session.snapshot.snippets = some snippet ∧
    edited.1.1 = .replaced "✂x".toList "aHi \nyou".toList ∧
    ∃ f', edited.1.2.sites[0]? = some ⟨.plain f', false,
        [.write "aHi ".toList none, .dispatch .input, .dispatch .change,
          .dispatch (.keyDown .enter),
          .write "aHi \n".toList (some 4), .dispatch .input, .dispatch .change,
          .write "aHi \nyou".toList (some 4), .dispatch .input, .dispatch .change,
          .placeCaret 4]⟩ ∧
      f'.value = "aHi \nyou".toList ∧ f'.caret = 4 := by
  have hsnippet : findTrigger Settings.standard.policy field.value session.snapshot.snippets =
      some snippet := by decide +kernel
  obtain ⟨before, steps, s', w', f', hvalue, hsteps, -, hrun, hsite, hreplaced, -, -⟩ :=
    Session.trace_of_edit Surroundings.answer 0 (s := session)
      ⟨default, .ok [], [], fun _ _ _ => .ok [], []⟩ rfl rfl rfl hsnippet
  obtain rfl : before = ['a'] := by
    have htyped : field.value = ['a'] ++ snippet.shortcut := by decide
    exact List.append_cancel_right (hvalue.symm.trans htyped)
  obtain rfl : steps = [.add [] "Hi ".toList, .mark, .add [.enter] ['\n'], .add [] "you".toList] :=
    (congrArg Prod.fst hsteps).symm.trans (by decide +kernel)
  have hedited : edited = _ := hrun
  rw [hedited]
  refine ⟨hsnippet, rfl, f', hsite, hreplaced.value, ?_⟩
  exact hreplaced.caret_marked [.add [] "Hi ".toList] [.add [.enter] ['\n'], .add [] "you".toList] rfl
    (by decide)

end MarkedSnippet
end SnippetExpansion

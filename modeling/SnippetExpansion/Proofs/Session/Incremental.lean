import SnippetExpansion.Proofs.Session.PlainField
import SnippetExpansion.Proofs.Template.Segment
import SnippetExpansion.Proofs.Template.TokenByToken

/-! # Replacing and expanding agree
A replacement puts its snippet in place piece by piece, each token expanded by itself. With services that
answer alike whenever they are asked, the text it comes to is the one that expanding the whole template
gives, put behind the text that was kept. -/
namespace SnippetExpansion

open Text (BracketFree)
open Placeholder

def Part.segment : Part → Piece Unit
  | literal t => .plain t
  | token b inside => .found (written b inside) ()

/-- A flat template is cut into its parts, literals side by side as one. -/
theorem Segment.all_flatMap {parts : List Part} (hflat : ∀ part ∈ parts, part.Flat)
    (hkeyed : ∀ part ∈ parts, part.Keyed) :
    Segment.all (parts.flatMap Part.text) = Piece.glue (parts.map Part.segment) := by
  induction parts with
  | nil => rfl
  | cons part parts ih =>
    obtain ⟨hpart, hflat⟩ := List.forall_mem_cons.1 hflat
    obtain ⟨hkey, hkeyed⟩ := List.forall_mem_cons.1 hkeyed
    have hrest := ih hflat hkeyed
    rw [List.flatMap_cons, List.map_cons]
    cases part with
    | literal t =>
      -- No segment starts within a literal, so it joins what the rest starts with.
      rw [Part.segment, Piece.glue, ← hrest]
      refine Text.cut_append_of_none fun before c after hsplit => Segment.finder_inner ?_ _
      exact fun b => hpart b c ((show t = _ from hsplit) ▸ by simp)
    | token b inside =>
      have hne : inside ≠ [] := by
        rintro rfl
        cases hkey
      have hfind := Segment.finder_written b (hpart b) hne (parts.flatMap Part.text)
      rw [Part.text, Part.segment, Piece.glue, ← hrest, Segment.all]
      rw [written_append] at hfind ⊢
      rw [Text.cut_of_some hfind]
      congr 2
      · rw [written, List.take_append, List.take_of_length_le (Nat.le_succ _)]
        simp
      · rw [List.drop_append, List.drop_of_length_le (Nat.le_succ _)]
        simp

theorem Piece.flatMap_glue {α : Type} {value : Piece α → Text} (hplain : ∀ t, value (.plain t) = t)
    (pieces : List (Piece α)) : (glue pieces).flatMap value = pieces.flatMap value := by
  have hchar (c : Char) (pieces : List (Piece α)) :
      (consChar c pieces).flatMap value = c :: pieces.flatMap value := by
    unfold consChar
    split
    · simp [hplain]
    · simp [hplain]
  induction pieces with
  | nil => rfl
  | cons piece pieces ih =>
    cases piece with
    | found t v => rw [glue, List.flatMap_cons, List.flatMap_cons, ih]
    | plain t =>
      rw [glue, List.flatMap_cons, hplain]
      induction t with
      | nil => exact ih
      | cons c t iht => rw [List.foldr_cons, hchar, iht, List.cons_append]

namespace Session

variable {α β : Type} {reply : (r : Request) → r.Answer} {index : Nat}

def ending (reply : (r : Request) → r.Answer) (index : Nat) (d : Work α) (s : Session) :
    α × Session :=
  (d.interpret (perform (M := Id) reply index)).run s

@[simp] theorem ending_pure (a : α) (s : Session) :
    ending reply index (pure a) s = (a, s) := rfl

@[simp] theorem ending_bind (d : Work α) (f : α → Work β) (s : Session) :
    ending reply index (d >>= f) s =
      ending reply index (f (ending reply index d s).1) (ending reply index d s).2 := by
  rw [ending, Dialogue.interpret_bind]
  rfl

theorem ending_eq {σ : Type} {outside : (r : Request) → StateM σ r.Answer}
    (hfixed : ∀ r w, ((outside r).run w).1 = reply r) (d : Work α) (s : Session) (w : σ) :
    (((d.interpret (perform outside index)).run s).run w).1 = ending reply index d s := by
  have hmove (m : Move) (s : Session) (w : σ) :
      (((perform outside index m).run s).run w).1 = (perform (M := Id) reply index m).run s := by
    cases m with
    | outside r => exact congrArg (·, s) (hfixed r w)
    | _ => rfl
  -- The notes differ after each answer, and nothing but the answers goes into what follows.
  induction d generalizing s w with
  | done a => rfl
  | ask m resume ih =>
    have hrest := ih (((perform outside index m).run s).run w).1.1
      (((perform outside index m).run s).run w).1.2 (((perform outside index m).run s).run w).2
    refine hrest.trans ?_
    rw [hmove m s w]
    rfl

theorem ending_snapshot (d : Work α) (s : Session) :
    (ending reply index d s).2.snapshot = s.snapshot := by
  induction d generalizing s with
  | done a => rfl
  | ask m resume ih =>
    have hmove : ((perform (M := Id) reply index m).run s).2.snapshot = s.snapshot := by
      cases m <;> rfl
    exact (ih _ _).trans hmove

theorem ending_interpret_answer (e : Expansion α) (keys : List Key) (s : Session) :
    (ending reply index ((e.interpret Work.answer).run keys) s).1.1 = e.outcome reply := by
  induction e generalizing keys s with
  | done a => rfl
  | ask r resume ih =>
    have hanswer : (ending reply index ((Work.answer r).run keys) s).1.1 = reply r := by
      cases r <;> rfl
    rw [Dialogue.interpret_ask, StateT.run_bind, ending_bind, ih, hanswer]
    rfl

theorem ending_tokenText (maxDepth : Nat) (token : Text) (s : Session) :
    (ending reply index (Work.tokenText maxDepth token) s).1 =
      (execute s.snapshot maxDepth token).outcome reply := by
  rw [Work.tokenText, ending_bind, ending_bind, ending_bind, ending_pure]
  exact ending_interpret_answer _ [] s

/-- What a segment comes to by itself. -/
def segmentText (reply : (r : Request) → r.Answer) (s : Snapshot) (maxDepth : Nat) :
    Piece Unit → Text
  | .plain t => t
  | .found token _ => (execute s maxDepth token).outcome reply

theorem ending_addPieces {maxDepth : Nat} {pieces : List (Piece Unit)}
    (hwritten : ∀ piece ∈ pieces, piece.isWritten) (current : Text) (caret : Option Nat)
    (s : Session) :
    (ending reply index (Work.addPieces maxDepth current caret pieces) s).1 =
      (current ++ pieces.flatMap (segmentText reply s.snapshot maxDepth), caret) := by
  induction pieces generalizing current s with
  | nil =>
    rw [Work.addPieces, ending_pure, List.flatMap_nil, List.append_nil]
  | cons piece pieces ih =>
    obtain ⟨hpiece, hrest⟩ := List.forall_mem_cons.1 hwritten
    rw [List.flatMap_cons, ← List.append_assoc]
    cases piece with
    | plain t =>
      -- Writing changes the surface alone, so the pieces behind come to what they would before.
      rw [Work.addPieces, ending_bind, ih hrest, ending_snapshot]
      rfl
    | found token v =>
      have hcursor : ¬isCursorMarker token := by simpa [Piece.isWritten] using hpiece
      rw [Work.addPieces, if_neg hcursor, ending_bind, ending_tokenText, ending_bind, ih hrest,
        ending_snapshot, ending_snapshot]
      rfl

theorem ending_replace {maxDepth : Nat} {snippet : Snippet}
    (hwritten : ∀ piece ∈ Segment.all snippet.text, piece.isWritten) {s : Session}
    (hfree : s.replacing = false) :
    (ending reply index (Work.replace maxDepth snippet) s).1 =
      .replaced (Work.kept (s.site index).surface.text snippet.shortcut ++
        (Segment.all snippet.text).flatMap (segmentText reply s.snapshot maxDepth)) none := by
  have hbegin : ending reply index Work.begin s = (true, { s with replacing := true }) := by
    change (!s.replacing, _) = _
    rw [hfree]
    rfl
  have htext (s : Session) : ending reply index Work.text s = ((s.site index).surface.text, s) :=
    rfl
  rw [Work.replace, ending_bind, hbegin]
  simp only [if_true]
  rw [ending_bind, htext, ending_bind, ending_addPieces hwritten]
  rfl

theorem segmentText_segment {s : Snapshot} (hreply : Request.Braceless reply)
    (hnames : ∀ name ∈ s.vars.names, Command.lookup? name = none) (maxDepth : Nat) {part : Part}
    (hflat : part.Flat) (hkeyed : part.Keyed) :
    segmentText reply s maxDepth part.segment = (expand s maxDepth part.text).outcome reply := by
  cases part with
  | literal t =>
    rw [Part.text, expand_outcome, passed_absent (hflat .square), barePassed_absent (hflat .curly),
      passed_absent (hflat .curly)]
    rfl
  | token b inside => exact execute_outcome hreply hnames maxDepth b hflat hkeyed

/-- Replacing a shortcut gives the kept text with the expansion of the whole template behind it, for every
flat template without cursor marks, as long as services answer alike whenever they are asked, nothing that
is put in holds a brace, and no variable has a command's name. -/
theorem replaced_text_eq_expand {σ : Type} {outside : (r : Request) → StateM σ r.Answer}
    (hfixed : ∀ r w, ((outside r).run w).1 = reply r) (hreply : Request.Braceless reply)
    (maxDepth index : Nat) {s : Session} (hfree : s.replacing = false)
    (hvalues : s.snapshot.Braceless)
    (hnames : ∀ name ∈ s.snapshot.vars.names, Command.lookup? name = none) {snippet : Snippet}
    {parts : List Part} (htext : snippet.text = parts.flatMap Part.text)
    (hflat : ∀ part ∈ parts, part.Flat) (hkeyed : ∀ part ∈ parts, part.Keyed)
    (hcursor : ∀ part ∈ parts, ¬isCursorMarker part.text) (w w' : σ) :
    ((((Work.replace maxDepth snippet).interpret (perform outside index)).run s).run w).1.1 =
      .replaced (Work.kept (s.site index).surface.text snippet.shortcut ++
        (((expand s.snapshot maxDepth snippet.text).interpret outside).run w').1) none := by
  have hsegments : Segment.all snippet.text = Piece.glue (parts.map Part.segment) := by
    rw [htext, Segment.all_flatMap hflat hkeyed]
  have hwritten : ∀ piece ∈ Segment.all snippet.text, piece.isWritten := by
    intro piece hpiece
    cases piece with
    | plain t => rfl
    | found token v =>
      rw [hsegments] at hpiece
      obtain ⟨part, hpart, hsegment⟩ := List.mem_map.1 (Piece.found_mem_glue.1 hpiece)
      cases part with
      | literal t => cases hsegment
      | token b inside =>
        obtain ⟨rfl, -⟩ := Piece.found.inj hsegment
        have hmark : ¬isCursorMarker (written b inside) := hcursor _ hpart
        simpa [Piece.isWritten] using hmark
  have hvalue : (Segment.all snippet.text).flatMap (segmentText reply s.snapshot maxDepth) =
      (expand s.snapshot maxDepth snippet.text).outcome reply := by
    rw [hsegments, Piece.flatMap_glue (fun _ => rfl), List.flatMap_map, htext,
      expand_flatMap hvalues hreply maxDepth hflat hkeyed]
    exact List.flatMap_congr fun part hpart =>
      segmentText_segment hreply hnames maxDepth (hflat part hpart) (hkeyed part hpart)
  rw [ending_eq hfixed, ending_replace hwritten hfree, hvalue, Dialogue.run_interpret reply hfixed]

end Session

namespace NestedToken

def reply : (r : Request) → r.Answer
  | .clipboard => .ok ['c']
  | .prompt label => if label = ['b'] then some ['d'] else none
  | .generate _ _ _ => .ok []
  | .clock => (default : Instant)
  | .wait _ => ()
  | .press _ => ()

def outside (r : Request) : StateM (List Request) r.Answer := do
  modify (· ++ [r])
  pure (reply r)

def snapshot : Snapshot :=
  { Snapshot.empty with vars := Dictionary.empty.insert ['v'] (written .square Command.paste.name) }

def session : Session := .start .standard snapshot [.fresh (.plain (.typed ['a', '/', 'x'])) false]

def parts : List Part := [.token .square ['v'], .literal ['-'], .token .curly ['q', ':', 'b']]

def snippet : Snippet := ⟨[], ['/', 'x'], parts.flatMap Part.text, none⟩

theorem reply_braceless : Request.Braceless reply where
  clipboard := by
    intro t ht
    obtain rfl := Except.ok.inj ht
    decide
  prompt := by
    intro label t ht
    obtain ⟨-, hanswer⟩ := Option.ite_none_right_eq_some.1 ht
    obtain rfl := Option.some.inj hanswer
    decide
  generate := by
    intro provider key prompt t ht
    obtain rfl := Except.ok.inj ht
    decide

theorem snapshot_braceless : snapshot.Braceless := by
  intro name value hvalue
  rw [snapshot, Dictionary.find?_insert] at hvalue
  obtain ⟨-, hsame⟩ := Option.ite_none_right_eq_some.1 hvalue
  obtain rfl := Option.some.inj hsame
  decide

/-- A variable holds a token of its own, and one question is answered. -/
theorem replaced_text : session.replacing = false ∧ snippet.text = parts.flatMap Part.text ∧
    ((((Work.replace 10 snippet).interpret (Session.perform outside 0)).run session).run []).1.1 =
      .replaced (Work.kept (session.site 0).surface.text snippet.shortcut ++
        (((expand session.snapshot 10 snippet.text).interpret outside).run []).1) none ∧
    Work.kept (session.site 0).surface.text snippet.shortcut ++
      (((expand session.snapshot 10 snippet.text).interpret outside).run []).1 =
        ['a', 'c', '-', 'd'] :=
  ⟨rfl, rfl, Session.replaced_text_eq_expand (fun _ _ => rfl) reply_braceless 10 0 rfl
    snapshot_braceless (by decide) rfl (by decide) (by decide) (by decide) [] [], rfl⟩

end NestedToken
end SnippetExpansion

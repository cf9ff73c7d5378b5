import SnippetExpansion.Proofs.Session.Asking
import SnippetExpansion.Proofs.Session.Runs
import SnippetExpansion.Proofs.Surface.Caret
import SnippetExpansion.Session.Basic
import Mathlib.Data.List.Basic

/-! # Surfaces keep abreast
Work on a surface is set beside the same work on a surface of another kind, in sessions that are otherwise
one. Where the text stays free of `<` and `&` both go the same way: each question has the same answer, each
call does the same to text, caret and events, and services are asked the same. -/
namespace SnippetExpansion

/-- Two surfaces show this text and were told the same, and their carets stand at the same place. Where there
is no text a caret may be missing. -/
structure Surface.Alike (shown : Text) (a b : Surface) : Prop where
  reachable_left : a.Reachable
  reachable_right : b.Reachable
  text_left : a.text = shown
  text_right : b.text = shown
  events : a.events = b.events
  caret : shown ≠ [] → a.caretOffset = b.caretOffset

namespace Surface.Alike

variable {shown : Text} {a b : Surface} (h : Alike shown a b)
include h

theorem write {t : Text} (ht : t.MarkupFree) (caret : Option Nat) :
    Alike t (a.write t caret) (b.write t caret) := by
  constructor
  · exact h.reachable_left.perform (.write t caret)
  · exact h.reachable_right.perform (.write t caret)
  · exact text_write h.reachable_left ht caret
  · exact text_write h.reachable_right ht caret
  · rw [events_write, events_write]
    exact h.events
  · intro hne
    rw [caretOffset_write h.reachable_left ht hne, caretOffset_write h.reachable_right ht hne]

theorem placeCaret {offset : Nat} (hoffset : offset ≤ shown.length) :
    Alike shown (a.placeCaret offset) (b.placeCaret offset) := by
  obtain ⟨hleft, hright, rfl, htext, hevents, -⟩ := h
  constructor
  · exact hleft.perform (.placeCaret offset)
  · exact hright.perform (.placeCaret offset)
  · exact text_placeCaret a offset
  · exact (text_placeCaret b offset).trans htext
  · rw [events_placeCaret, events_placeCaret]
    exact hevents
  · intro hne
    rw [caretOffset_placeCaret hleft hne hoffset,
      caretOffset_placeCaret hright (htext ▸ hne) (htext ▸ hoffset)]

theorem dispatch (event : SurfaceEvent) : Alike shown (a.dispatch event) (b.dispatch event) := by
  constructor
  · exact h.reachable_left.perform (.dispatch event)
  · exact h.reachable_right.perform (.dispatch event)
  · exact (text_dispatch a event).trans h.text_left
  · exact (text_dispatch b event).trans h.text_right
  · rw [events_dispatch, events_dispatch, h.events]
  · intro hne
    rw [caretOffset_dispatch, caretOffset_dispatch]
    exact h.caret hne

end Surface.Alike

/-- A surface into which this text has come and to which nothing was done since. -/
inductive Surface.Holds (t : Text) : Surface → Prop where
  | plain : Holds t (.plain (.typed t))
  | rich {markup : Text} {editing : Editing} :
      ((RichRegion.empty editing).load markup).text = t →
      Holds t (.rich ((RichRegion.empty editing).load markup))
  | embedded {markup : Text} {editing : Editing} :
      ((RichRegion.empty editing).load markup).text = t →
      Holds t (.embedded ⟨some ((RichRegion.empty editing).load markup), []⟩)

theorem Surface.Holds.alike {t : Text} {a b : Surface} (ha : a.Holds t) (hb : b.Holds t) :
    Alike t a b := by
  have hstart {surface : Surface} (h : surface.Holds t) : surface.Reachable ∧ surface.text = t ∧
      surface.events = [] ∧ (t ≠ [] → surface.caretOffset = some t.length) := by
    cases h with
    | plain => exact ⟨trivial, rfl, rfl, fun _ => rfl⟩
    | rich htext =>
      subst htext
      exact ⟨trivial, rfl, rfl, RichRegion.caretOffset_load⟩
    | embedded htext =>
      subst htext
      exact ⟨rfl, rfl, rfl, RichRegion.caretOffset_load⟩
  obtain ⟨hreachable, htext, hevents, hcaret⟩ := hstart ha
  obtain ⟨hreachable', htext', hevents', hcaret'⟩ := hstart hb
  constructor
  · exact hreachable
  · exact hreachable'
  · exact htext
  · exact htext'
  · rw [hevents, hevents']
  · intro hne
    rw [hcaret hne, hcaret' hne]

def Move.Aside : Move → Prop
  | .text | .editable | .measure _ | .call _ => False
  | _ => True

namespace Session

def put (s : Session) (index : Nat) (site : Site) : Session :=
  { s with sites := s.sites.set index site }

theorem site_put {s : Session} {index : Nat} (h : index < s.sites.length) (site : Site) :
    (s.put index site).site index = site := by
  rw [Session.site, put, List.getElem?_set_self h]
  rfl

theorem onSite_put {s : Session} {index : Nat} (h : index < s.sites.length) (site : Site)
    (f : Site → Site) : (s.put index site).onSite index f = s.put index (f site) := by
  have hsites : (s.sites.set index site).modify index f = s.sites.set index (f site) := by
    rw [List.modify_eq_set_getElem?, List.getElem?_set_self h]
    exact List.set_set site
  rw [onSite, put, hsites]
  rfl

/-- Two sessions are one but for a surface, which was called alike in both and shows this text. -/
inductive Together (index : Nat) (shown : Text) : Session → Session → Prop where
  | intro (s : Session) {a b : Surface} (calls : List Call) : index < s.sites.length →
      Surface.Alike shown a b →
      Together index shown (s.put index ⟨a, false, calls⟩) (s.put index ⟨b, false, calls⟩)

variable {σ α β : Type} (outside : (r : Request) → StateM σ r.Answer) (index : Nat)

/-- The same work comes to one result in two sessions, asks the same outside, and leaves them together. The
result and the text that is shown then are as `post` has it. -/
def Abreast (d : Work α) (s s' : Session) (w : σ) (post : α → Text → Prop) : Prop :=
  ∃ a shown t t' v, post a shown ∧ Together index shown t t' ∧
    ends outside index d s w = ((a, t), v) ∧ ends outside index d s' w = ((a, t'), v)

variable {outside index} {s s' : Session} {w : σ} {shown : Text}

theorem post_ends {d : Work α} {P : Move → Prop} {post : α → Prop} (hd : d.AsksOnly P post)
    (s : Session) (w : σ) : post (ends outside index d s w).1.1 := by
  induction d generalizing s w with
  | done a => exact hd
  | ask m resume ih => exact ih _ (hd.2 _) _ _

theorem abreast_pure {post : α → Text → Prop} {a : α} (h : Together index shown s s')
    (hpost : post a shown) : Abreast outside index (pure a) s s' w post :=
  ⟨a, shown, s, s', w, hpost, h, rfl, rfl⟩

theorem Abreast.bind {d : Work α} {f : α → Work β} {between : α → Text → Prop}
    {post : β → Text → Prop} (h : Abreast outside index d s s' w between)
    (hf : ∀ a shown t t' v, between a shown → Together index shown t t' →
      ends outside index d s w = ((a, t), v) → Abreast outside index (f a) t t' v post) :
    Abreast outside index (d >>= f) s s' w post := by
  obtain ⟨a, shown, t, t', v, hbetween, htogether, hleft, hright⟩ := h
  obtain ⟨b, shown', u, u', v', hpost, htogether', hleft', hright'⟩ :=
    hf a shown t t' v hbetween htogether hleft
  exact ⟨b, shown', u, u', v', hpost, htogether', (ends_bind_of hleft).trans hleft',
    (ends_bind_of hright).trans hright'⟩

theorem Abreast.imp {d : Work α} {post post' : α → Text → Prop}
    (h : Abreast outside index d s s' w post) (himp : ∀ a shown, post a shown → post' a shown) :
    Abreast outside index d s s' w post' := by
  obtain ⟨a, shown, t, t', v, hpost, hrest⟩ := h
  exact ⟨a, shown, t, t', v, himp a shown hpost, hrest⟩

theorem abreast_aside {m : Move} (hm : m.Aside) (h : Together index shown s s') :
    Abreast outside index (Dialogue.request m) s s' w fun _ t => t = shown := by
  obtain ⟨s, calls, hindex, halike⟩ := h
  cases m with
  | text => cases hm
  | editable => cases hm
  | measure t => cases hm
  | call c => cases hm
  | outside r => exact ⟨_, shown, _, _, _, rfl, .intro s calls hindex halike, rfl, rfl⟩
  | pause n =>
    exact ⟨(), shown, _, _, w, rfl, .intro { s with clock := s.clock + n } calls hindex halike, rfl, rfl⟩
  | snapshot => exact ⟨s.snapshot, shown, _, _, w, rfl, .intro s calls hindex halike, rfl, rfl⟩
  | registerEdit =>
    exact ⟨s.edits + 1, shown, _, _, w, rfl, .intro { s with edits := s.edits + 1 } calls hindex halike,
      rfl, rfl⟩
  | latestEdit => exact ⟨s.edits, shown, _, _, w, rfl, .intro s calls hindex halike, rfl, rfl⟩
  | busy => exact ⟨s.replacing, shown, _, _, w, rfl, .intro s calls hindex halike, rfl, rfl⟩
  | begin =>
    exact ⟨!s.replacing, shown, _, _, w, rfl, .intro { s with replacing := true } calls hindex halike,
      rfl, rfl⟩
  | finish =>
    exact ⟨(), shown, _, _, w, rfl, .intro { s with replacing := false } calls hindex halike, rfl, rfl⟩

theorem abreast_text (h : Together index shown s s') :
    Abreast outside index Work.text s s' w fun typed t => typed = shown ∧ t = shown := by
  obtain ⟨s, calls, hindex, halike⟩ := h
  refine ⟨shown, shown, _, _, w, ⟨rfl, rfl⟩, .intro s calls hindex halike, ?_, ?_⟩
  · change ((((s.put index _).site index).surface.text, s.put index _), w) = _
    rw [site_put hindex, halike.text_left]
  · change ((((s.put index _).site index).surface.text, s.put index _), w) = _
    rw [site_put hindex, halike.text_right]

theorem abreast_measure {t : Text} (ht : t.MarkupFree) (h : Together index shown s s') :
    Abreast outside index (Work.measure t) s s' w fun n shown' => n = t.length ∧ shown' = shown := by
  obtain ⟨s, calls, hindex, halike⟩ := h
  refine ⟨t.length, shown, _, _, w, ⟨rfl, rfl⟩, .intro s calls hindex halike, ?_, ?_⟩
  · change ((((s.put index _).site index).surface.measure t, s.put index _), w) = _
    rw [site_put hindex, Surface.measure_eq halike.reachable_left ht]
  · change ((((s.put index _).site index).surface.measure t, s.put index _), w) = _
    rw [site_put hindex, Surface.measure_eq halike.reachable_right ht]

theorem abreast_call {c : Call} {shown' : Text}
    (hc : ∀ a b, Surface.Alike shown a b → Surface.Alike shown' (a.perform c) (b.perform c))
    (h : Together index shown s s') :
    Abreast outside index (Work.call c) s s' w fun _ t => t = shown' := by
  obtain ⟨s, calls, hindex, halike⟩ := h
  have hcalled (surface : Surface) :
      ends outside index (Work.call c) (s.put index ⟨surface, false, calls⟩) w =
        ((.ok (), s.put index ⟨surface.perform c, false, calls ++ [c]⟩), w) := by
    change ((((s.put index _).site index).outcome c, (s.put index _).onSite index (·.call c)), w) = _
    rw [site_put hindex, onSite_put hindex]
    cases c <;> rfl
  exact ⟨.ok (), shown', _, _, w, rfl, .intro s (calls ++ [c]) hindex (hc _ _ halike), hcalled _,
    hcalled _⟩

theorem abreast_quiet {d : Work α} {post : α → Prop} (hd : d.AsksOnly Move.Quiet post)
    (h : Together index shown s s') :
    Abreast outside index d s s' w fun a t => post a ∧ t = shown := by
  induction d generalizing s s' w with
  | done a => exact abreast_pure h ⟨hd, rfl⟩
  | ask m resume ih =>
    have hfirst : Abreast outside index (Dialogue.request m) s s' w fun _ t => t = shown := by
      have hquiet : m.Quiet := hd.1
      cases m with
      | call c =>
        cases c with
        | dispatch event => exact abreast_call (fun a b halike => halike.dispatch event) h
        | write t caret => cases hquiet
        | placeCaret offset => cases hquiet
      | text => cases hquiet
      | editable => cases hquiet
      | measure t => cases hquiet
      | _ => exact abreast_aside trivial h
    have hrest : Abreast outside index (Dialogue.request m >>= resume) s s' w
        fun a t => post a ∧ t = shown := by
      apply hfirst.bind
      rintro answer _ t t' v rfl htogether -
      exact ih answer (hd.2 answer) htogether
    exact hrest

theorem abreast_writeOut {current : Text} (hcurrent : current.MarkupFree) (caret : Option Nat)
    (h : Together index shown s s') :
    Abreast outside index (Work.writeOut current caret) s s' w fun _ t => t = current := by
  have hwrite : Abreast outside index (Work.call (.write current caret)) s s' w
      fun _ t => t = current :=
    abreast_call (fun a b halike => halike.write hcurrent caret) h
  have htold : (Work.call (.dispatch .input) >>= fun _ => Work.call (.dispatch .change) >>= fun _ =>
      pure ()).AsksOnly Move.Quiet fun _ => True :=
    (Dialogue.asksOnly_request trivial).bind fun _ _ =>
      (Dialogue.asksOnly_request trivial).bind fun _ _ => Dialogue.asksOnly_pure trivial
  apply hwrite.bind
  rintro _ shown' t t' v hshown htogether -
  apply (abreast_quiet htold htogether).imp
  rintro _ _ ⟨-, rfl⟩
  exact hshown

/-- What the text so far has become at the end, and a caret in it that a surface which shows it can take. -/
def Fits (r : Text × Option Nat) (shown : Text) : Prop :=
  r.1.length ≤ shown.length ∧ ∀ offset ∈ r.2, offset ≤ r.1.length

theorem abreast_addPieces {maxDepth : Nat} {pieces : List (Piece Unit)} {current : Text}
    {caret : Option Nat} (hfits : Fits (current, caret) shown) (h : Together index shown s s')
    (hfree : (ends outside index (Work.addPieces maxDepth current caret pieces) s w).1.1.1.MarkupFree) :
    Abreast outside index (Work.addPieces maxDepth current caret pieces) s s' w Fits := by
  induction pieces generalizing current caret shown s s' w with
  | nil => exact abreast_pure h hfits
  | cons piece rest ih =>
    -- What is written is the beginning of the text at the end, and so it is free of markup too.
    have hadded {added : Text} {t t' : Session} {v : σ} {shown' : Text}
        (htogether : Together index shown' t t')
        (hfree : (ends outside index (Work.writeOut (current ++ added) caret >>= fun _ =>
          Work.addPieces maxDepth (current ++ added) caret rest) t v).1.1.1.MarkupFree) :
        Abreast outside index (Work.writeOut (current ++ added) caret >>= fun _ =>
          Work.addPieces maxDepth (current ++ added) caret rest) t t' v Fits := by
      have hasks : (Work.writeOut (current ++ added) caret >>= fun _ => Work.addPieces maxDepth
          (current ++ added) caret rest).AsksOnly Move.Plain fun r => current ++ added <+: r.1 :=
        (Work.writeOut_asks _ _).bind fun _ _ => Work.addPieces_asks _ _ _ _
      have hwritten : (current ++ added).MarkupFree := hfree.of_subset (post_ends hasks t v).subset
      apply (abreast_writeOut hwritten caret htogether).bind
      rintro _ _ u u' v' rfl htogether' hends
      rw [ends_bind_of hends] at hfree
      refine ih ⟨Nat.le_refl _, fun offset hoffset => ?_⟩ htogether' hfree
      rw [List.length_append]
      exact (hfits.2 offset hoffset).trans (Nat.le_add_right _ _)
    have hcurrent : current.MarkupFree :=
      hfree.of_subset (post_ends (Work.addPieces_asks maxDepth _ current caret) s w).subset
    cases piece with
    | plain t => exact hadded h hfree
    | found token found =>
      rw [Work.addPieces] at hfree ⊢
      split at hfree
      · next hcursor =>
        rw [if_pos hcursor]
        apply (abreast_measure hcurrent h).bind
        rintro _ shown' t t' v ⟨rfl, rfl⟩ htogether hends
        rw [ends_bind_of hends] at hfree
        refine ih ⟨hfits.1, fun offset hoffset => ?_⟩ htogether hfree
        obtain rfl := Option.some.inj hoffset
        exact Nat.le_refl _
      · next hcursor =>
        rw [if_neg hcursor]
        apply (abreast_quiet (Work.tokenText_asks maxDepth token) h).bind
        rintro value _ t t' v ⟨-, rfl⟩ htogether hends
        rw [ends_bind_of hends] at hfree
        exact hadded htogether hfree

theorem fits_kept (typed shortcut : Text) : Fits (Work.kept typed shortcut, none) typed := by
  constructor
  · exact (List.take_prefix _ typed).length_le
  · intro offset hoffset
    cases hoffset

theorem abreast_putIn {maxDepth : Nat} {snippet : Snippet} (h : Together index shown s s')
    (hfree : (ends outside index (Work.putIn maxDepth snippet) s w).1.1.1.MarkupFree) :
    Abreast outside index (Work.putIn maxDepth snippet) s s' w fun _ _ => True := by
  rw [Work.putIn] at hfree ⊢
  apply (abreast_text h).bind
  rintro _ shown t t' v ⟨rfl, rfl⟩ htogether hends
  rw [ends_bind_of hends] at hfree
  have hpieces : Abreast outside index (Work.addPieces maxDepth (Work.kept shown snippet.shortcut) none
      (Segment.all snippet.text)) t t' v Fits := by
    apply abreast_addPieces (fits_kept shown snippet.shortcut) htogether
    rcases hadded : ends outside index (Work.addPieces maxDepth (Work.kept shown snippet.shortcut) none
      (Segment.all snippet.text)) t v with ⟨⟨⟨current, caret⟩, u⟩, v'⟩
    rw [ends_bind_of hadded] at hfree
    cases caret with
    | none => exact hfree
    | some offset => exact hfree
  apply hpieces.bind
  rintro ⟨current, caret⟩ shown' u u' v' hfits htogether' -
  cases caret with
  | none => exact abreast_pure htogether' trivial
  | some offset =>
    have hoffset : offset ≤ shown'.length := (hfits.2 offset rfl).trans hfits.1
    have hplaced : Abreast outside index (Work.call (.placeCaret offset)) u u' v' fun _ t => t = shown' :=
      abreast_call (fun a b halike => halike.placeCaret hoffset) htogether'
    apply hplaced.bind
    rintro _ _ _ _ _ - htogether'' -
    exact abreast_pure htogether'' trivial

theorem abreast_replace {maxDepth : Nat} {snippet : Snippet} (h : Together index shown s s')
    (hfree : ∀ text caret, (ends outside index (Work.replace maxDepth snippet) s w).1.1 =
      .replaced text caret → text.MarkupFree) :
    Abreast outside index (Work.replace maxDepth snippet) s s' w fun _ _ => True := by
  rw [Work.replace_eq] at hfree ⊢
  have hbegin : Abreast outside index Work.begin s s' w fun _ t => t = shown := abreast_aside trivial h
  apply hbegin.bind
  rintro granted _ t t' v rfl htogether hends
  rw [ends_bind_of hends] at hfree
  cases granted with
  | false => exact abreast_pure htogether trivial
  | true =>
    have hput : Abreast outside index (Work.putIn maxDepth snippet) t t' v fun _ _ => True := by
      apply abreast_putIn htogether
      rcases hended : ends outside index (Work.putIn maxDepth snippet) t v with
        ⟨⟨⟨text, caret⟩, u⟩, v'⟩
      refine hfree text caret ?_
      rw [if_pos rfl, ends_bind_of hended]
      rfl
    apply hput.bind
    rintro ⟨text, caret⟩ _ u u' v' - htogether' -
    have hfinish : Abreast outside index Work.finish u u' v' fun _ _ => True :=
      (abreast_aside (m := .finish) trivial htogether').imp fun _ _ _ => trivial
    apply hfinish.bind
    rintro _ _ _ _ _ - htogether'' -
    exact abreast_pure htogether'' trivial

/-- Surfaces of all kinds that hold the same text agree on a replacement as long as it comes to text that is
free of markup: they report and show the same, are told the same events, services are asked the same, and
where there is text the caret is at the same place of it. What is reported is what was kept with all behind it
that the pieces of the snippet come to. -/
theorem surfaces_agree (outside : (r : Request) → StateM σ r.Answer) (maxDepth index : Nat)
    (snippet : Snippet) {s : Session} {typed : Text} {a b : Surface} (w : σ)
    (hindex : index < s.sites.length) (ha : a.Holds typed) (hb : b.Holds typed) :
    let left := (((Work.replace maxDepth snippet).interpret (perform outside index)).run
      (s.put index (.fresh a false))).run w
    let right := (((Work.replace maxDepth snippet).interpret (perform outside index)).run
      (s.put index (.fresh b false))).run w
    (∀ text caret, left.1.1 = .replaced text caret → text.MarkupFree) →
    left.1.1 = right.1.1 ∧ left.2 = right.2 ∧
    (left.1.2.site index).surface.text = (right.1.2.site index).surface.text ∧
    (left.1.2.site index).surface.events = (right.1.2.site index).surface.events ∧
    ((left.1.2.site index).surface.text ≠ [] →
      (left.1.2.site index).surface.caretOffset = (right.1.2.site index).surface.caretOffset) := by
  intro left right hfree
  have htogether : Together index typed (s.put index (.fresh a false)) (s.put index (.fresh b false)) :=
    .intro s [] hindex (ha.alike hb)
  obtain ⟨result, shown, t, t', v, -, htogether', hleft, hright⟩ := abreast_replace htogether hfree
  have hleft' : left = ((result, t), v) := hleft
  have hright' : right = ((result, t'), v) := hright
  rw [hleft', hright']
  obtain ⟨s', calls, hindex', halike⟩ := htogether'
  simp only [site_put hindex']
  refine ⟨trivial, trivial, ?_, halike.events, ?_⟩
  · exact halike.text_left.trans halike.text_right.symm
  · intro hne
    exact halike.caret (halike.text_left ▸ hne)

end Session

namespace MarkedTemplate

def session : Session := .start .standard .empty [.fresh (.plain .empty) false]

def snippet : Snippet := ⟨[], ['/', 'x'], "hi\x7bcursor\x7d!".toList, none⟩

def field : Surface := .plain (.typed ['a', '/', 'x'])

def document : Surface := .embedded ⟨some ((RichRegion.empty .region).load ['a', '/', 'x']), []⟩

def surroundings : Surroundings := ⟨default, .ok [], [], fun _ _ _ => .ok [], []⟩

def replaced (surface : Surface) : (Replacement × Session) × Surroundings :=
  (((Work.replace 10 snippet).interpret (Session.perform Surroundings.answer 0)).run
    (session.put 0 (.fresh surface false))).run surroundings

/-- The caret goes between two pieces of the template, in a field and in the body of a document. -/
theorem document_agrees : field.Holds ['a', '/', 'x'] ∧ document.Holds ['a', '/', 'x'] ∧
    (replaced document).1.1 = .replaced ['a', 'h', 'i', '!'] (some 3) ∧
    ((replaced document).1.2.site 0).surface.text = ['a', 'h', 'i', '!'] ∧
    ((replaced document).1.2.site 0).surface.caretOffset = some 3 := by
  have htyped : Text.MarkupFree ['a', '/', 'x'] := ⟨by decide, by decide⟩
  have hfield : field.Holds ['a', '/', 'x'] := .plain
  have hdocument : document.Holds ['a', '/', 'x'] := .embedded htyped.textContent_parse
  have hreplaced : (replaced field).1.1 = .replaced ['a', 'h', 'i', '!'] (some 3) := by
    decide +kernel
  have hshown : ((replaced field).1.2.site 0).surface.text = ['a', 'h', 'i', '!'] := by
    decide +kernel
  have hplaced : ((replaced field).1.2.site 0).surface.caretOffset = some 3 := by decide +kernel
  have hfree (text : Text) (caret : Option Nat)
      (h : (replaced field).1.1 = .replaced text caret) : text.MarkupFree := by
    rw [hreplaced] at h
    cases h
    exact ⟨by decide, by decide⟩
  have hne : ((replaced field).1.2.site 0).surface.text ≠ [] := by
    rw [hshown]
    decide
  -- The run is not to be evaluated again where the theorem is applied to it.
  unfold replaced at hreplaced hshown hplaced hfree hne ⊢
  obtain ⟨hresult, -, htext, -, hcaret⟩ := Session.surfaces_agree Surroundings.answer 10 0 snippet
    surroundings (by decide : 0 < session.sites.length) hfield hdocument hfree
  exact ⟨hfield, hdocument, hresult.symm.trans hreplaced, htext.symm.trans hshown,
    (hcaret hne).symm.trans hplaced⟩

end MarkedTemplate
end SnippetExpansion

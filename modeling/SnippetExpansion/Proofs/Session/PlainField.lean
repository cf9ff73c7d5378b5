import SnippetExpansion.Proofs.Session.Runs

/-! # Replacing a shortcut in a plain field
The text a replacement reports is the text it has left in the field, unless the snippet has no piece to
write: then nothing is written, and the shortcut stays where it was typed. -/
namespace SnippetExpansion

/-- The site is a plain field with this text, and it takes what is written to it. -/
def Site.Shows (site : Site) (t : Text) : Prop :=
  ∃ f calls, site = ⟨.plain f, false, calls⟩ ∧ f.value = t

def Piece.isWritten : Piece Unit → Bool
  | .plain _ => true
  | .found token _ => !isCursorMarker token

namespace Site.Shows

variable {site : Site} {t : Text}

theorem text_eq (h : site.Shows t) : site.surface.text = t := by
  obtain ⟨f, calls, rfl, rfl⟩ := h
  rfl

theorem write (h : site.Shows t) (t' : Text) (caret : Option Nat) :
    (site.call (.write t' caret)).Shows t' := by
  obtain ⟨f, calls, rfl, rfl⟩ := h
  exact ⟨f.write t' caret, _, rfl, rfl⟩

theorem dispatch (h : site.Shows t) (event : SurfaceEvent) :
    (site.call (.dispatch event)).Shows t := by
  obtain ⟨f, calls, rfl, rfl⟩ := h
  exact ⟨{ f with events := f.events ++ [event] }, _, rfl, rfl⟩

theorem placeCaret (h : site.Shows t) (offset : Nat) :
    (site.call (.placeCaret offset)).Shows t := by
  obtain ⟨f, calls, rfl, rfl⟩ := h
  exact ⟨f.placeCaret offset, _, rfl, rfl⟩

end Site.Shows

namespace Work

theorem writeOut_shows {current shown : Text} {caret : Option Nat} {site last : Site} {u : Unit}
    (h : Runs (writeOut current caret) site u last) (hshown : site.Shows shown) :
    last.Shows current := by
  obtain ⟨_, -, h⟩ := runs_request_bind h
  obtain ⟨_, -, h⟩ := runs_request_bind h
  obtain ⟨_, -, h⟩ := runs_request_bind h
  obtain ⟨-, rfl⟩ := runs_pure h
  exact ((hshown.write current caret).dispatch .input).dispatch .change

theorem pressAll_shows {keys : List Key} {shown : Text} {site last : Site} {u : Unit}
    (h : Runs (pressAll keys) site u last) (hshown : site.Shows shown) : last.Shows shown := by
  induction keys generalizing site with
  | nil =>
    obtain ⟨-, rfl⟩ := runs_pure h
    exact hshown
  | cons key keys ih =>
    obtain ⟨_, -, hrest⟩ := runs_request_bind h
    exact ih hrest (hshown.dispatch (.keyDown key))

theorem tokenText_shows {maxDepth : Nat} {token value shown : Text} {site last : Site}
    (h : Runs (tokenText maxDepth token) site value last) (hshown : site.Shows shown) :
    last.Shows shown := by
  obtain ⟨s, -, hexpand⟩ := runs_request_bind h
  obtain ⟨⟨expanded, keys⟩, between, hexpanded, hpress⟩ := runs_bind hexpand
  obtain ⟨_, pressed, hpressed, hend⟩ := runs_bind hpress
  obtain ⟨-, rfl⟩ := runs_pure hend
  obtain rfl := ofExpansion_keeps_site (execute s maxDepth token) [] keys hexpanded
  exact pressAll_shows hpressed hshown

/-- Once a piece is written the field shows the text so far, and shows it again whenever that grows. -/
theorem addPieces_shows {maxDepth : Nat} {pieces : List (Piece Unit)} {current shown text : Text}
    {caret caret' : Option Nat} {site last : Site}
    (h : Runs (addPieces maxDepth current caret pieces) site (text, caret') last)
    (hshown : site.Shows shown) :
    current <+: text ∧
      if pieces.any Piece.isWritten then last.Shows text else last.Shows shown ∧ text = current := by
  induction pieces generalizing current caret shown site with
  | nil =>
    obtain ⟨hsame, rfl⟩ := runs_pure h
    obtain ⟨rfl, -⟩ := Prod.mk.inj hsame
    exact ⟨List.prefix_rfl, hshown, rfl⟩
  | cons piece rest ih =>
    -- A piece that is written leaves `current ++ added` both in the field and as the text so far.
    have hwritten {added : Text} {between : Site} (hbetween : between.Shows (current ++ added))
        (hrest : Runs (addPieces maxDepth (current ++ added) caret rest) between (text, caret') last)
        (hpiece : piece.isWritten) : current <+: text ∧
          if (piece :: rest).any Piece.isWritten then last.Shows text
          else last.Shows shown ∧ text = current := by
      obtain ⟨hstart, hlast⟩ := ih hrest hbetween
      refine ⟨(List.prefix_append current added).trans hstart, ?_⟩
      rw [List.any_cons, hpiece, Bool.true_or, if_pos rfl]
      split at hlast
      · exact hlast
      · obtain ⟨hlast, rfl⟩ := hlast
        exact hlast
    cases piece with
    | plain t =>
      obtain ⟨_, between, hwrite, hrest⟩ := runs_bind h
      exact hwritten (writeOut_shows hwrite hshown) hrest rfl
    | found token found =>
      by_cases hcursor : isCursorMarker token
      · rw [addPieces, if_pos hcursor] at h
        obtain ⟨offset, -, hrest⟩ := runs_request_bind h
        have hpiece : Piece.isWritten (.found token found) = false := by
          rw [Piece.isWritten, hcursor, Bool.not_true]
        rw [List.any_cons, hpiece, Bool.false_or]
        exact ih hrest hshown
      · rw [addPieces, if_neg hcursor] at h
        obtain ⟨value, expanded, htoken, h⟩ := runs_bind h
        obtain ⟨_, between, hwrite, hrest⟩ := runs_bind h
        have hpiece : Piece.isWritten (.found token found) = true := by
          rw [Piece.isWritten, eq_false_of_ne_true hcursor, Bool.not_false]
        exact hwritten (writeOut_shows hwrite (tokenText_shows htoken hshown)) hrest hpiece

theorem replace_shows {maxDepth : Nat} {snippet : Snippet} {shown text : Text}
    {caret : Option Nat} {site last : Site}
    (h : Runs (replace maxDepth snippet) site (.replaced text caret) last)
    (hshown : site.Shows shown) :
    kept shown snippet.shortcut <+: text ∧
      if (Segment.all snippet.text).any Piece.isWritten then last.Shows text
      else last.Shows shown ∧ text = kept shown snippet.shortcut := by
  obtain ⟨begun, -, hbegun⟩ := runs_request_bind h
  cases begun with
  | false => cases (runs_pure hbegun).1
  | true =>
    obtain ⟨typed, htyped, hread⟩ := runs_request_bind hbegun
    obtain rfl : typed = shown := htyped.trans hshown.text_eq
    obtain ⟨⟨current, marked⟩, between, hpieces, hrest⟩ := runs_bind hread
    obtain ⟨hstart, hbetween⟩ := addPieces_shows hpieces hshown
    have hend : current = text ∧ ∀ t, between.Shows t → last.Shows t := by
      cases marked with
      | none =>
        obtain ⟨_, -, hfinished⟩ := runs_request_bind hrest
        obtain ⟨hsame, rfl⟩ := runs_pure hfinished
        cases hsame
        exact ⟨rfl, fun t ht => ht⟩
      | some offset =>
        obtain ⟨_, -, hplaced⟩ := runs_request_bind hrest
        obtain ⟨_, -, hfinished⟩ := runs_request_bind hplaced
        obtain ⟨hsame, rfl⟩ := runs_pure hfinished
        cases hsame
        exact ⟨rfl, fun t ht => ht.placeCaret offset⟩
    obtain ⟨rfl, hlast⟩ := hend
    refine ⟨hstart, ?_⟩
    by_cases hany : (Segment.all snippet.text).any Piece.isWritten
    · rw [if_pos hany] at hbetween ⊢
      exact hlast current hbetween
    · rw [if_neg hany] at hbetween ⊢
      exact ⟨hlast typed hbetween.1, hbetween.2⟩

end Work

namespace Session

variable {σ : Type}

/-- The field shows the reported text exactly if the snippet has a piece to write or the shortcut is
empty; without such a piece it is left as it was. -/
theorem replaced_text_is_shown_iff (outside : (r : Request) → StateM σ r.Answer)
    (maxDepth index : Nat) (snippet : Snippet) {s s' : Session} {w w' : σ} {f : PlainField}
    {calls : List Call} {text : Text} {caret : Option Nat}
    (hfield : s.sites[index]? = some ⟨.plain f, false, calls⟩)
    (htyped : snippet.shortcut <:+ f.value)
    (hrun : (((Work.replace maxDepth snippet).interpret (perform outside index)).run s).run w =
      ((.replaced text caret, s'), w')) :
    ((s'.site index).surface.text = text ↔
      (∃ p ∈ Segment.all snippet.text, p.isWritten) ∨ snippet.shortcut = []) ∧
    Work.kept f.value snippet.shortcut <+: text ∧
    ((∀ p ∈ Segment.all snippet.text, ¬p.isWritten) → (s'.site index).surface.text = f.value) := by
  have hruns := runs_of_interpret outside index _ hfield hrun
  obtain ⟨hstart, hlast⟩ := Work.replace_shows hruns ⟨f, calls, rfl, rfl⟩
  obtain ⟨before, hbefore⟩ := htyped
  have hkept : Work.kept f.value snippet.shortcut = before := by
    rw [← hbefore, Work.kept_append]
  by_cases hany : (Segment.all snippet.text).any Piece.isWritten
  · rw [if_pos hany] at hlast
    have hwritten := List.any_eq_true.1 hany
    refine ⟨iff_of_true hlast.text_eq (.inl hwritten), hstart, fun hnone => ?_⟩
    obtain ⟨p, hp, hpiece⟩ := hwritten
    exact absurd hpiece (hnone p hp)
  · rw [if_neg hany, hkept] at hlast
    obtain ⟨hlast, rfl⟩ := hlast
    refine ⟨⟨fun heq => .inr ?_, ?_⟩, hstart, fun _ => hlast.text_eq⟩
    · rw [hlast.text_eq, ← hbefore] at heq
      exact List.append_right_eq_self.1 heq
    · rintro (hwritten | hempty)
      · exact absurd (List.any_eq_true.2 hwritten) hany
      · rw [hlast.text_eq, ← hbefore, hempty, List.append_nil]

def onField (typed : Text) : Session :=
  start .standard .empty [.fresh (.plain (.typed typed)) false]

def replaceTyped (typed template : Text) : (Replacement × Session) × Surroundings :=
  (((Work.replace 10 ⟨[], "/x".toList, template, none⟩).interpret
    (perform Surroundings.answer 0)).run (onField typed)).run
      ⟨default, .ok [], [], fun _ _ _ => .ok [], []⟩

theorem replaced_text_is_shown_plain_template :
    (replaceTyped "a/x".toList "hi".toList).1.1 = .replaced "ahi".toList none ∧
    ((replaceTyped "a/x".toList "hi".toList).1.2.site 0).surface.text = "ahi".toList := by
  have hrun : replaceTyped "a/x".toList "hi".toList =
      ((.replaced "ahi".toList none, (replaceTyped "a/x".toList "hi".toList).1.2),
        (replaceTyped "a/x".toList "hi".toList).2) := rfl
  have hfield : (onField "a/x".toList).sites[0]? =
      some ⟨.plain (.typed "a/x".toList), false, []⟩ := rfl
  have hpiece : ∃ p ∈ Segment.all "hi".toList, p.isWritten :=
    ⟨.plain "hi".toList, List.mem_singleton.2 rfl, rfl⟩
  exact ⟨rfl, (replaced_text_is_shown_iff Surroundings.answer 10 0 ⟨[], "/x".toList, "hi".toList, none⟩
    hfield ⟨['a'], rfl⟩ hrun).1.2 (.inl hpiece)⟩

/-- A snippet of cursor marks alone leaves its shortcut in the field. -/
theorem counterexample_cursor_marks_alone :
    (replaceTyped "/x".toList "\x7bcursor\x7d".toList).1.1 = .replaced [] (some 0) ∧
    ((replaceTyped "/x".toList "\x7bcursor\x7d".toList).1.2.site 0).surface.text =
      "/x".toList := by
  constructor <;> rfl

end Session
end SnippetExpansion

import SnippetExpansion.Surface.Site
import SnippetExpansion.Proofs.Markup.Content

/-! # Text and caret of a surface
Offsets into the text of a region count through its text nodes, so a caret that is placed comes back as the
offset it was placed at. On text without `<` and `&` the kinds of surfaces do the same: what is written is
what is read, and the caret goes where it is asked to or to the end. -/
namespace SnippetExpansion

/-- What markup shows as it stands, whatever stands around it. -/
def Text.MarkupFree (t : Text) : Prop := '<' ∉ t ∧ '&' ∉ t

namespace Text.MarkupFree

variable {t part : Text}

theorem isPlain (h : t.MarkupFree) : Markup.IsPlain t := by
  constructor
  · intro before c rest ht
    exact absurd (ht ▸ List.mem_append_right before List.mem_cons_self) h.1
  · exact Entity.decode_eq_self_iff.1 (Entity.decode_of_not_mem h.2)

theorem textContent_parse (h : t.MarkupFree) : Node.textContent (Markup.parse t) = t :=
  Markup.textContent_parse_eq_self_iff.2 h.isPlain

theorem of_subset (h : t.MarkupFree) (hpart : part ⊆ t) : part.MarkupFree :=
  ⟨fun hmem => h.1 (hpart hmem), fun hmem => h.2 (hpart hmem)⟩

end Text.MarkupFree

theorem Text.totalLength_eq (texts : List Text) : totalLength texts = texts.flatten.length := by
  induction texts with
  | nil => rfl
  | cons t texts ih => rw [totalLength, ih, List.flatten_cons, List.length_append]

namespace Caret

def offsetFrom (node : Nat) (texts : List Text) (c : Caret) : Nat :=
  Text.totalLength (texts.take (c.node - node)) + c.offset

theorem locateFrom_eq_some {node offset : Nat} {texts : List Text} {c : Caret}
    (h : locateFrom node offset texts = some c) : node ≤ c.node ∧ c.offsetFrom node texts = offset := by
  induction texts generalizing node offset with
  | nil => cases h
  | cons t texts ih =>
    rw [locateFrom] at h
    split at h
    · obtain rfl := Option.some.inj h
      refine ⟨Nat.le_refl _, ?_⟩
      rw [offsetFrom, Nat.sub_self]
      exact Nat.zero_add _
    · next hbehind =>
      obtain ⟨hnode, hoffset⟩ := ih h
      refine ⟨Nat.le_of_succ_le hnode, ?_⟩
      have hskip : c.node - node = c.node - (node + 1) + 1 := by omega
      rw [offsetFrom] at hoffset
      rw [offsetFrom, hskip, List.take_succ_cons, Text.totalLength]
      omega

theorem locateFrom_eq_none_iff {node offset : Nat} {texts : List Text} :
    locateFrom node offset texts = none ↔ texts = [] ∨ Text.totalLength texts < offset := by
  induction texts generalizing node offset with
  | nil => exact iff_of_true rfl (.inl rfl)
  | cons t texts ih =>
    rw [locateFrom, Text.totalLength]
    split
    · next hreached =>
      refine iff_of_false (Option.some_ne_none _) ?_
      rintro (hnil | hlength)
      · cases hnil
      · omega
    · next hbehind =>
      rw [ih]
      constructor
      · rintro (rfl | hlength)
        · refine .inr ?_
          rw [Text.totalLength]
          omega
        · exact .inr (by omega)
      · rintro (hnil | hlength)
        · cases hnil
        · exact .inr (by omega)

end Caret

namespace RichRegion

variable {r : RichRegion} {offset : Nat}

theorem totalLength_texts (r : RichRegion) :
    Text.totalLength (Node.textsOfAll r.children) = r.text.length :=
  Text.totalLength_eq _

theorem texts_ne_nil (h : r.text ≠ []) : Node.textsOfAll r.children ≠ [] := by
  intro hnil
  refine h ?_
  rw [text, Node.textContent, hnil]
  rfl

theorem locate_eq_none_iff :
    r.locate offset = none ↔ Node.textsOfAll r.children = [] ∨ r.text.length < offset := by
  rw [locate, Caret.locateFrom_eq_none_iff, totalLength_texts]

theorem caretOffset_of_locate {c : Caret} (h : r.locate offset = some c) :
    { r with caret := some c }.caretOffset = some offset :=
  congrArg some (Caret.locateFrom_eq_some h).2

theorem caretOffset_placeCaret (h : Node.textsOfAll r.children ≠ []) (hoffset : offset ≤ r.text.length) :
    (r.placeCaret offset).caretOffset = some offset := by
  cases hlocate : r.locate offset with
  | none =>
    rcases locate_eq_none_iff.1 hlocate with hnil | hlength
    · exact absurd hnil h
    · omega
  | some c =>
    rw [placeCaret, hlocate]
    exact caretOffset_of_locate hlocate

theorem placeCaret_eq_self (h : Node.textsOfAll r.children = [] ∨ r.text.length < offset) :
    r.placeCaret offset = r := by
  rw [placeCaret, locate_eq_none_iff.2 h]
  rfl

variable {markup : Text}

theorem caretOffset_load (h : (r.load markup).text ≠ []) :
    (r.load markup).caretOffset = some (r.load markup).text.length := by
  let parsed : RichRegion := { r with children := Markup.parse markup }
  have hparsed : parsed.text ≠ [] := h
  change { parsed with caret := parsed.locate parsed.text.length }.caretOffset =
    some parsed.text.length
  cases hlocate : parsed.locate parsed.text.length with
  | none =>
    rcases locate_eq_none_iff.1 hlocate with hnil | hlength
    · exact absurd hnil (texts_ne_nil hparsed)
    · omega
  | some c => exact caretOffset_of_locate hlocate

theorem text_write (r : RichRegion) (markup : Text) (caret : Option Nat) :
    (r.write markup caret).text = Node.textContent (Markup.parse markup) := by
  cases caret with
  | none => rfl
  | some offset => rfl

/-- The caret goes to its place in the new text, or to the end. -/
theorem caretOffset_write (h : (r.load markup).text ≠ []) (caret : Option Nat) :
    (r.write markup caret).caretOffset =
      some (min (caret.getD (r.load markup).text.length) (r.load markup).text.length) := by
  cases caret with
  | none =>
    rw [Option.getD_none, Nat.min_self]
    exact caretOffset_load h
  | some offset =>
    rw [Option.getD_some, write]
    by_cases hoffset : offset ≤ (r.load markup).text.length
    · rw [Nat.min_eq_left hoffset]
      exact caretOffset_placeCaret (texts_ne_nil h) hoffset
    · have hbehind : (r.load markup).text.length < offset := Nat.lt_of_not_le hoffset
      rw [Nat.min_eq_right (Nat.le_of_lt hbehind), placeCaret_eq_self (.inr hbehind)]
      exact caretOffset_load h

end RichRegion

namespace Surface

/-- Its text can be reached: it is no document of another origin. -/
def Reachable : Surface → Prop
  | embedded d => d.body.isSome
  | _ => True

variable {surface : Surface} {t : Text}

theorem Reachable.cases (h : surface.Reachable) :
    (∃ f, surface = plain f) ∨ (∃ r, surface = rich r) ∨
      ∃ r events, surface = embedded ⟨some r, events⟩ := by
  cases surface with
  | plain f => exact .inl ⟨f, rfl⟩
  | rich r => exact .inr (.inl ⟨r, rfl⟩)
  | embedded d =>
    obtain ⟨body, events⟩ := d
    obtain ⟨r, rfl⟩ := Option.isSome_iff_exists.1 h
    exact .inr (.inr ⟨r, events, rfl⟩)

theorem Reachable.perform (h : surface.Reachable) (c : Call) : (surface.perform c).Reachable := by
  rcases h.cases with ⟨f, rfl⟩ | ⟨r, rfl⟩ | ⟨r, events, rfl⟩
  · cases c <;> trivial
  · cases c <;> trivial
  · cases c <;> rfl

theorem text_write (h : surface.Reachable) (ht : t.MarkupFree) (caret : Option Nat) :
    (surface.write t caret).text = t := by
  have hregion (r : RichRegion) : (r.write t caret).text = t :=
    (r.text_write t caret).trans ht.textContent_parse
  rcases h.cases with ⟨f, rfl⟩ | ⟨r, rfl⟩ | ⟨r, events, rfl⟩
  · rfl
  · exact hregion r
  · exact hregion r

theorem caretOffset_write (h : surface.Reachable) (ht : t.MarkupFree) (hne : t ≠ [])
    (caret : Option Nat) :
    (surface.write t caret).caretOffset = some (min (caret.getD t.length) t.length) := by
  have hregion (r : RichRegion) :
      (r.write t caret).caretOffset = some (min (caret.getD t.length) t.length) := by
    have hload : (r.load t).text = t := ht.textContent_parse
    have hshown : (r.load t).text ≠ [] := by rwa [hload]
    rw [RichRegion.caretOffset_write hshown, hload]
  rcases h.cases with ⟨f, rfl⟩ | ⟨r, rfl⟩ | ⟨r, events, rfl⟩
  · rfl
  · exact hregion r
  · exact hregion r

theorem text_placeCaret (surface : Surface) (offset : Nat) :
    (surface.placeCaret offset).text = surface.text := by
  cases surface with
  | plain f => rfl
  | rich r => rfl
  | embedded d =>
    obtain ⟨body, events⟩ := d
    cases body <;> rfl

theorem caretOffset_placeCaret {offset : Nat} (h : surface.Reachable) (hne : surface.text ≠ [])
    (hoffset : offset ≤ surface.text.length) :
    (surface.placeCaret offset).caretOffset = some offset := by
  rcases h.cases with ⟨f, rfl⟩ | ⟨r, rfl⟩ | ⟨r, events, rfl⟩
  · exact congrArg some (Nat.min_eq_left hoffset)
  · exact RichRegion.caretOffset_placeCaret (RichRegion.texts_ne_nil hne) hoffset
  · exact RichRegion.caretOffset_placeCaret (RichRegion.texts_ne_nil hne) hoffset

theorem text_dispatch (surface : Surface) (event : SurfaceEvent) :
    (surface.dispatch event).text = surface.text := by
  cases surface <;> rfl

theorem caretOffset_dispatch (surface : Surface) (event : SurfaceEvent) :
    (surface.dispatch event).caretOffset = surface.caretOffset := by
  cases surface <;> rfl

theorem events_dispatch (surface : Surface) (event : SurfaceEvent) :
    (surface.dispatch event).events = surface.events ++ [event] := by
  cases surface <;> rfl

theorem events_write (surface : Surface) (caret : Option Nat) :
    (surface.write t caret).events = surface.events := by
  cases surface with
  | plain f => rfl
  | rich r => cases caret <;> rfl
  | embedded d => rfl

theorem events_placeCaret (surface : Surface) (offset : Nat) :
    (surface.placeCaret offset).events = surface.events := by
  cases surface <;> rfl

theorem measure_eq (h : surface.Reachable) (ht : t.MarkupFree) : surface.measure t = t.length := by
  have hregion : RichRegion.measure t = t.length := congrArg List.length ht.textContent_parse
  rcases h.cases with ⟨f, rfl⟩ | ⟨r, rfl⟩ | ⟨r, events, rfl⟩
  · rfl
  · exact hregion
  · exact hregion

end Surface
end SnippetExpansion

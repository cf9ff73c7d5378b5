import SnippetExpansion.Proofs.Surface.Caret
import Mathlib.Data.Nat.PSub

/-! # The caret of a region
Whatever is done to a region, its caret stands where the search for some offset within the text would put it.
So it stands in one of the texts and not behind its end, and at the beginning of a text only if that is the
first: the search ends at the first text that reaches the offset, and before a later one it has gone past all
the earlier texts. -/
namespace SnippetExpansion

namespace Caret

variable {node offset position : Nat} {texts : List Text} {c : Caret}

theorem exists_text_of_locateFrom (h : locateFrom node offset texts = some c) :
    ∃ t, texts[c.node - node]? = some t ∧ c.offset ≤ t.length ∧ (c.offset = 0 → c.node = node) := by
  induction texts generalizing node offset with
  | nil => cases h
  | cons t texts ih =>
    rw [locateFrom] at h
    by_cases hreached : offset ≤ t.length
    · rw [if_pos hreached] at h
      obtain rfl := Option.some.inj h
      refine ⟨t, ?_, hreached, fun _ => rfl⟩
      simp
    · rw [if_neg hreached] at h
      obtain ⟨hnode, hoffset⟩ := locateFrom_eq_some h
      obtain ⟨u, hu, hreaches, hbeginning⟩ := ih h
      have hskip : c.node - node = c.node - (node + 1) + 1 := by omega
      refine ⟨u, ?_, hreaches, ?_⟩
      · rw [hskip, List.getElem?_cons_succ]
        exact hu
      · -- something of the offset was left when the first text had been passed
        intro hzero
        have hfirst : c.node - (node + 1) = 0 := by
          have := hbeginning hzero
          omega
        rw [offsetFrom, hfirst, hzero] at hoffset
        simp only [List.take_zero, Text.totalLength] at hoffset
        omega

/-- The search as one that notes where each text begins: which text reaches the offset, and how far the
offset is behind its beginning, unless it is before it. -/
def seek (offset : Nat) : Nat → Nat → List Text → Option (Nat × Option Nat)
  | _, _, [] => none
  | node, position, t :: rest =>
    if offset ≤ position + t.length then some (node, offset.psub position)
    else seek offset (node + 1) (position + t.length) rest

theorem seek_eq (h : position ≤ offset) :
    seek offset node position texts =
      (locateFrom node (offset - position) texts).map fun c => (c.node, some c.offset) := by
  induction texts generalizing node position with
  | nil => rfl
  | cons t texts ih =>
    rw [seek, locateFrom]
    by_cases hreached : offset ≤ position + t.length
    · have hbehind : offset.psub position = some (offset - position) :=
        Nat.psub_eq_some.2 (Nat.sub_add_cancel h)
      rw [if_pos hreached, if_pos (by omega), hbehind]
      rfl
    · rw [if_neg hreached, if_neg (by omega), ih (by omega), Nat.sub_sub]

end Caret

namespace RichRegion

/-- The regions there can be: new ones, and what becomes of them by loading and by calls in any order. -/
inductive Reached : RichRegion → Prop where
  | empty (editing : Editing) : Reached (.empty editing)
  | load {r : RichRegion} (markup : Text) : Reached r → Reached (r.load markup)
  | call {r r' : RichRegion} (c : Call) :
    Reached r → (Surface.rich r).perform c = .rich r' → Reached r'

variable {r r' : RichRegion}

/-- The caret is where some offset within the text is. -/
def Anchored (r : RichRegion) : Prop := ∃ offset ≤ r.text.length, r.caret = r.locate offset

theorem anchored_empty (editing : Editing) : (empty editing).Anchored := ⟨0, Nat.zero_le _, rfl⟩

theorem anchored_load (r : RichRegion) (markup : Text) : (r.load markup).Anchored :=
  ⟨(r.load markup).text.length, Nat.le_refl _, rfl⟩

theorem Anchored.placeCaret (h : r.Anchored) (offset : Nat) : (r.placeCaret offset).Anchored := by
  cases hlocate : r.locate offset with
  | none =>
    rw [placeCaret_eq_self (locate_eq_none_iff.1 hlocate)]
    exact h
  | some c =>
    refine ⟨offset, ?_, ?_⟩
    · by_contra hbehind
      have hnone : r.locate offset = none := locate_eq_none_iff.2 (.inr (Nat.lt_of_not_le hbehind))
      rw [hnone] at hlocate
      cases hlocate
    · rw [RichRegion.placeCaret, hlocate]
      exact hlocate.symm

theorem anchored_write (r : RichRegion) (markup : Text) (caret : Option Nat) :
    (r.write markup caret).Anchored := by
  cases caret with
  | none => exact anchored_load r markup
  | some offset => exact (anchored_load r markup).placeCaret offset

theorem Anchored.call (h : r.Anchored) {c : Call} (hcall : (Surface.rich r).perform c = .rich r') :
    r'.Anchored := by
  cases c with
  | write markup caret =>
    obtain rfl := Surface.rich.inj hcall
    exact anchored_write r markup caret
  | placeCaret offset =>
    obtain rfl := Surface.rich.inj hcall
    exact h.placeCaret offset
  | dispatch event =>
    obtain rfl := Surface.rich.inj hcall
    exact h

theorem Reached.anchored (h : r.Reached) : r.Anchored := by
  induction h with
  | empty editing => exact anchored_empty editing
  | load markup _ _ => exact anchored_load _ markup
  | call c _ hcall ih => exact ih.call hcall

theorem Anchored.isSome_caret_iff (h : r.Anchored) :
    r.caret.isSome ↔ Node.textsOfAll r.children ≠ [] := by
  obtain ⟨offset, hoffset, hcaret⟩ := h
  rw [hcaret, Option.isSome_iff_ne_none, ne_eq, locate_eq_none_iff, not_or]
  constructor
  · intro h
    exact h.1
  · intro hnil
    exact ⟨hnil, Nat.not_lt.2 hoffset⟩

theorem Anchored.exists_text (h : r.Anchored) {c : Caret} (hc : r.caret = some c) :
    ∃ t, (Node.textsOfAll r.children)[c.node]? = some t ∧ c.offset ≤ t.length ∧
      (c.offset = 0 → c.node = 0) := by
  obtain ⟨offset, -, hcaret⟩ := h
  exact Caret.exists_text_of_locateFrom (hcaret.symm.trans hc)

theorem Anchored.locate_caretOffset (h : r.Anchored) : r.caretOffset.bind r.locate = r.caret := by
  obtain ⟨offset, -, hcaret⟩ := h
  cases hlocate : r.locate offset with
  | none =>
    rw [caretOffset, hcaret, hlocate]
    rfl
  | some c =>
    have hoffset : r.caretOffset = some offset := by
      rw [← caretOffset_of_locate hlocate, ← hlocate, ← hcaret]
    rw [hoffset, hcaret]
    rfl

theorem Anchored.caretOffset_le (h : r.Anchored) {offset : Nat} (hoffset : r.caretOffset = some offset) :
    offset ≤ r.text.length := by
  by_contra hbehind
  have hcaret : r.caret = none := by
    rw [← h.locate_caretOffset, hoffset, Option.bind_some]
    exact locate_eq_none_iff.2 (.inr (Nat.lt_of_not_le hbehind))
  rw [caretOffset, hcaret] at hoffset
  cases hoffset

/-- What there is to say of the caret of a region, and of the search that finds its place. -/
structure Selected (r : RichRegion) : Prop where
  isSome_caret_iff : r.caret.isSome ↔ Node.textsOfAll r.children ≠ []
  exists_text : ∀ c, r.caret = some c → ∃ t, (Node.textsOfAll r.children)[c.node]? = some t ∧
    c.offset ≤ t.length ∧ (c.offset = 0 → c.node = 0)
  caretOffset_le : ∀ offset, r.caretOffset = some offset → offset ≤ r.text.length
  caretOffset_placeCaret : ∀ offset ≤ r.text.length, Node.textsOfAll r.children ≠ [] →
    (r.placeCaret offset).caretOffset = some offset
  caret_placeCaret : ∀ offset, ¬(offset ≤ r.text.length ∧ Node.textsOfAll r.children ≠ []) →
    (r.placeCaret offset).caret = r.caret
  /-- Every subtraction of the search is from a number at least as large. -/
  seek_eq : ∀ offset, Caret.seek offset 0 0 (Node.textsOfAll r.children) =
    (r.locate offset).map fun c => (c.node, some c.offset)

theorem Reached.selected (h : r.Reached) : r.Selected where
  isSome_caret_iff := h.anchored.isSome_caret_iff
  exists_text := fun _ hc => h.anchored.exists_text hc
  caretOffset_le := fun _ hoffset => h.anchored.caretOffset_le hoffset
  caretOffset_placeCaret := fun _ hoffset htexts => RichRegion.caretOffset_placeCaret htexts hoffset
  caret_placeCaret := by
    intro offset hnone
    rw [placeCaret_eq_self]
    rcases not_and_or.1 hnone with hlength | hnil
    · exact .inr (Nat.lt_of_not_le hlength)
    · exact .inl (not_not.1 hnil)
  seek_eq := fun offset => Caret.seek_eq (Nat.zero_le offset)

def halfBold : RichRegion := ((empty .region).load "ab<b>cd</b>ef".toList).placeCaret 3

theorem reached_halfBold : halfBold.Reached :=
  .call (.placeCaret 3) (.load _ (.empty .region)) rfl

theorem selected_halfBold : halfBold.Reached ∧ halfBold.Selected ∧ halfBold.caret = some ⟨1, 1⟩ :=
  ⟨reached_halfBold, reached_halfBold.selected, by decide +kernel⟩

end RichRegion
end SnippetExpansion

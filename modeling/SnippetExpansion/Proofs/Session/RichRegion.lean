import SnippetExpansion.Proofs.Surface.Caret
import SnippetExpansion.Proofs.Session.Incremental

/-! # Replacing a shortcut in a rich region
What is read from a region is text, and what is written to it is markup. A replacement reads what was typed,
and writes it back in front of the template; it stays in the region exactly if nothing in it, with the
template behind it, reads as a tag or as the name of a character. -/
namespace SnippetExpansion

open Text (BracketFree)

def Surface.region? : Surface → Option RichRegion
  | plain _ => none
  | rich r => some r
  | embedded d => d.body

namespace Surface

variable {surface : Surface} {r : RichRegion}

theorem text_of_region (h : surface.region? = some r) : surface.text = r.text := by
  cases surface with
  | plain f => cases h
  | rich r' => cases h; rfl
  | embedded d =>
    have hbody : d.body = some r := h
    rw [text, hbody]
    rfl

theorem text_write_of_region (h : surface.region? = some r) (markup : Text) :
    (surface.write markup none).text = Node.textContent (Markup.parse markup) := by
  cases surface with
  | plain f => cases h
  | rich r' => rfl
  | embedded d =>
    have hbody : d.body = some r := h
    rw [write, text, hbody]
    rfl

end Surface

theorem Segment.all_of_bracketFree {template : Text} (hne : template ≠ [])
    (hfree : BracketFree template) : Segment.all template = [.plain template] := by
  apply Text.cut_of_forall_none hne
  intro before c after hsplit
  apply Segment.finder_inner
  intro b
  exact hfree b c (hsplit ▸ List.mem_append_right before List.mem_cons_self)

namespace Session

variable {σ : Type} (outside : (r : Request) → StateM σ r.Answer) (maxDepth index : Nat)

theorem run_replace_literal {snippet : Snippet} {t : Text} {s : Session} {site : Site} (w : σ)
    (hliteral : Segment.all snippet.text = [.plain t]) (hidle : s.replacing = false)
    (hsite : s.sites[index]? = some site) :
    let current := Work.kept site.surface.text snippet.shortcut ++ t
    ∃ s', (((Work.replace maxDepth snippet).interpret (perform outside index)).run s).run w =
        ((.replaced current none, s'), w) ∧
      s'.site index =
        ((site.call (.write current none)).call (.dispatch .input)).call (.dispatch .change) := by
  obtain rfl := site_of_getElem? index hsite
  intro current
  let begun := { s with replacing := true }
  let written := begun.onSite index (·.call (.write current none))
  let told := (written.onSite index (·.call (.dispatch .input))).onSite index
    (·.call (.dispatch .change))
  refine ⟨{ told with replacing := false }, ?_, ?_⟩
  · rw [Work.replace, hliteral]
    obtain ⟨settings, snapshot, sites, clock, edits, replacing⟩ := s
    obtain rfl : replacing = false := hidle
    rfl
  · have hwritten : written.sites[index]? = some ((s.site index).call (.write current none)) :=
      sites_onSite index hsite _
    apply site_of_getElem?
    exact sites_onSite index (sites_onSite index hwritten _) _

theorem run_replace_region {snippet : Snippet} {before : Text} {s : Session} {surface : Surface}
    {r : RichRegion} {calls : List Call} (w : σ) (hidle : s.replacing = false)
    (hsite : s.sites[index]? = some ⟨surface, false, calls⟩) (hregion : surface.region? = some r)
    (htyped : r.text = before ++ snippet.shortcut) (hne : snippet.text ≠ [])
    (hfree : BracketFree snippet.text) :
    let ended := (((Work.replace maxDepth snippet).interpret (perform outside index)).run s).run w
    ended.1.1 = .replaced (before ++ snippet.text) none ∧
    (ended.1.2.site index).surface.text =
      Node.textContent (Markup.parse (before ++ snippet.text)) := by
  intro ended
  obtain ⟨s', hrun, hlast⟩ := run_replace_literal outside maxDepth index w
    (Segment.all_of_bracketFree hne hfree) hidle hsite
  have hkept : Work.kept surface.text snippet.shortcut = before := by
    rw [Surface.text_of_region hregion, htyped, Work.kept_append]
  rw [hkept] at hrun hlast
  have hended : ended = ((.replaced (before ++ snippet.text) none, s'), w) := hrun
  rw [hended, hlast]
  constructor
  · rfl
  · change (((surface.write (before ++ snippet.text) none).dispatch .input).dispatch .change).text = _
    rw [Surface.text_dispatch, Surface.text_dispatch, Surface.text_write_of_region hregion]

/-- What was typed in front of the shortcut survives exactly if it is plain text with the template behind it.
What is reported is in any case what was typed with the template in the place of the shortcut. -/
theorem typed_text_survives_iff {snippet : Snippet} {before : Text} {s : Session} {surface : Surface}
    {r : RichRegion} {calls : List Call} (w : σ) (hidle : s.replacing = false)
    (hsite : s.sites[index]? = some ⟨surface, false, calls⟩) (hregion : surface.region? = some r)
    (htyped : r.text = before ++ snippet.shortcut) (hne : snippet.text ≠ [])
    (hfree : BracketFree snippet.text) :
    let ended := (((Work.replace maxDepth snippet).interpret (perform outside index)).run s).run w
    ended.1.1 = .replaced (before ++ snippet.text) none ∧
    ((ended.1.2.site index).surface.text = before ++ snippet.text ↔
      Markup.IsPlain (before ++ snippet.text)) := by
  intro ended
  obtain ⟨hreported, hshown⟩ :=
    run_replace_region outside maxDepth index w hidle hsite hregion htyped hne hfree
  refine ⟨hreported, ?_⟩
  rw [hshown]
  exact Markup.textContent_parse_eq_self_iff

end Session

namespace TypedMarkup

def region (markup : Text) : RichRegion := (RichRegion.empty .region).load markup

def session (markup : Text) : Session :=
  .start .standard .empty [.fresh (.rich (region markup)) false]

def snippet : Snippet := ⟨[], "/x".toList, "hi".toList, none⟩

def replaced (markup : Text) : Replacement × Session :=
  (((Work.replace 10 snippet).interpret (Session.perform Surroundings.answer 0)).run
    (session markup)).run ⟨default, .ok [], [], fun _ _ _ => .ok [], []⟩ |>.1

/-- A region with a comparison in it, and one with what reads as a tag once it is written back. -/
theorem comparison_survives : (region "a &lt; b/x".toList).text = "a < b".toList ++ snippet.shortcut ∧
    snippet.text ≠ [] ∧ BracketFree snippet.text ∧
    (replaced "a &lt; b/x".toList).1 = .replaced ("a < b".toList ++ snippet.text) none ∧
    ((replaced "a &lt; b/x".toList).2.site 0).surface.text = "a < b".toList ++ snippet.text := by
  have htyped : (region "a &lt; b/x".toList).text = "a < b".toList ++ snippet.shortcut := by
    decide +kernel
  have hne : snippet.text ≠ [] := by decide
  have hfree : BracketFree snippet.text := by decide
  have hplain : Markup.IsPlain ("a < b".toList ++ snippet.text) :=
    Markup.textContent_parse_eq_self_iff.1 (by decide +kernel)
  obtain ⟨hreported, hshown⟩ := Session.typed_text_survives_iff Surroundings.answer 10 0
    (s := session "a &lt; b/x".toList) _ rfl rfl rfl htyped hne hfree
  exact ⟨htyped, hne, hfree, hreported, hshown.2 hplain⟩

/-- Three characters that were typed in front of the shortcut are gone. -/
theorem counterexample_tag_typed :
    (region "a&lt;b&gt;c/x".toList).text = "a<b>c".toList ++ snippet.shortcut ∧
    (replaced "a&lt;b&gt;c/x".toList).1 = .replaced ("a<b>c".toList ++ snippet.text) none ∧
    ((replaced "a&lt;b&gt;c/x".toList).2.site 0).surface.text = "achi".toList ∧
    "achi".toList ≠ "a<b>c".toList ++ snippet.text := by
  have htyped : (region "a&lt;b&gt;c/x".toList).text = "a<b>c".toList ++ snippet.shortcut := by
    decide +kernel
  have hmarkup : Node.textContent (Markup.parse ("a<b>c".toList ++ snippet.text)) = "achi".toList := by
    decide +kernel
  obtain ⟨hreported, hshown⟩ := Session.run_replace_region Surroundings.answer 10 0
    (s := session "a&lt;b&gt;c/x".toList) _ rfl rfl rfl htyped (by decide) (by decide)
  exact ⟨htyped, hreported, hshown.trans hmarkup, by decide⟩

end TypedMarkup
end SnippetExpansion

import SnippetExpansion.Session.Replacement
import SnippetExpansion.Session.Basic

/-! # What work does to its surface
Work learns of its surface and changes it by its own moves only. All else it is told may be anything:
the snapshot, the time, what services answer, and what other work does meanwhile. -/
namespace SnippetExpansion

namespace Site

def Allows (site : Site) : (m : Move) → m.Answer → Prop
  | .text, answer => answer = site.surface.text
  | .editable, answer => answer = site.surface.isEditable
  | .measure t, answer => answer = site.surface.measure t
  | .call c, answer => answer = site.outcome c
  | _, _ => True

def after (site : Site) : Move → Site
  | .call c => site.call c
  | _ => site

end Site

namespace Work

variable {α β : Type}

/-- Work on a site can end with this result and leave the site like that. -/
inductive Runs : Work α → Site → α → Site → Prop where
  | done (a : α) (site : Site) : Runs (.done a) site a site
  | ask {m : Move} {resume : m.Answer → Work α} {site last : Site} {a : α} (answer : m.Answer) :
      site.Allows m answer → Runs (resume answer) (site.after m) a last →
      Runs (.ask m resume) site a last

theorem runs_pure {a b : α} {site last : Site} (h : Runs (pure a) site b last) :
    b = a ∧ last = site := by
  cases h
  exact ⟨rfl, rfl⟩

theorem runs_bind {d : Work α} {f : α → Work β} {site last : Site} {b : β}
    (h : Runs (d >>= f) site b last) :
    ∃ a between, Runs d site a between ∧ Runs (f a) between b last := by
  induction d generalizing site with
  | done a => exact ⟨a, site, .done a site, h⟩
  | ask m resume ih =>
    cases h with
    | ask answer hallows hrest =>
      obtain ⟨a, between, hfirst, hthen⟩ := ih answer hrest
      exact ⟨a, between, .ask answer hallows hfirst, hthen⟩

theorem runs_request {m : Move} {answer : m.Answer} {site last : Site}
    (h : Runs (Dialogue.request m) site answer last) :
    site.Allows m answer ∧ last = site.after m := by
  cases h with
  | ask answer' hallows hrest =>
    cases hrest
    exact ⟨hallows, rfl⟩

theorem runs_request_bind {m : Move} {f : m.Answer → Work β} {site last : Site} {b : β}
    (h : Runs (Dialogue.request m >>= f) site b last) :
    ∃ answer, site.Allows m answer ∧ Runs (f answer) (site.after m) b last := by
  obtain ⟨answer, between, hfirst, hthen⟩ := runs_bind h
  obtain ⟨hallows, rfl⟩ := runs_request hfirst
  exact ⟨answer, hallows, hthen⟩

theorem answer_keeps_site (r : Request) (keys keys' : List Key) {a : r.Answer} {site last : Site}
    (h : Runs ((answer r).run keys) site (a, keys') last) : last = site := by
  cases r with
  | press key =>
    obtain ⟨-, rfl⟩ := runs_pure h
    rfl
  | _ =>
    obtain ⟨_, -, hrest⟩ := runs_request_bind h
    exact (runs_pure hrest).2

theorem ofExpansion_keeps_site (e : Expansion α) (keys keys' : List Key) {a : α}
    {site last : Site} (h : Runs ((e.interpret answer).run keys) site (a, keys') last) :
    last = site := by
  induction e generalizing site keys with
  | done a => exact (runs_pure h).2
  | ask r resume ih =>
    obtain ⟨⟨reply, gathered⟩, between, hanswer, hrest⟩ := runs_bind h
    obtain rfl := answer_keeps_site r keys gathered hanswer
    exact ih reply gathered hrest

theorem kept_append (before shortcut : Text) : kept (before ++ shortcut) shortcut = before := by
  rw [kept, List.length_append, Nat.add_sub_cancel, List.take_left]

end Work

namespace Session

variable {σ α β : Type} (outside : (r : Request) → StateM σ r.Answer) (index : Nat)

def ends (d : Work α) (s : Session) (w : σ) : (α × Session) × σ :=
  ((d.interpret (perform outside index)).run s).run w

theorem ends_bind_of {outside : (r : Request) → StateM σ r.Answer} {index : Nat} {d : Work α}
    {f : α → Work β} {a : α} {s t : Session} {w v : σ} (h : ends outside index d s w = ((a, t), v)) :
    ends outside index (d >>= f) s w = ends outside index (f a) t v := by
  have hrun : ((d.interpret (perform outside index)).run s).run w = ((a, t), v) := h
  rw [ends, Dialogue.interpret_bind, StateT.run_bind, StateT.run_bind, hrun]
  rfl

theorem site_of_getElem? {s : Session} {site : Site} (h : s.sites[index]? = some site) :
    s.site index = site := by
  rw [Session.site, h]
  rfl

theorem sites_onSite {s : Session} {site : Site} (h : s.sites[index]? = some site)
    (f : Site → Site) : (s.onSite index f).sites[index]? = some (f site) := by
  rw [onSite, List.getElem?_modify_eq, h]
  rfl

theorem perform_site {s : Session} {site : Site} (h : s.sites[index]? = some site) (m : Move)
    (w : σ) : site.Allows m (((perform outside index m).run s).run w).1.1 ∧
      (((perform outside index m).run s).run w).1.2.sites[index]? = some (site.after m) := by
  obtain rfl := site_of_getElem? index h
  cases m with
  | call c => exact ⟨rfl, sites_onSite index h (·.call c)⟩
  | text => exact ⟨rfl, h⟩
  | editable => exact ⟨rfl, h⟩
  | measure t => exact ⟨rfl, h⟩
  | _ => exact ⟨trivial, h⟩

/-- What work comes to in a session, whatever answers from outside, it can come to. -/
theorem runs_of_interpret (d : Work α) {s s' : Session} {site : Site} {w w' : σ} {a : α}
    (hsite : s.sites[index]? = some site)
    (h : ((d.interpret (perform outside index)).run s).run w = ((a, s'), w')) :
    Work.Runs d site a (s'.site index) := by
  induction d generalizing s site w with
  | done a =>
    cases h
    rw [site_of_getElem? index hsite]
    exact .done a site
  | ask m resume ih =>
    obtain ⟨hallows, hafter⟩ := perform_site outside index hsite m w
    exact .ask _ hallows (ih _ hafter h)

end Session
end SnippetExpansion

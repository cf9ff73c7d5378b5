import SnippetExpansion.Proofs.Template.BareName
import SnippetExpansion.Proofs.Template.Table
import Mathlib.Data.Fintype.Order
import Mathlib.Data.List.MinMax
import Mathlib.Logic.Relation

/-! # How deep values refer to one another
The values of variables may refer to other variables, and in a circle. Where they do not, a text nests to some
depth, and a limit that is not below it makes no difference. Where they do, the limit ends the expansion: there
are never more passes inside one another than it says. -/
namespace SnippetExpansion

open Placeholder

theorem mapM_map_result {m : Type → Type} [Monad m] [LawfulMonad m] {α β γ : Type} (g : β → γ)
    (f : α → m β) (l : List α) : (l.mapM fun a => g <$> f a) = List.map g <$> l.mapM f := by
  induction l with
  | nil => simp
  | cons a l ih =>
    simp only [List.mapM_cons, ih, map_bind, bind_map_left, map_pure, List.map_cons]

namespace Dialogue

variable {Q : Type} {A : Q → Type} {α β : Type} {ok : (q : Q) → A q → Prop}

/-- As long as the answers are of this kind, the two ask the same and come to the same. -/
def Alike (ok : (q : Q) → A q → Prop) : Dialogue Q A α → Dialogue Q A α → Prop
  | done a, other => other = done a
  | ask q resume, other =>
    ∃ resume', other = ask q resume' ∧ ∀ answer, ok q answer → (resume answer).Alike ok (resume' answer)

theorem Alike.refl (d : Dialogue Q A α) : d.Alike ok d := by
  induction d with
  | done a => rfl
  | ask q resume ih => exact ⟨resume, rfl, fun answer _ => ih answer⟩

theorem Alike.bind {d d' : Dialogue Q A α} {f f' : α → Dialogue Q A β} (h : d.Alike ok d')
    (hf : ∀ a, (f a).Alike ok (f' a)) : (d >>= f).Alike ok (d' >>= f') := by
  induction d generalizing d' with
  | done a =>
    obtain rfl : d' = done a := h
    exact hf a
  | ask q resume ih =>
    obtain ⟨resume', rfl, hresume⟩ := h
    exact ⟨fun answer => resume' answer >>= f', rfl, fun answer hok => ih answer (hresume answer hok)⟩

theorem Alike.mapM {f f' : α → Dialogue Q A β} {l : List α} (h : ∀ a ∈ l, (f a).Alike ok (f' a)) :
    (l.mapM f).Alike ok (l.mapM f') := by
  induction l with
  | nil => exact .refl _
  | cons a l ih =>
    obtain ⟨ha, hl⟩ := List.forall_mem_cons.1 h
    rw [List.mapM_cons, List.mapM_cons]
    exact ha.bind fun b => (ih hl).bind fun bs => .refl _

theorem Alike.run_interpret {σ : Type} {outside : (q : Q) → StateM σ (A q)} {good : σ → Prop}
    (hgood : ∀ q w, good w → ok q ((outside q).run w).1 ∧ good ((outside q).run w).2)
    {d d' : Dialogue Q A α} (h : d.Alike ok d') {w : σ} (hw : good w) :
    (d.interpret outside).run w = (d'.interpret outside).run w := by
  induction d generalizing d' w with
  | done a =>
    obtain rfl : d' = done a := h
    rfl
  | ask q resume ih =>
    obtain ⟨resume', rfl, hresume⟩ := h
    obtain ⟨hok, hnext⟩ := hgood q w hw
    exact ih _ (hresume _ hok) hnext

end Dialogue

namespace Snapshot

variable {s : Snapshot} {b : Bracket} {t u : Text} {m n : Nat}

def value? (s : Snapshot) (p : Placeholder) : Option Text :=
  match Command.lookup? p.key with
  | some _ => none
  | none => s.vars.find? p.key

def values (s : Snapshot) (b : Bracket) (t : Text) : List Text :=
  ((all b t).filter (·.resolvedIn b)).filterMap s.value?

def RefersTo (s : Snapshot) (b : Bracket) (t value : Text) : Prop := value ∈ s.values b t

/-- How deep a text nests: not at all where there is nothing to resolve, else one deeper than the values that it
refers to. -/
inductive Nest (s : Snapshot) (b : Bracket) : Text → Nat → Prop where
  | flat {t : Text} : occursIn b t = false → Nest s b t 0
  | deeper {t : Text} (nest : Text → Nat) : occursIn b t →
      (∀ value ∈ s.values b t, Nest s b value (nest value)) →
      Nest s b t (1 + ((s.values b t).map nest).foldr max 0)

theorem values_of_not_occursIn (h : occursIn b t = false) : s.values b t = [] := by
  have hnone : (all b t).filter (·.resolvedIn b) = [] :=
    List.filter_eq_nil_iff.2 fun p hp => List.any_eq_false.1 h p hp
  rw [values, hnone]
  rfl

theorem value?_mem_values {p : Placeholder} {value : Text} (hp : p ∈ distinct b t)
    (hvalue : s.value? p = some value) : value ∈ s.values b t :=
  List.mem_filterMap.2 ⟨p, List.mem_filter.2 (mem_distinct.1 hp), hvalue⟩

theorem RefersTo.mem_entries (h : s.RefersTo b t u) : u ∈ s.vars.entries.map Prod.snd := by
  obtain ⟨p, -, hvalue⟩ := List.mem_filterMap.1 h
  rw [value?] at hvalue
  split at hvalue
  · cases hvalue
  · obtain ⟨before, after, hentries, -⟩ := List.lookup_eq_some_iff.1 hvalue
    rw [hentries]
    exact List.mem_map.2 ⟨(p.key, u), List.mem_append_right before List.mem_cons_self, rfl⟩

theorem le_foldr_max (nest : Text → Nat) {values : List Text} (h : u ∈ values) :
    nest u ≤ (values.map nest).foldr max 0 :=
  List.le_max_of_le (List.mem_map_of_mem h) le_rfl

namespace Nest

theorem unique (h : s.Nest b t m) (h' : s.Nest b t n) : m = n := by
  induction h generalizing n with
  | flat hflat =>
    cases h' with
    | flat => rfl
    | deeper nest hoccurs => exact absurd hoccurs (by simp [hflat])
  | deeper nest hoccurs hvalues ih =>
    cases h' with
    | flat hflat => exact absurd hoccurs (by simp [hflat])
    | deeper nest' _ hvalues' =>
      rw [List.map_congr_left fun value hvalue => ih value hvalue (hvalues' value hvalue)]

theorem of_refersTo (h : s.Nest b t n) (href : s.RefersTo b t u) : ∃ m < n, s.Nest b u m := by
  cases h with
  | flat hflat =>
    rw [RefersTo, values_of_not_occursIn hflat] at href
    cases href
  | deeper nest _ hvalues =>
    have hmax := le_foldr_max nest href
    exact ⟨nest u, by omega, hvalues u href⟩

theorem of_transGen (h : s.Nest b t n) (href : Relation.TransGen (s.RefersTo b) t u) :
    ∃ m < n, s.Nest b u m := by
  induction href with
  | single href => exact h.of_refersTo href
  | tail _ href ih =>
    obtain ⟨m, hm, hnest⟩ := ih
    obtain ⟨m', hm', hnest'⟩ := hnest.of_refersTo href
    exact ⟨m', hm'.trans hm, hnest'⟩

theorem not_cyclic (h : s.Nest b t n) : ¬Relation.TransGen (s.RefersTo b) t t := by
  intro hcycle
  obtain ⟨m, hm, hnest⟩ := h.of_transGen hcycle
  exact hm.ne (hnest.unique h)

end Nest

theorem exists_nest_of_values (h : ∀ value ∈ s.values b t, ∃ n, s.Nest b value n) :
    ∃ n, s.Nest b t n := by
  cases hoccurs : occursIn b t with
  | false => exact ⟨0, .flat hoccurs⟩
  | true =>
    choose! nest hnest using h
    exact ⟨_, .deeper nest hoccurs hnest⟩

theorem reachable_finite (s : Snapshot) (b : Bracket) (t : Text) :
    {u | Relation.ReflTransGen (s.RefersTo b) t u}.Finite := by
  refine ((List.finite_toSet (s.vars.entries.map Prod.snd)).insert t).subset fun u hu => ?_
  rcases hu.cases_tail with rfl | ⟨v, -, href⟩
  · exact Set.mem_insert _ _
  · exact Set.mem_insert_of_mem t href.mem_entries

/-- A text nests to some depth exactly if it leads into no circle. -/
theorem exists_nest_iff : (∃ n, s.Nest b t n) ↔
    ∀ u, Relation.ReflTransGen (s.RefersTo b) t u → ¬Relation.TransGen (s.RefersTo b) u u := by
  constructor
  · rintro ⟨n, hnest⟩ u hu
    rcases Relation.reflTransGen_iff_eq_or_transGen.1 hu with rfl | hu
    · exact hnest.not_cyclic
    · obtain ⟨m, -, hnest⟩ := hnest.of_transGen hu
      exact hnest.not_cyclic
  · intro hacyclic
    -- there are finitely many texts to come to, and none of them is come to again
    let Reachable := {u // Relation.ReflTransGen (s.RefersTo b) t u}
    have : Finite Reachable := s.reachable_finite b t
    let below (u v : Reachable) : Prop := Relation.TransGen (s.RefersTo b) v.1 u.1
    have : Std.Irrefl below := ⟨fun u => hacyclic u.1 u.2⟩
    have : IsTrans Reachable below := ⟨fun _ _ _ huv hvw => hvw.trans huv⟩
    have hwf : WellFounded below := Finite.wellFounded_of_trans_of_irrefl below
    have hall (u : Reachable) : ∃ n, s.Nest b u.1 n :=
      hwf.induction (C := fun u => ∃ n, s.Nest b u.1 n) u fun u ih =>
        exists_nest_of_values fun value hvalue => ih ⟨value, u.2.tail hvalue⟩ (.single hvalue)
    exact hall ⟨t, .refl⟩

end Snapshot

section Levels

variable {s : Snapshot} {b : Bracket} {t : Text}

def Request.Tokenless (b : Bracket) : (r : Request) → r.Answer → Prop
  | .prompt _, reply => ∀ t, reply = some t → occursIn b t = false
  | .clipboard, _ | .generate _ _ _, _ | .clock, _ | .wait _, _ | .press _, _ => True

theorem alike_resolution {again again' : Text → Expansion Text} {p : Placeholder} (hp : p ∈ distinct b t)
    (hagain : ∀ value, s.value? p = some value → (again value).Alike (Request.Tokenless b) (again' value)) :
    (p.resolution s b again).Alike (Request.Tokenless b) (p.resolution s b again') := by
  obtain ⟨inside, habsent, rfl⟩ := inside_of_mem_distinct hp
  -- a command, a variable, a bare name or a question: a token that stands for itself is not passed over again
  have hitself : rescans b (ofInside b inside) (ofInside b inside).text = false := by simp [rescans]
  cases hcommand : Command.lookup? (ofInside b inside).key with
  | some command =>
    rw [Snapshot.resolution_of_lookup? habsent hcommand, Snapshot.resolution_of_lookup? habsent hcommand]
    exact .refl _
  | none =>
    rw [Snapshot.value?, hcommand] at hagain
    rw [resolution, resolution, Snapshot.resolve, hcommand]
    cases hvalue : s.vars.find? (ofInside b inside).key with
    | some value =>
      simp only [pure_bind]
      split
      · exact hagain value hvalue
      · exact .refl _
    | none =>
      cases (ofInside b inside).argument with
      | none =>
        simp only [pure_bind, hitself, Bool.false_eq_true, if_false]
        exact .refl _
      | some label =>
        refine ⟨_, rfl, fun reply htokenless => ?_⟩
        have honce : rescans b (ofInside b inside) (reply.getD (ofInside b inside).text) = false := by
          cases reply with
          | none => exact hitself
          | some answer => simp [rescans, htokenless answer rfl]
        change Dialogue.Alike _
          (if rescans b (ofInside b inside) (reply.getD (ofInside b inside).text) then _ else _)
          (if rescans b (ofInside b inside) (reply.getD (ofInside b inside).text) then _ else _)
        rw [honce]
        exact .refl _

/-- Once there are as many levels as the text nests deep, more make no difference. -/
theorem Snapshot.Nest.alike_resolveLevels {n : Nat} (h : s.Nest b t n) {levels more : Nat}
    (hlevels : n ≤ levels) (hmore : n ≤ more) :
    (resolveLevels s b levels t).Alike (Request.Tokenless b) (resolveLevels s b more t) := by
  -- by how the text nests; one level is used up on the way to the values, and one of the nesting as well
  induction h generalizing levels more with
  | flat hflat =>
    have hunresolved := fun p hp => eq_false_of_ne_true (List.any_eq_false.1 hflat p hp)
    rw [resolveLevels_unresolved hunresolved, resolveLevels_unresolved hunresolved]
    exact .refl _
  | @deeper t nest _ _ ih =>
    obtain ⟨levels, rfl⟩ : ∃ k, levels = k + 1 := ⟨levels - 1, by omega⟩
    obtain ⟨more, rfl⟩ : ∃ k, more = k + 1 := ⟨more - 1, by omega⟩
    rw [resolveLevels_eq, resolveLevels_eq]
    refine Dialogue.Alike.bind (.mapM fun p hp => alike_resolution hp fun value hvalue => ?_)
      fun values => .refl _
    have hmem := Snapshot.value?_mem_values hp hvalue
    have hnest := Snapshot.le_foldr_max nest hmem
    exact ih value hmem (by omega) (by omega)

end Levels

section Count

variable (s : Snapshot) (b : Bracket)

/-- Resolves a text like `resolveText`, and counts how many passes are inside one another. -/
def nestedPasses (maxDepth depth : Nat) (t : Text) : Expansion (Text × Nat) := do
  let values ← (distinct b t).mapM fun p => do
    let first ← s.resolve p
    if p.rescans b first then
      if depth + 1 < maxDepth then nestedPasses maxDepth (depth + 1) first else pure (first, 0)
    else pure (first, 0)
  pure (putIn b t (values.map Prod.fst), 1 + (values.map Prod.snd).foldr max 0)
termination_by maxDepth - depth

theorem map_fst_nestedPasses (maxDepth depth : Nat) (t : Text) :
    Prod.fst <$> nestedPasses s b maxDepth depth t = resolveText s maxDepth b depth t := by
  fun_induction nestedPasses s b maxDepth depth t with
  | case1 depth t ih =>
    have hvalue (p : Placeholder) : p.resolution s b (resolveNested s maxDepth b depth) =
        Prod.fst <$> (s.resolve p >>= fun first => if p.rescans b first then
          if depth + 1 < maxDepth then nestedPasses s b maxDepth (depth + 1) first else pure (first, 0)
        else pure (first, 0)) := by
      rw [resolution, map_bind]
      refine bind_congr fun first => ?_
      split
      · rw [resolveNested]
        split
        · next hdeeper => exact (ih first hdeeper).symm
        · rfl
      · rfl
    rw [resolveText_eq, funext hvalue, mapM_map_result, bind_map_left, map_bind]
    rfl

theorem nestedPasses_le (maxDepth depth : Nat) (t : Text) :
    (nestedPasses s b maxDepth depth t).AsksOnly (fun _ => True) fun r => r.2 ≤ max 1 (maxDepth - depth) := by
  fun_induction nestedPasses s b maxDepth depth t with
  | case1 depth t ih =>
    have hvalue (p : Placeholder) :
        (s.resolve p >>= fun first => if p.rescans b first then
          if depth + 1 < maxDepth then nestedPasses s b maxDepth (depth + 1) first else pure (first, 0)
        else pure (first, 0)).AsksOnly (fun _ => True) fun r => r.2 ≤ max 1 (maxDepth - depth) - 1 := by
      refine (Dialogue.asksOnly_anything _).bind fun first _ => ?_
      split
      · split
        · next hdeeper =>
          exact (ih first hdeeper).imp (fun _ h => h) fun r hr => by omega
        · exact Dialogue.asksOnly_pure (Nat.zero_le _)
      · exact Dialogue.asksOnly_pure (Nat.zero_le _)
    refine (Dialogue.AsksOnly.mapM fun p _ => hvalue p).bind fun values hvalues => Dialogue.asksOnly_pure ?_
    have hmax : (values.map Prod.snd).foldr max 0 ≤ max 1 (maxDepth - depth) - 1 :=
      List.max_le_of_forall_le _ _ (List.forall_mem_map.2 hvalues)
    change 1 + _ ≤ _
    omega

end Count

/-- A text nests to some depth exactly if it leads into no circle. If no answer to a prompt holds more to
resolve, every limit that is not below this depth gives the same text, with the same questions and keys. And
whatever refers to whatever, there are never more passes inside one another than the limit says, or one if it
says none. -/
theorem depth_limit_cuts_deep_only (s : Snapshot) (b : Bracket) (maxDepth : Nat) (t : Text) :
    ((∃ n, s.Nest b t n) ↔
      ∀ u, Relation.ReflTransGen (s.RefersTo b) t u → ¬Relation.TransGen (s.RefersTo b) u u) ∧
    (∀ n limit, s.Nest b t n → n ≤ maxDepth → maxDepth ≤ limit →
      ∀ {σ : Type} (outside : (r : Request) → StateM σ r.Answer) (good : σ → Prop),
        (∀ r w, good w → Request.Tokenless b r ((outside r).run w).1 ∧ good ((outside r).run w).2) →
        ∀ w, good w → ((resolveText s maxDepth b 0 t).interpret outside).run w =
          ((resolveText s limit b 0 t).interpret outside).run w) ∧
    Prod.fst <$> nestedPasses s b maxDepth 0 t = resolveText s maxDepth b 0 t ∧
    (nestedPasses s b maxDepth 0 t).AsksOnly (fun _ => True) fun r => r.2 ≤ max 1 maxDepth := by
  refine ⟨Snapshot.exists_nest_iff, ?_, map_fst_nestedPasses s b maxDepth 0 t,
    nestedPasses_le s b maxDepth 0 t⟩
  intro n limit hnest hdeep hlimit σ outside good hgood w hw
  rw [resolveText, resolveText]
  exact (hnest.alike_resolveLevels (by omega) (by omega)).run_interpret hgood hw

namespace Chain

def inner : Text := "[q:Name]!".toList

def outer : Text := "<[in]>".toList

def text : Text := "[out] and [in]".toList

def snapshot : Snapshot :=
  { Snapshot.empty with vars :=
      (Dictionary.empty.insert "in".toList inner).insert "out".toList outer }

def world : Surroundings :=
  { Surroundings.alone default (.ok []) with prompts := [some "Ada".toList, some "Bob".toList] }

def Good (world : Surroundings) : Prop := ∀ t, some t ∈ world.prompts → occursIn .square t = false

theorem good_answer (r : Request) (w : Surroundings) (hw : Good w) :
    Request.Tokenless .square r ((Surroundings.answer r).run w).1 ∧
      Good ((Surroundings.answer r).run w).2 := by
  cases r with
  | prompt label =>
    refine ⟨fun t ht => ?_, fun t ht => hw t (List.mem_of_mem_tail ht)⟩
    have hhead : w.prompts.head?.join = some t := ht
    exact hw t (List.mem_of_mem_head? (Option.join_eq_some_iff.1 hhead))
  | clipboard | generate | clock | wait | press => exact ⟨trivial, hw⟩

theorem nest_text : snapshot.Nest .square text 3 := by
  have hnone : snapshot.values .square inner = [] := by decide +kernel
  have hinner : snapshot.values .square outer = [inner] := by decide +kernel
  have hboth : snapshot.values .square text = [outer, inner] := by decide +kernel
  have hone := Snapshot.Nest.deeper (s := snapshot) (b := .square) (t := inner) (fun _ => 0)
    (by decide +kernel) (by rw [hnone]; exact nofun)
  rw [hnone] at hone
  have htwo := Snapshot.Nest.deeper (s := snapshot) (b := .square) (t := outer) (fun _ => 1)
    (by decide +kernel) (by rw [hinner]; exact List.forall_mem_singleton.2 hone)
  rw [hinner] at htwo
  have hthree := Snapshot.Nest.deeper (s := snapshot) (b := .square) (t := text)
    (fun value => if value = outer then 2 else 1) (by decide +kernel) (by
      rw [hboth]
      exact List.forall_mem_cons.2 ⟨htwo, List.forall_mem_singleton.2 hone⟩)
  rw [hboth] at hthree
  exact hthree

/-- A variable that refers to another one, which asks the user. -/
theorem depth_limit_cuts_deep_only_chain :
    snapshot.Nest .square text 3 ∧ Good world ∧
    world.run (resolveText snapshot 3 .square 0 text) = world.run (resolveText snapshot 10 .square 0 text) ∧
    (world.run (resolveText snapshot 3 .square 0 text)).1 = "<Ada!> and Bob!".toList ∧
    (world.run (resolveText snapshot 2 .square 0 text)).1 = "<[q:Name]!> and Ada!".toList := by
  have hworld : Good world := by
    intro t ht
    rcases List.mem_cons.1 ht with h | h
    · obtain rfl := Option.some.inj h
      decide
    · obtain rfl := Option.some.inj (List.mem_singleton.1 h)
      decide
  exact ⟨nest_text, hworld, (depth_limit_cuts_deep_only snapshot .square 3 text).2.1 3 10 nest_text le_rfl
    (by decide) Surroundings.answer Good good_answer world hworld, by decide +kernel, by decide +kernel⟩

/-- A variable that refers to itself is passed over until the limit is reached. -/
example : (world.run (nestedPasses
    { Snapshot.empty with vars := Dictionary.empty.insert ['v'] "x[v]y[v]".toList } .square 3 0
      "[v]".toList)).1.2 = 3 := by
  decide +kernel

end Chain
end SnippetExpansion

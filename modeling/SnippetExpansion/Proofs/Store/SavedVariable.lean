import SnippetExpansion.Proofs.Store.VariableNames
import SnippetExpansion.Proofs.Template.BareName
import SnippetExpansion.Proofs.Template.InnerTokens
import SnippetExpansion.Proofs.Template.Unanswered

/-! # Which variables can be used
A name in braces comes to the variable of this name as long as the passes see the name as it is. A colon ends
the key before the name does, and a token in square brackets is replaced before the name is looked up: a
variable with such a name need not be read. -/
namespace SnippetExpansion

open Text (BracketFree)
open Placeholder

theorem infix_of_between {α : Type} {l m : List α} {first last : α}
    (h : l <:+: first :: (m ++ [last])) (hfirst : l.head? ≠ some first)
    (hlast : l.getLast? ≠ some last) : l <:+: m := by
  rcases List.infix_cons_iff.1 h with hstarts | hrest
  · cases l with
    | nil => exact List.nil_infix
    | cons a l => exact absurd (congrArg some (List.cons_prefix_cons.1 hstarts).1) hfirst
  · rcases List.infix_concat_iff.1 hrest with hends | hinside
    · rcases List.suffix_concat_iff.1 hends with rfl | ⟨l, rfl, -⟩
      · exact List.nil_infix
      · exact absurd List.getLast?_concat hlast
    · exact hinside

theorem mem_all_written_curly {name : Text} {p : Placeholder} :
    p ∈ all .square (written .curly name) ↔ p ∈ all .square name := by
  rw [Pattern.mem_all, Pattern.mem_all]
  refine exists_congr fun inside => and_congr_left fun _ => ⟨fun h => ?_, fun h => ?_⟩
  · refine infix_of_between h (by simp [written, Bracket.opener]) ?_
    rw [written, ← List.cons_append, List.getLast?_concat]
    decide
  · exact h.trans ⟨['\x7b'], ['\x7d'], rfl⟩

theorem expand_variable {s : Snapshot} {name value : Text} (hcurly : Bracket.curly.Absent name)
    (hsquare : all .square name = []) (hcolon : ':' ∉ name) (hne : name ≠ [])
    (hvar : s.vars.find? name = some value) (hvalue : Bracket.curly.Absent value) (maxDepth : Nat) :
    expand s maxDepth (written .curly name) = pure value := by
  have hnothing : all .square (written .curly name) = [] := by
    rw [List.eq_nil_iff_forall_not_mem] at hsquare ⊢
    exact fun p hp => hsquare p (mem_all_written_curly.1 hp)
  have hsettled : ∀ p ∈ all .curly value, p.resolvedIn .curly = false := by
    rw [all_of_absent hvalue]
    exact nofun
  rw [expand_name hcurly hnothing hcolon hne, bareValue, hvar]
  exact resolveText_unresolved hsettled maxDepth 0

/-- The same but for one variable. -/
structure Snapshot.AgreeOff (name : Text) (s s' : Snapshot) : Prop where
  ai : s.ai = s'.ai
  vars : ∀ key, key ≠ name → s.vars.find? key = s'.vars.find? key

namespace Snapshot.AgreeOff

variable {name : Text} {s s' : Snapshot} {p : Placeholder}

theorem runCommand (h : AgreeOff name s s') (command : Command) (argument : Text) :
    s.runCommand command argument = s'.runCommand command argument := by
  rw [Snapshot.runCommand, Snapshot.runCommand, h.ai]

theorem resolve (h : AgreeOff name s s') (hp : p.key ≠ name) : s.resolve p = s'.resolve p := by
  simp only [Snapshot.resolve, h.vars _ hp, h.runCommand]

theorem bareValue (h : AgreeOff name s s') (hp : p.key ≠ name) :
    SnippetExpansion.bareValue s p = SnippetExpansion.bareValue s' p := by
  simp only [SnippetExpansion.bareValue, h.vars _ hp, h.runCommand]

end Snapshot.AgreeOff

def Piece.onceResolved (reply : (r : Request) → r.Answer) (s : Snapshot) (b : Bracket) :
    Piece Placeholder → Text
  | .plain t => t
  | .found t p => if p.resolvedIn b then (s.resolve p).outcome reply else t

section Silence

variable {reply : (r : Request) → r.Answer} (hsilent : ∀ label, reply (.prompt label) = none)
  {s s' : Snapshot} {name : Text} {b : Bracket} {maxDepth : Nat} {t : Text}
include hsilent

theorem rescans_of_silent (hs : s.BracketFree) {inside : Text} (hinside : b.Absent inside) :
    (ofInside b inside).rescans b ((s.resolve (ofInside b inside)).outcome reply) = false := by
  have hitself : (ofInside b inside).rescans b (ofInside b inside).text = false := by
    rw [rescans, bne_self_eq_false, Bool.and_false, Bool.false_and]
  cases hcommand : Command.lookup? (ofInside b inside).key with
  | some command =>
    exact (s.resolve_unprompted hinside hcommand).outcome reply
  | none =>
    rw [Snapshot.resolve, hcommand]
    cases hvar : s.vars.find? (ofInside b inside).key with
    | some value => exact rescans_of_absent (hs _ value hvar b)
    | none =>
      cases (ofInside b inside).argument with
      | none => exact hitself
      | some label =>
        have hasked : (Expansion.prompt label).outcome reply = none := hsilent label
        simp only [Dialogue.outcome_bind, hasked]
        exact hitself

theorem passed_eq_of_silent (hs : s.BracketFree) :
    passed reply s maxDepth b t = (pieces b t).flatMap (Piece.onceResolved reply s b) := by
  rw [passed, resolveText, resolveLevels_outcome]
  refine List.flatMap_congr fun piece hpiece => ?_
  cases piece with
  | plain u => rfl
  | found u p =>
    obtain ⟨inside, rfl, hinside, -, rfl⟩ := found_of_mem_pieces hpiece
    rw [Piece.resolution, Piece.onceResolved]
    split
    · rw [Dialogue.outcome_bind, rescans_of_silent hsilent hs hinside]
      rfl
    · rfl

theorem passed_agree (h : Snapshot.AgreeOff name s s') (hs : s.BracketFree) (hs' : s'.BracketFree)
    (hkeys : ∀ p ∈ all b t, p.key ≠ name) :
    passed reply s maxDepth b t = passed reply s' maxDepth b t := by
  rw [passed_eq_of_silent hsilent hs, passed_eq_of_silent hsilent hs']
  refine List.flatMap_congr fun piece hpiece => ?_
  cases piece with
  | plain u => rfl
  | found u p =>
    have hkey := hkeys p (mem_all_iff_found.2 ⟨u, hpiece⟩)
    rw [Piece.onceResolved, Piece.onceResolved, h.resolve hkey]

end Silence

theorem barePassed_eq (reply : (r : Request) → r.Answer) (s : Snapshot) (t : Text) :
    barePassed reply s t = (pieces .curly t).flatMap fun piece =>
      (piece.bareResolution s).outcome reply :=
  substituteBare_outcome _

theorem barePassed_agree {reply : (r : Request) → r.Answer} {s s' : Snapshot} {name t : Text}
    (h : Snapshot.AgreeOff name s s') (hkeys : ∀ p ∈ all .curly t, p.key ≠ name) :
    barePassed reply s t = barePassed reply s' t := by
  rw [barePassed_eq, barePassed_eq]
  refine List.flatMap_congr fun piece hpiece => ?_
  cases piece with
  | plain u => rfl
  | found u p =>
    have hkey := hkeys p (mem_all_iff_found.2 ⟨u, hpiece⟩)
    rw [Piece.bareResolution, Piece.bareResolution, h.bareValue hkey]

theorem expand_agree {reply : (r : Request) → r.Answer} {s s' : Snapshot} {name t : Text} {maxDepth : Nat}
    (hsilent : ∀ label, reply (.prompt label) = none) (h : Snapshot.AgreeOff name s s')
    (hs : s.BracketFree) (hs' : s'.BracketFree) (hsquare : ∀ p ∈ all .square t, p.key ≠ name)
    (hbare : ∀ p ∈ all .curly (passed reply s maxDepth .square t), p.key ≠ name)
    (hcurly : ∀ p ∈ all .curly (barePassed reply s (passed reply s maxDepth .square t)),
      p.key ≠ name) :
    (expand s maxDepth t).outcome reply = (expand s' maxDepth t).outcome reply := by
  rw [expand_outcome, expand_outcome, ← passed_agree hsilent h hs hs' hsquare,
    ← barePassed_agree h hbare, passed_agree hsilent h hs hs' hcurly]

theorem Placeholder.key_starts (b : Bracket) (inside : Text) : (ofInside b inside).key <+: inside := by
  have hread : Pattern.Reads b inside (ofInside b inside) := Pattern.reads_iff.2 rfl
  conv_rhs => rw [hread.divided]
  exact List.prefix_append _ _

theorem Placeholder.key_count_le {b : Bracket} {t : Text} {p : Placeholder} (hp : p ∈ all b t)
    (c : Char) : p.key.count c ≤ t.count c := by
  obtain ⟨inside, hpart, -, -, rfl⟩ := Pattern.mem_all.1 hp
  have hinside : inside <:+: written b inside := ⟨[b.opener], [b.closer], rfl⟩
  exact (((key_starts b inside).isInfix.trans hinside).trans hpart).sublist.count_le c

theorem Placeholder.opener_mem_of_mem_all {b : Bracket} {t : Text} {p : Placeholder} (hp : p ∈ all b t) :
    b.opener ∈ t := by
  obtain ⟨inside, hpart, -⟩ := Pattern.mem_all.1 hp
  exact hpart.subset List.mem_cons_self

theorem Placeholder.opener_not_mem_key {b : Bracket} {t : Text} {p : Placeholder} (hp : p ∈ all b t) :
    b.opener ∉ p.key := by
  obtain ⟨inside, -, hinside, -, rfl⟩ := Pattern.mem_all.1 hp
  exact fun hmem => absurd (hinside _ ((key_starts b inside).subset hmem)) (Bracket.not_isInner_opener b)

theorem count_flatMap_le {α : Type} {l : List α} {f g : α → Text} {c : Char}
    (h : ∀ a ∈ l, (f a).count c ≤ (g a).count c) : (l.flatMap f).count c ≤ (l.flatMap g).count c := by
  rw [List.count_flatMap, List.count_flatMap]
  exact List.sum_le_sum h

theorem count_flatMap_lt {α : Type} {l : List α} {f g : α → Text} {c : Char}
    (h : ∀ a ∈ l, (f a).count c ≤ (g a).count c) (hlt : ∃ a ∈ l, (f a).count c < (g a).count c) :
    (l.flatMap f).count c < (l.flatMap g).count c := by
  rw [List.count_flatMap, List.count_flatMap]
  exact List.sum_lt_sum _ _ h hlt

def Snapshot.beside (key name value : Text) : Snapshot :=
  .generating ((Dictionary.empty.insert key []).insert name value)

namespace Snapshot

variable {key name value value' : Text} {p : Placeholder}

theorem beside_find? (other : Text) : (beside key name value).vars.find? other =
    if other = name then some value else if other = key then some [] else none := by
  rw [beside, generating, Dictionary.find?_insert, Dictionary.find?_insert]
  rfl

theorem beside_agree (key name value value' : Text) :
    AgreeOff name (beside key name value) (beside key name value') where
  ai := rfl
  vars := fun other hother => by rw [beside_find?, beside_find?, if_neg hother, if_neg hother]

theorem beside_bracketFree (hvalue : Text.BracketFree value) : (beside key name value).BracketFree := by
  intro other found hfound
  rw [beside_find?] at hfound
  split_ifs at hfound <;> obtain rfl := Option.some.inj hfound
  · exact hvalue
  · exact .nil

end Snapshot

/-- The value has no opening square bracket, or it is the placeholder itself, and that has another name. -/
def Unsquared (key : Text) (p : Placeholder) (value : Text) : Prop :=
  value.count Bracket.square.opener = 0 ∨ value = p.text ∧ p.key ≠ key

theorem Unsquared.count_le {key value : Text} {p : Placeholder} (h : Unsquared key p value) :
    value.count Bracket.square.opener ≤ p.text.count Bracket.square.opener := by
  rcases h with hnone | ⟨rfl, -⟩
  · exact hnone ▸ Nat.zero_le _
  · exact Nat.le_refl _

section Telling

variable {key name value : Text} {p : Placeholder} {t : Text}

theorem unsquared_command (command : Command) :
    Unsquared key p (((Snapshot.beside key name value).runCommand command []).outcome
      (Surroundings.telling Bracket.square.opener).reply) :=
  .inl (List.count_eq_zero.2 (Surroundings.not_mem_told (Snapshot.generating_active _)
    (Text.opener_mem_signs .square) List.not_mem_nil))

theorem unsquared_variable (hname : p.key ≠ name) {found : Text}
    (hfound : (Snapshot.beside key name value).vars.find? p.key = some found) :
    Unsquared key p found := by
  rw [Snapshot.beside_find?, if_neg hname] at hfound
  split_ifs at hfound
  obtain rfl := Option.some.inj hfound
  exact .inl List.count_nil

theorem unsquared_itself (hname : p.key ≠ name)
    (hfound : (Snapshot.beside key name value).vars.find? p.key = none) : Unsquared key p p.text := by
  rw [Snapshot.beside_find?, if_neg hname] at hfound
  refine .inr ⟨rfl, fun hkey => ?_⟩
  rw [if_pos hkey] at hfound
  cases hfound

theorem unsquared_resolve (hname : p.key ≠ name) (hargument : p.argument = none) :
    Unsquared key p (((Snapshot.beside key name value).resolve p).outcome
      (Surroundings.telling Bracket.square.opener).reply) := by
  rw [Snapshot.resolve, argumentOrEmpty, hargument]
  split
  · exact unsquared_command _
  · split
    · next found hfound => exact unsquared_variable hname hfound
    · next hfound => exact unsquared_itself hname hfound

theorem unsquared_bareValue (hname : p.key ≠ name) :
    Unsquared key p ((bareValue (Snapshot.beside key name value) p).outcome
      (Surroundings.telling Bracket.square.opener).reply) := by
  rw [bareValue]
  split
  · next found hfound => exact unsquared_variable hname hfound
  · next hfound =>
    split
    · exact unsquared_command _
    · exact unsquared_itself hname hfound

/-- The pass over square brackets leaves fewer of them, once a token has the name of the other variable. -/
theorem count_passed_lt (maxDepth : Nat) (hvalue : BracketFree value) (hcolon : ':' ∉ t)
    (hkeys : ∀ q ∈ all .square t, q.key ≠ name) (hp : p ∈ all .square t) :
    (passed (Surroundings.telling Bracket.square.opener).reply (Snapshot.beside p.key name value)
      maxDepth .square t).count Bracket.square.opener < t.count Bracket.square.opener := by
  have hpiece {u : Text} {q : Placeholder} (hmem : .found u q ∈ pieces .square t) : u = q.text ∧
      Unsquared p.key q (((Snapshot.beside p.key name value).resolve q).outcome
        (Surroundings.telling Bracket.square.opener).reply) := by
    have hq := mem_all_iff_found.2 ⟨u, hmem⟩
    obtain ⟨inside, rfl, -, -, rfl⟩ := found_of_mem_pieces hmem
    obtain ⟨inside', hpart, -, -, hsame⟩ := Pattern.mem_all.1 hq
    obtain rfl := written_injective (congrArg Placeholder.text hsame)
    have hinside : ':' ∉ inside := fun h => hcolon (hpart.subset (by simp [written, h]))
    refine ⟨rfl, unsquared_resolve (hkeys _ hq) ?_⟩
    rw [Pattern.ofInside_of_key hinside]
  rw [passed_eq_of_silent (fun _ => rfl) (Snapshot.beside_bracketFree hvalue)]
  conv_rhs => rw [← Text.flatMap_text_cut (finder .square) t]
  refine count_flatMap_lt (fun piece hmem => ?_) ?_
  · cases piece with
    | plain u => exact Nat.le_refl _
    | found u q =>
      obtain ⟨rfl, hq⟩ := hpiece hmem
      exact hq.count_le
  · obtain ⟨u, hmem⟩ := mem_all_iff_found.1 hp
    obtain ⟨rfl, hvalue⟩ := hpiece hmem
    refine ⟨_, hmem, ?_⟩
    obtain ⟨inside, htext, -⟩ := found_of_mem_pieces hmem
    have hzero := hvalue.resolve_right fun h => h.2 rfl
    change List.count _ _ < List.count _ p.text
    rw [htext]
    change List.count _ (((Snapshot.beside p.key name value).resolve p).outcome _) < _
    rw [hzero]
    exact List.count_pos_iff.2 List.mem_cons_self

theorem count_barePassed_le (hkeys : ∀ q ∈ all .curly t, q.key ≠ name) :
    (barePassed (Surroundings.telling Bracket.square.opener).reply (Snapshot.beside key name value)
      t).count Bracket.square.opener ≤ t.count Bracket.square.opener := by
  rw [barePassed_eq]
  conv_rhs => rw [← Text.flatMap_text_cut (finder .curly) t]
  refine count_flatMap_le fun piece hmem => ?_
  cases piece with
  | plain u => exact Nat.le_refl _
  | found u q =>
    have hq := hkeys q (mem_all_iff_found.2 ⟨u, hmem⟩)
    obtain ⟨inside, rfl, -, -, rfl⟩ := found_of_mem_pieces hmem
    rw [Piece.bareResolution]
    split
    · exact Nat.le_refl _
    · exact (unsquared_bareValue hq).count_le

end Telling

/-- The name in braces comes to one text, whatever the variable of this name holds. -/
def Unread (key name : Text) (maxDepth : Nat) : Prop :=
  ∀ value value', BracketFree value → BracketFree value' →
    (expand (.beside key name value) maxDepth (written .curly name)).outcome
        (Surroundings.telling Bracket.square.opener).reply =
      (expand (.beside key name value') maxDepth (written .curly name)).outcome
        (Surroundings.telling Bracket.square.opener).reply

theorem unread_of_colon {name : Text} (h : ':' ∈ name) (key : Text) (maxDepth : Nat) :
    Unread key name maxDepth := by
  have hkeys {b : Bracket} {t : Text} : ∀ p ∈ all b t, p.key ≠ name := by
    rintro p hp rfl
    obtain ⟨inside, -, -, -, rfl⟩ := Pattern.mem_all.1 hp
    exact (Pattern.reads_iff.2 rfl).colonless h
  intro value value' hvalue hvalue'
  exact expand_agree (fun _ => rfl) (Snapshot.beside_agree key name value value')
    (Snapshot.beside_bracketFree hvalue) (Snapshot.beside_bracketFree hvalue') hkeys hkeys hkeys

theorem unread_of_token {name : Text} {p : Placeholder} (hcolon : ':' ∉ name)
    (hp : p ∈ all .square name) (maxDepth : Nat) : Unread p.key name maxDepth := by
  have hcolon' : ':' ∉ written .curly name := by
    simpa [written, Bracket.opener, Bracket.closer] using hcolon
  have hname : (written .curly name).count Bracket.square.opener =
      name.count Bracket.square.opener := by
    simp [written, Bracket.opener, Bracket.closer]
  have hsquare : ∀ q ∈ all .square (written .curly name), q.key ≠ name := by
    rintro q hq rfl
    exact opener_not_mem_key hq (opener_mem_of_mem_all hp)
  -- A text with fewer opening brackets than the name does not hold the name.
  have hfewer {t : Text} (ht : t.count Bracket.square.opener < name.count Bracket.square.opener) :
      ∀ q ∈ all .curly t, q.key ≠ name := by
    rintro q hq rfl
    exact absurd (key_count_le hq Bracket.square.opener) (Nat.not_le.2 ht)
  intro value value' hvalue hvalue'
  have hpassed := count_passed_lt maxDepth hvalue hcolon' hsquare (mem_all_written_curly.2 hp)
  rw [hname] at hpassed
  have hbare := hfewer hpassed
  exact expand_agree (fun _ => rfl) (Snapshot.beside_agree p.key name value value')
    (Snapshot.beside_bracketFree hvalue) (Snapshot.beside_bracketFree hvalue') hsquare hbare
    (hfewer ((count_barePassed_le hbare).trans_lt hpassed))

/-- A name with a colon is no key, and one with a token in square brackets is none any more when keys in
braces are looked up. -/
theorem exists_unread {name : Text} (h : ':' ∈ name ∨ all .square name ≠ []) (maxDepth : Nat) :
    ∃ key, Unread key name maxDepth := by
  by_cases hcolon : ':' ∈ name
  · exact ⟨[], unread_of_colon hcolon [] maxDepth⟩
  · obtain ⟨p, hp⟩ := List.exists_mem_of_ne_nil _ (h.resolve_left hcolon)
    exact ⟨p.key, unread_of_token hcolon hp maxDepth⟩

namespace Surroundings.Silent

variable {world : Surroundings}

theorem reply_prompt (h : world.Silent) (label : Text) : world.reply (.prompt label) = none := by
  change world.prompts.head?.join = none
  cases hprompts : world.prompts with
  | nil => rfl
  | cons reply prompts => exact h reply (hprompts ▸ List.mem_cons_self)

theorem run_eq_outcome {α : Type} (h : world.Silent) (e : Expansion α) :
    (world.run e).1 = e.outcome world.reply := by
  induction e generalizing world with
  | done a => rfl
  | ask r resume ih =>
    let after : Surroundings :=
      { world with prompts := world.promptsAfter r, asked := world.asked ++ [r] }
    have hafter : after.Silent := by
      intro reply hreply
      cases r with
      | prompt label => exact h reply (List.mem_of_mem_tail hreply)
      | _ => exact h reply hreply
    have hreply : after.reply = world.reply := by
      funext r'
      cases r' with
      | prompt label => rw [hafter.reply_prompt, h.reply_prompt]
      | _ => rfl
    rw [run_ask, ih _ hafter, hreply]
    rfl

end Surroundings.Silent

theorem not_blank_of_misread {name : Text} (h : ':' ∈ name ∨ all .square name ≠ []) :
    ¬Text.isBlank name := by
  have hmem : ∃ c ∈ name, Text.isBlankChar c = false := by
    rcases h with hcolon | htoken
    · exact ⟨':', hcolon, by decide⟩
    · obtain ⟨p, hp⟩ := List.exists_mem_of_ne_nil _ htoken
      exact ⟨'[', opener_mem_of_mem_all hp, by decide⟩
  obtain ⟨c, hc, hnot⟩ := hmem
  intro hblank
  rw [List.all_eq_true.1 hblank c hc] at hnot
  cases hnot

theorem Snapshot.beside_saved {name : Text} (key value : Text)
    (hname : ¬Text.isBlank (Variables.cleanName name)) :
    ∃ s s' : Store, (Store.saveVariable name value none).run s = (.ok (), s') ∧
      (Store.load.run s').1 = .ok { StoredData.empty with
        vars := (beside key (Variables.cleanName name) value).vars
        ai := (beside key (Variables.cleanName name) value).ai } := by
  let d : StoredData := { StoredData.empty with
    vars := Dictionary.empty.insert key [], ai := (beside key [] []).ai }
  let s : Store := .ofFile (.text d.write)
  have hd : s.file.data = .ok d := File.data_write d
  refine ⟨s, ?_⟩
  rw [Store.saveVariable_run hd, if_neg hname]
  exact Store.carriedOut_loads rfl

/-- A variable that is saved can be used, whatever else is stored and whatever the services give, exactly if
there is neither a colon in its name nor a token in square brackets. -/
theorem Store.saved_variable_usable_iff (name : Text) (maxDepth : Nat) :
    (∀ (s s' : Store) (value : Text) (oldName : Option Text), BracketFree value →
      (Store.saveVariable name value oldName).run s = (.ok (), s') →
      ∃ d, (Store.load.run s').1 = .ok d ∧ ∀ world : Surroundings,
        (world.run (expand (.ofStoredData d) maxDepth
          (written .curly (Variables.cleanName name)))).1 = value) ↔
    ':' ∉ Variables.cleanName name ∧ all .square (Variables.cleanName name) = [] := by
  constructor
  · intro husable
    by_contra hmisread
    rw [not_and_or, not_not] at hmisread
    obtain ⟨key, hunread⟩ := exists_unread hmisread maxDepth
    have hreturned (value : Text) (hvalue : BracketFree value) :
        (expand (.beside key (Variables.cleanName name) value) maxDepth
          (written .curly (Variables.cleanName name))).outcome
            (Surroundings.telling Bracket.square.opener).reply = value := by
      obtain ⟨s, s', hrun, hload⟩ := Snapshot.beside_saved key value (not_blank_of_misread hmisread)
      obtain ⟨d, hd, hexpand⟩ := husable s s' value none hvalue hrun
      have hdata : Snapshot.ofStoredData d = .beside key (Variables.cleanName name) value :=
        congrArg Snapshot.ofStoredData (Except.ok.inj (hd.symm.trans hload))
      have hsilent : (Surroundings.telling Bracket.square.opener).Silent := fun _ hreply =>
        absurd hreply List.not_mem_nil
      rw [← hdata, ← hsilent.run_eq_outcome]
      exact hexpand _
    have hsame := hunread [] ['x'] .nil (by decide)
    rw [hreturned [] .nil, hreturned ['x'] (by decide)] at hsame
    cases hsame
  · rintro ⟨hcolon, hsquare⟩ s s' value oldName hvalue hrun
    obtain ⟨d, d', -, hd', hmakes⟩ :=
      Operation.perform_makes (.guessing fun _ => ['x']) (.saveVariable name value oldName) hrun
    obtain ⟨hblank, others, -, hvars⟩ := hmakes.vars
    refine ⟨d', hd', fun world => ?_⟩
    have hne : Variables.cleanName name ≠ [] := fun hnil => hblank (by rw [hnil]; rfl)
    have hfound : d'.vars.find? (Variables.cleanName name) = some value := by
      rw [hvars, Dictionary.find?_insert, if_pos rfl]
    rw [expand_variable (Variables.cleanName_absent name) hsquare hcolon hne hfound (hvalue .curly)]
    rfl

namespace ColonName

def name : Text := "a:b".toList

def data : StoredData := { StoredData.empty with vars := Dictionary.empty.insert name ['v'] }

def store : Store := ⟨.text data.write, [.vars data.vars], [], none⟩

/-- What stands behind the colon is asked for, and without an answer the token is left as it is. -/
theorem counterexample_colon_in_name :
    (Store.saveVariable name ['v'] none).run (.ofFile .missing) = (.ok (), store) ∧
    (Store.load.run store).1 = .ok data ∧ data.vars.find? (Variables.cleanName name) = some ['v'] ∧
    ((Surroundings.alone default (.ok [])).run (expand (.ofStoredData data) 10
      (written .curly (Variables.cleanName name)))).1 = written .curly name := by
  refine ⟨rfl, File.data_write data, by decide, ?_⟩
  decide +kernel

end ColonName
end SnippetExpansion

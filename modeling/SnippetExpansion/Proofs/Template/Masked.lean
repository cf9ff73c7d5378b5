import SnippetExpansion.Proofs.Text.Replace
import SnippetExpansion.Proofs.Template.Wrapped

/-! # Text behind a mask
Text from outside is kept away from the token around it: while that is read one sign stands for the text, and the
sign gives way to it in the argument, and once more in what the outer command gives. A sign that the command gives
of itself is taken for the mask as well, so the text arrives as it is exactly if there is none. -/
namespace SnippetExpansion

open Text (BracketFree)
open Placeholder

def unmask (value t : Text) : Text := Text.replaceAll literalMask value t

section Unmask

variable {value s t : Text}

theorem unmask_eq (value t : Text) :
    unmask value t = t.flatMap fun c => if c = maskSign then value else [c] := by
  have hmask : literalMask ≠ [] := by decide
  have hblocks (c : Char) : [c] = literalMask ∧ (if c = maskSign then value else [c]) = value ∨
      Text.misses literalMask [c] ∧ (if c = maskSign then value else [c]) = [c] := by
    by_cases hc : c = maskSign
    · exact .inl ⟨by rw [hc, literalMask_eq], if_pos hc⟩
    · refine .inr ⟨?_, if_neg hc⟩
      have hother : maskSign ≠ c := Ne.symm hc
      simp [Text.misses, literalMask_eq, List.isPrefixOf, hc, hother]
  rw [unmask, ← Text.replaceAll_flatMap hmask hblocks, List.flatMap_singleton']

theorem unmask_append (value s t : Text) : unmask value (s ++ t) = unmask value s ++ unmask value t := by
  simp only [unmask_eq, List.flatMap_append]

theorem unmask_mask (value : Text) : unmask value literalMask = value := by
  simp [unmask_eq, literalMask_eq]

theorem unmask_of_not_mem (h : maskSign ∉ t) : unmask value t = t := by
  have hkept : ∀ c ∈ t, (if c = maskSign then value else [c]) = [c] := by
    intro c hc
    rw [if_neg]
    rintro rfl
    exact h hc
  rw [unmask_eq, List.flatMap_congr hkept, List.flatMap_singleton']

theorem mem_unmask {c : Char} (hc : c ≠ maskSign) (h : c ∈ t) : c ∈ unmask value t := by
  rw [unmask_eq, List.mem_flatMap]
  exact ⟨c, h, by rw [if_neg hc]; exact List.mem_singleton.2 rfl⟩

theorem maskSign_not_mem_unmask (hvalue : maskSign ∉ value) (t : Text) : maskSign ∉ unmask value t := by
  rw [unmask_eq, List.mem_flatMap]
  rintro ⟨c, -, hc⟩
  split at hc
  · exact hvalue hc
  · next hother => exact hother (List.mem_singleton.1 hc).symm

theorem length_le_unmask (hvalue : value ≠ []) (t : Text) : t.length ≤ (unmask value t).length := by
  have hpositive : 0 < value.length := List.length_pos_iff.2 hvalue
  rw [unmask_eq]
  induction t with
  | nil => exact Nat.zero_le _
  | cons c t ih =>
    rw [List.flatMap_cons, List.length_append, List.length_cons]
    split
    · omega
    · rw [List.length_singleton]
      omega

/-- A text is left as it is if there is no mask in it, or the mask gives way to itself. -/
theorem unmask_eq_self_iff : unmask value t = t ↔ maskSign ∉ t ∨ value = [maskSign] := by
  constructor
  · intro hsame
    rcases Text.not_mem_or_splits maskSign t with habsent | ⟨before, after, rfl, hbefore⟩
    · exact .inl habsent
    · refine .inr ?_
      have hrest : value ++ unmask value after = maskSign :: after := by
        rw [← List.singleton_append, ← literalMask_eq, unmask_append, unmask_append, unmask_mask,
          unmask_of_not_mem hbefore] at hsame
        exact List.append_cancel_left hsame
      cases value with
      | nil =>
        have hshorter : (unmask [] after).length ≤ after.length :=
          Text.length_replaceAll_le (by decide) (Nat.zero_le _)
        rw [List.nil_append] at hrest
        rw [hrest] at hshorter
        exact absurd hshorter (Nat.not_succ_le_self _)
      | cons d value =>
        obtain ⟨rfl, hvalue⟩ := List.cons.inj hrest
        have hlength : (value ++ unmask (maskSign :: value) after).length = after.length :=
          congrArg List.length hvalue
        have hlonger : after.length ≤ (unmask (maskSign :: value) after).length :=
          length_le_unmask (List.cons_ne_nil _ _) after
        rw [List.length_append] at hlength
        rw [List.length_eq_zero_iff.1 (by omega : value.length = 0)]
  · rintro (h | rfl)
    · exact unmask_of_not_mem h
    · have hkept : (fun c => if c = maskSign then [maskSign] else [c]) = fun c : Char => [c] := by
        funext c
        split
        · next hc => rw [hc]
        · rfl
      rw [unmask_eq, hkept, List.flatMap_singleton']

end Unmask

theorem contains_mask {t : Text} : Text.contains literalMask t ↔ maskSign ∈ t := by
  induction t with
  | nil => exact iff_of_false (by decide) List.not_mem_nil
  | cons c t ih =>
    have hstarts : literalMask.isPrefixOf (c :: t) ↔ maskSign = c := by
      rw [List.isPrefixOf_iff_prefix, literalMask_eq, List.cons_prefix_cons]
      exact and_iff_left List.nil_prefix
    rw [Text.contains, Bool.or_eq_true, hstarts, ih, List.mem_cons]

namespace Placeholder

variable {mark before after : Text} {p : Placeholder} {pieces : List (Piece Placeholder)}

theorem splitAround_eq_some (h : splitAround mark pieces = some (before, p, after)) :
    ∃ t, .found t p ∈ pieces ∧ before ++ t ++ after = pieces.flatMap Piece.text := by
  induction pieces generalizing before with
  | nil => cases h
  | cons piece pieces ih =>
    have hlater {t : Text} (ht : t = piece.text) (h : (splitAround mark pieces).map
        (fun later => (t ++ later.1, later.2)) = some (before, p, after)) :
        ∃ t, .found t p ∈ piece :: pieces ∧ before ++ t ++ after = (piece :: pieces).flatMap Piece.text := by
      obtain ⟨⟨rest, later⟩, hsplit, hsame⟩ := Option.map_eq_some_iff.1 h
      obtain ⟨rfl, rfl⟩ := Prod.mk.inj hsame
      obtain ⟨u, hu, htext⟩ := ih hsplit
      refine ⟨u, List.mem_cons_of_mem _ hu, ?_⟩
      rw [List.flatMap_cons, ← htext, ht]
      simp only [List.append_assoc]
    cases piece with
    | plain t => exact hlater rfl h
    | found t q =>
      rw [splitAround] at h
      split at h
      · obtain ⟨rfl, hfound⟩ := Prod.mk.inj (Option.some.inj h)
        obtain ⟨rfl, rfl⟩ := Prod.mk.inj hfound
        exact ⟨t, List.mem_cons_self, rfl⟩
      · exact hlater rfl h

theorem splitAround_eq_none_iff :
    splitAround mark pieces = none ↔ ∀ t q, .found t q ∈ pieces → ¬Text.contains mark t := by
  induction pieces with
  | nil => exact iff_of_true rfl nofun
  | cons piece pieces ih =>
    cases piece with
    | plain t => simp [splitAround, ih]
    | found t q =>
      rw [splitAround]
      split
      · next hcontains => exact iff_of_false nofun fun h => h t q List.mem_cons_self hcontains
      · next hcontains =>
        rw [Option.map_eq_none_iff, ih]
        refine forall₂_congr fun u r => ?_
        rw [List.mem_cons]
        refine ⟨?_, fun h hmem => h (.inr hmem)⟩
        rintro h (hsame | hmem)
        · obtain ⟨rfl, -⟩ := Piece.found.inj hsame
          exact hcontains
        · exact h hmem

theorem mem_all_of_enclosing? {t : Text} (h : enclosing? mark t = some (before, p, after)) :
    ∃ b, p ∈ all b t := by
  have hfound {b : Bracket} (h : splitAround mark (Placeholder.pieces b t) = some (before, p, after)) :
      p ∈ all b t := by
    obtain ⟨found, hmem, -⟩ := splitAround_eq_some h
    exact mem_all_iff_found.2 ⟨found, hmem⟩
  rcases Option.or_eq_some_iff.1 h with hsquare | ⟨-, hcurly⟩
  · exact ⟨.square, hfound hsquare⟩
  · exact ⟨.curly, hfound hcurly⟩

end Placeholder

theorem literalMask_bracketFree : BracketFree literalMask := by decide

/-- The argument of a token while its first inner token is behind the mask. -/
def maskedArgument (lead : Text) (rest : List Part) : Text := lead ++ literalMask ++ rest.flatMap Part.text

section Resolving

variable {s : Snapshot} {key lead inner : Text} {command : Command} {rest : List Part}
  (hkey : Command.lookup? key = some command) (hlead : BracketFree lead) (hrest : ∀ part ∈ rest, part.Runs)

include hkey hlead hrest

theorem splitAround_masked_iff :
    splitAround literalMask (pieces .square (wrapped key (.literal (lead ++ literalMask) :: rest))) = none ↔
      ∀ b inside, .token b inside ∈ rest → maskSign ∉ inside := by
  have hruns := runs_of_literal hlead literalMask_bracketFree hrest
  rw [splitAround_eq_none_iff]
  constructor
  · intro h b inside hpart hmask
    obtain ⟨rfl, -⟩ := hrest _ hpart
    refine h _ _ ((found_mem_wrapped hkey hruns).2 ⟨inside, List.mem_cons_of_mem _ hpart, rfl, rfl⟩) ?_
    rw [contains_mask]
    simp [written, hmask]
  · intro h t p hmem
    obtain ⟨inside, hpart, rfl, -⟩ := (found_mem_wrapped hkey hruns).1 hmem
    have hother : .token .square inside ∈ rest := by simpa using hpart
    rw [contains_mask]
    simpa [written, maskSign, Bracket.opener, Bracket.closer] using h _ _ hother

theorem resolveAround_wrapped (hinner : ∀ b inside, .token b inside ∈ rest → maskSign ∉ inside)
    (value : Text) :
    resolveAround s (wrapped key (.literal lead :: .token .square inner :: rest)) (written .square inner)
        value =
      (do
        let given ← s.runCommand command (unmask value (maskedArgument lead rest))
        pure (unmask value given)) := by
  let masked := wrapped key (.literal (lead ++ literalMask) :: rest)
  have hruns := runs_of_literal hlead literalMask_bracketFree hrest
  have hsquare := (splitAround_masked_iff hkey hlead hrest).2 hinner
  have hcurly : splitAround literalMask (pieces .curly masked) =
      some ([], ⟨masked, key, some (maskedArgument lead rest)⟩, []) := by
    have hcontains : Text.contains literalMask masked := by
      rw [contains_mask]
      simp [masked, wrapped, written, Part.text, literalMask_eq]
    rw [pieces_curly_wrapped hkey hruns, splitAround, if_pos hcontains]
    rfl
  have hresolve : s.resolve ⟨unmask value masked, key, some (unmask value (maskedArgument lead rest))⟩ =
      s.runCommand command (unmask value (maskedArgument lead rest)) :=
    Snapshot.resolve_of_lookup? hkey
  rw [resolveAround, replaceFirst_inner hkey hlead, enclosing?, hsquare, hcurly, ← hresolve]
  simp only [Option.none_or, List.nil_append, List.append_nil]
  rfl

/-- So the outer command is given the text from outside in the place of the mask, and what it gives is unmasked once
more. -/
theorem run_execute_masked {first : Command} (hfree : BracketFree inner)
    (hfirst : Command.lookup? (ofInside .square inner).key = some first) (hliteral : first.outputIsLiteral)
    (hinner : ∀ b inside, .token b inside ∈ rest → maskSign ∉ inside) (s : Snapshot) (maxDepth : Nat)
    (world : Surroundings) :
    let value := (s.runCommand first (ofInside .square inner).argumentOrEmpty).outcome world.reply
    (world.run (execute s maxDepth (wrapped key (.literal lead :: .token .square inner :: rest)))).1 =
      unmask value
        ((s.runCommand command (unmask value (maskedArgument lead rest))).outcome world.reply) := by
  have hexecute : execute s maxDepth (wrapped key (.literal lead :: .token .square inner :: rest)) = (do
      let value ← s.runCommand first (ofInside .square inner).argumentOrEmpty
      let given ← s.runCommand command (unmask value (maskedArgument lead rest))
      pure (unmask value given)) := by
    rw [execute_wrapped hkey hlead hfree hfirst hrest]
    refine bind_congr fun value => ?_
    rw [if_pos hliteral, resolveAround_wrapped hkey hlead hrest hinner]
  have hunprompted : Unprompted
      (execute s maxDepth (wrapped key (.literal lead :: .token .square inner :: rest))) := by
    rw [hexecute]
    exact (s.runCommand_unprompted first .square _).bind fun _ _ =>
      (s.runCommand_unprompted command .square _).bind fun _ _ => Dialogue.asksOnly_pure trivial
  rw [Surroundings.run_eq_outcome hunprompted, hexecute, Dialogue.outcome_bind, Dialogue.outcome_bind]
  rfl

/-- Another inner token that holds the mask is taken for the one around it. Then the outer token stays. -/
theorem opener_mem_resolveAround {b : Bracket} {inside : Text} (hpart : .token b inside ∈ rest)
    (hmask : maskSign ∈ inside) (value : Text) (world : Surroundings) :
    Bracket.curly.opener ∈ (world.run (resolveAround s
      (wrapped key (.literal lead :: .token .square inner :: rest)) (written .square inner) value)).1 := by
  have hruns := runs_of_literal hlead literalMask_bracketFree hrest
  have hsome := mt (splitAround_masked_iff hkey hlead hrest).1 fun h => h _ _ hpart hmask
  obtain ⟨⟨before, p, after⟩, hsplit⟩ := Option.ne_none_iff_exists'.1 hsome
  obtain ⟨t, hmem, htext⟩ := splitAround_eq_some hsplit
  obtain ⟨inside', -, rfl, -⟩ := (found_mem_wrapped hkey hruns).1 hmem
  -- the outer token begins in front of the inner one
  have hbefore : Bracket.curly.opener ∈ before := by
    rw [pieces, Text.flatMap_text_cut] at htext
    cases before with
    | nil => exact absurd (List.cons.inj htext).1 (by decide)
    | cons c before =>
      obtain ⟨rfl, -⟩ := List.cons.inj htext
      exact List.mem_cons_self
  rw [resolveAround, replaceFirst_inner hkey hlead, enclosing?, hsplit]
  simp only [Option.some_or, Surroundings.run_bind, Surroundings.run_pure]
  exact mem_unmask (by decide) (List.mem_append_left _ (List.mem_append_left _ hbefore))

end Resolving

section Clipboard

variable {key lead behind : Text} {command : Command} (hkey : Command.lookup? key = some command)
  (hlead : BracketFree lead) (hbehind : BracketFree behind) (hunmaskedLead : maskSign ∉ lead)
  (hunmaskedBehind : maskSign ∉ behind)

theorem paste_bracketFree : BracketFree "paste".toList := by decide +kernel

theorem lookup?_paste : Command.lookup? (ofInside .square "paste".toList).key = some .paste := by
  decide +kernel

include hkey hlead hbehind hunmaskedLead hunmaskedBehind

theorem run_execute_pasting (s : Snapshot) (maxDepth : Nat) {world : Surroundings} {t : Text}
    (hclipboard : world.clipboard = .ok t) :
    (world.run (execute s maxDepth
      (wrapped key [.literal lead, .token .square "paste".toList, .literal behind]))).1 =
        unmask t ((s.runCommand command (lead ++ t ++ behind)).outcome world.reply) := by
  have hrest : ∀ part ∈ [Part.literal behind], part.Runs := List.forall_mem_singleton.2 hbehind
  have hreply : world.reply .clipboard = Except.ok t := hclipboard
  have hmasked : maskedArgument lead [.literal behind] = lead ++ literalMask ++ behind := by
    simp [maskedArgument, Part.text]
  have hargument : unmask t (maskedArgument lead [.literal behind]) = lead ++ t ++ behind := by
    rw [hmasked, unmask_append, unmask_append, unmask_mask, unmask_of_not_mem hunmaskedLead,
      unmask_of_not_mem hunmaskedBehind]
  rw [run_execute_masked hkey hlead hrest paste_bracketFree lookup?_paste (by decide) (by simp),
    Snapshot.runCommand_paste _ hreply, hargument]

/-- The command around the clipboard's text is run on that text as it is. What the command gives arrives as it is
exactly if there is no mask in it, or the clipboard holds the mask alone. So it does where no mask is brought in
from outside. -/
theorem clipboard_arrives_iff (s : Snapshot) (maxDepth : Nat) {world : Surroundings} {t : Text}
    (hclipboard : world.clipboard = .ok t) :
    let typed := (world.run (execute s maxDepth
      (wrapped key [.literal lead, .token .square "paste".toList, .literal behind]))).1
    let given := (world.run (s.runCommand command (lead ++ t ++ behind))).1
    typed = unmask t given ∧ (typed = given ↔ maskSign ∉ given ∨ t = [maskSign]) ∧
      (command ≠ .ai → maskSign ∉ t → typed = given) := by
  intro typed given
  have hgiven : given = (s.runCommand command (lead ++ t ++ behind)).outcome world.reply :=
    Surroundings.run_eq_outcome (s.runCommand_unprompted command .square _) world
  have htyped : typed = unmask t given := by
    rw [hgiven]
    exact run_execute_pasting hkey hlead hbehind hunmaskedLead hunmaskedBehind s maxDepth hclipboard
  refine ⟨htyped, ?_, ?_⟩
  · rw [htyped, unmask_eq_self_iff]
  · intro hcommand hunmasked
    have hargument : maskSign ∉ lead ++ t ++ behind := by
      simp [hunmaskedLead, hunmasked, hunmaskedBehind]
    have hbrought : ∀ u, command.BringsIn world.reply u → maskSign ∉ u := by
      intro u hu
      cases command with
      | paste =>
        have hsame : world.clipboard = .ok u := hu
        obtain rfl := Except.ok.inj (hclipboard.symm.trans hsame)
        exact hunmasked
      | ai => exact absurd rfl hcommand
      | _ => cases hu
    rw [htyped, unmask_of_not_mem]
    rw [hgiven]
    exact s.not_mem_runCommand (by decide) (by decide) hbrought (.inr hargument)

end Clipboard

def shoutedPaste : Text :=
  wrapped "uppercase".toList [.literal [], .token .square "paste".toList, .literal []]

theorem clipboard_arrives_shouted :
    Command.lookup? "uppercase".toList = some .uppercase ∧ BracketFree [] ∧ maskSign ∉ ([] : Text) ∧
      ((Surroundings.alone default (.ok "[q:label]".toList)).run (execute .empty 10 shoutedPaste)).1 =
        "[Q:LABEL]".toList := by
  have hkey : Command.lookup? "uppercase".toList = some .uppercase := by decide +kernel
  have hclipboard : (Surroundings.alone default (.ok "[q:label]".toList)).clipboard =
      .ok "[q:label]".toList := rfl
  have harrives := clipboard_arrives_iff hkey .nil .nil List.not_mem_nil List.not_mem_nil .empty 10 hclipboard
  have htyped := harrives.2.2 (by decide) (by decide)
  refine ⟨hkey, .nil, List.not_mem_nil, ?_⟩
  exact htyped.trans (by decide +kernel)

/-- The clipboard's text comes in once more where it holds the mask itself. -/
theorem counterexample_mask_in_clipboard :
    let world := Surroundings.alone default (.ok ['a', maskSign])
    (world.run (execute .empty 10 shoutedPaste)).1 = ['A', 'a', maskSign] ∧
      (world.run (Snapshot.empty.runCommand .uppercase ['a', maskSign])).1 = ['A', maskSign] := by
  decide +kernel

end SnippetExpansion

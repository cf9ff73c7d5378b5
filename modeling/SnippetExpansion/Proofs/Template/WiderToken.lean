import SnippetExpansion.Proofs.Template.Masked

/-! # Whom a wider token consults
Typing ends a token in braces whose argument holds tokens in square brackets. If the first of these is the
clipboard's, its text is put behind a mask and nothing is read in it. Otherwise all of them are put in, and the
passes over braces read what has come in: then nobody is consulted exactly if the token as it is filled in
holds only tokens with an argument whose commands work alone. -/
namespace SnippetExpansion

open Text (BracketFree)
open Placeholder

/-- Behind the mask the text may hold anything: which command runs does not depend on it. -/
theorem resolveAround_unattended {s : Snapshot} {token inner : Text}
    (h : ∀ b, ∀ p ∈ all b (Text.replaceFirst inner literalMask token), Command.runsAlone p.key)
    (value : Text) : Unattended (resolveAround s token inner value) := by
  rw [resolveAround]
  split
  · exact Dialogue.asksOnly_pure trivial
  · next before p after henclosing =>
    obtain ⟨b, hmem⟩ := mem_all_of_enclosing? henclosing
    obtain ⟨command, -, hne, hresolve⟩ := s.resolve_of_runsAlone
      (p := ⟨Text.replaceAll literalMask value p.text, p.key,
        p.argument.map (Text.replaceAll literalMask value)⟩) (h b p hmem)
    rw [hresolve]
    exact (Snapshot.runCommand_alone hne b _).bind fun _ _ => Dialogue.asksOnly_pure trivial

namespace Part

/-- Text without brackets, or a token in square brackets whose command works alone. -/
def Feeds : Part → Prop
  | literal t => BracketFree t
  | token b inside => b = .square ∧ BracketFree inside ∧ Command.runsAlone (ofInside b inside).key

def value (reply : (r : Request) → r.Answer) : Part → Text
  | literal t => t
  | token b inside => (Snapshot.empty.resolve (ofInside b inside)).outcome reply

variable {part : Part} {reply : (r : Request) → r.Answer}

theorem Feeds.runs (h : part.Feeds) : part.Runs := by
  cases part with
  | literal t => exact h
  | token b inside =>
    obtain ⟨hb, hinside, hruns⟩ := h
    obtain ⟨command, hcommand, -⟩ := Command.runsAlone_iff.1 hruns
    exact ⟨hb, hinside, command, hcommand⟩

theorem Feeds.output_eq (h : part.Feeds) (s : Snapshot) : part.output s reply = part.value reply := by
  cases part with
  | literal t => rfl
  | token b inside =>
    obtain ⟨command, hcommand, hne⟩ := Command.runsAlone_iff.1 h.2.2
    rw [output, value, Snapshot.resolve_of_lookup? hcommand, Snapshot.resolve_of_lookup? hcommand,
      Snapshot.runCommand_eq hne s .empty]

theorem Feeds.value_congr (h : part.Feeds) {reply' : (r : Request) → r.Answer}
    (hsame : ∀ r : Request, ¬r.Consults → reply r = reply' r) : part.value reply = part.value reply' := by
  cases part with
  | literal t => rfl
  | token b inside =>
    obtain ⟨rfl, hinside, hruns⟩ := h
    exact (Snapshot.resolve_unattended (hinside .square) hruns).outcome_congr hsame

end Part

def filledIn (reply : (r : Request) → r.Answer) (key : Text) (parts : List Part) : Text :=
  written .curly (key ++ ':' :: parts.flatMap (Part.value reply))

section Wrapped

variable {key : Text} {parts : List Part} (hkey : Command.runsAlone key)
  (hparts : ∀ part ∈ parts, part.Feeds)

include hkey hparts

theorem runsAlone_of_mem_wrapped {b : Bracket} : ∀ p ∈ all b (wrapped key parts), Command.runsAlone p.key := by
  obtain ⟨command, hcommand, -⟩ := Command.runsAlone_iff.1 hkey
  have hruns : ∀ part ∈ parts, part.Runs := fun part hpart => (hparts part hpart).runs
  intro p hp
  cases b with
  | square =>
    rw [all_square_wrapped hcommand hruns] at hp
    obtain ⟨part, hpart, hvalue⟩ := List.mem_filterMap.1 hp
    cases part with
    | literal t => cases hvalue
    | token b inside =>
      obtain rfl := Option.some.inj hvalue
      exact (hparts _ hpart).2.2
  | curly =>
    rw [all, pieces_curly_wrapped hcommand hruns] at hp
    obtain rfl := List.mem_singleton.1 hp
    exact hkey

theorem run_expand_filledIn (s : Snapshot) (maxDepth : Nat) (world : Surroundings) :
    ∃ world', world.Undisturbed world' ∧
      world.run (expand s maxDepth (wrapped key parts)) =
        world'.run (bracesPassed s maxDepth (filledIn world.reply key parts)) := by
  obtain ⟨command, hcommand, -⟩ := Command.runsAlone_iff.1 hkey
  have hsquare : Unattended (resolveText s maxDepth .square 0 (wrapped key parts)) :=
    resolveText_unattended (fun p hp _ => runsAlone_of_mem_wrapped hkey hparts p hp) maxDepth 0
  have hvalues : parts.flatMap (Part.output s world.reply) = parts.flatMap (Part.value world.reply) :=
    List.flatMap_congr fun part hpart => (hparts part hpart).output_eq s
  obtain ⟨asked, hasked, hrun⟩ := run_expand_wrapped hcommand (fun part hpart => (hparts part hpart).runs)
    (fun _ hprompt => hprompt trivial) hsquare world
  refine ⟨_, ⟨asked, hasked, rfl⟩, ?_⟩
  rw [hrun, hvalues]
  rfl

end Wrapped

/-- A token in braces around text and tokens in square brackets, at least one of these. No brackets are in
the text or in those tokens, and all the keys are those of commands that work alone. -/
structure WiderToken where
  key : Text
  lead : Text
  inner : Text
  rest : List Part
  key_runsAlone : Command.runsAlone key
  lead_bracketFree : BracketFree lead
  inner_bracketFree : BracketFree inner
  inner_runsAlone : Command.runsAlone (ofInside .square inner).key
  rest_feeds : ∀ part ∈ rest, part.Feeds

namespace WiderToken

variable (token : WiderToken)

def parts : List Part := .literal token.lead :: .token .square token.inner :: token.rest

def text : Text := wrapped token.key token.parts

/-- The token with what its inner tokens give in their places. -/
def filled (now : Instant) (clipboard : Except Failure Text) : Text :=
  filledIn (Surroundings.alone now clipboard).reply token.key token.parts

theorem parts_feed : ∀ part ∈ token.parts, part.Feeds := by
  refine List.forall_mem_cons.2 ⟨token.lead_bracketFree, List.forall_mem_cons.2 ⟨?_, token.rest_feeds⟩⟩
  exact ⟨rfl, token.inner_bracketFree, token.inner_runsAlone⟩

theorem rest_runs : ∀ part ∈ token.rest, part.Runs := fun part hpart => (token.rest_feeds part hpart).runs

theorem rest_feeds_of_literal {t : Text} (h : BracketFree t) :
    ∀ part ∈ Part.literal (token.lead ++ t) :: token.rest, part.Feeds :=
  List.forall_mem_cons.2 ⟨token.lead_bracketFree.append h, token.rest_feeds⟩

theorem filledIn_eq {world : Surroundings} {now : Instant} {clipboard : Except Failure Text}
    (hnow : world.now = now) (hclipboard : world.clipboard = clipboard) :
    filledIn world.reply token.key token.parts = token.filled now clipboard := by
  have hsame : ∀ r : Request, ¬r.Consults → world.reply r = (Surroundings.alone now clipboard).reply r := by
    intro r hr
    cases r with
    | prompt label => exact absurd trivial hr
    | generate provider key prompt => exact absurd trivial hr
    | clipboard => exact hclipboard
    | clock => exact hnow
    | wait milliseconds => rfl
    | press key => rfl
  have hvalues : token.parts.flatMap (Part.value world.reply) =
      token.parts.flatMap (Part.value (Surroundings.alone now clipboard).reply) :=
    List.flatMap_congr fun part hpart => (token.parts_feed part hpart).value_congr hsame
  rw [filled, filledIn, filledIn, hvalues]

/-- With the clipboard's text first nobody is consulted, whatever the text is. -/
theorem execute_unattended (h : Command.lookup? (ofInside .square token.inner).key = some .paste)
    (s : Snapshot) (maxDepth : Nat) : Unattended (execute s maxDepth token.text) := by
  obtain ⟨command, hkey, -⟩ := Command.runsAlone_iff.1 token.key_runsAlone
  rw [text, parts, execute_wrapped hkey token.lead_bracketFree token.inner_bracketFree h token.rest_runs]
  refine (Snapshot.runCommand_alone (by decide) .square _).bind fun value _ => ?_
  rw [if_pos (by decide)]
  refine resolveAround_unattended ?_ value
  rw [replaceFirst_inner hkey token.lead_bracketFree]
  intro b
  exact runsAlone_of_mem_wrapped token.key_runsAlone (token.rest_feeds_of_literal literalMask_bracketFree)

theorem run_execute (h : Command.lookup? (ofInside .square token.inner).key ≠ some .paste)
    (s : Snapshot) (maxDepth : Nat) (world : Surroundings) :
    ∃ world', world.Undisturbed world' ∧
      world.run (execute s maxDepth token.text) =
        world'.run (bracesPassed s maxDepth (token.filled world.now world.clipboard)) := by
  obtain ⟨outer, hkey, -⟩ := Command.runsAlone_iff.1 token.key_runsAlone
  obtain ⟨command, hcommand, hne⟩ := Command.runsAlone_iff.1 token.inner_runsAlone
  have hliteral : ¬command.outputIsLiteral := by
    cases command with
    | paste => exact absurd hcommand h
    | ai => exact absurd rfl hne
    | _ => decide
  let argument := (ofInside .square token.inner).argumentOrEmpty
  let value := (s.runCommand command argument).outcome world.reply
  have hvalue : value = (Part.token .square token.inner).value world.reply := by
    rw [Part.value, Snapshot.resolve_of_lookup? hcommand, ← Snapshot.runCommand_eq hne s .empty]
  have hfree : BracketFree value := fun b =>
    s.runCommand_absent hliteral (argument_bracketFree (b := .square) token.inner_bracketFree b)
  obtain ⟨between, hbetween, hrun⟩ :=
    world.run_unattended (s.runCommand_alone hne .square argument)
  obtain ⟨world', hworld', hrun'⟩ := run_expand_filledIn token.key_runsAlone
    (token.rest_feeds_of_literal hfree) s maxDepth between
  have hfilled : filledIn world.reply token.key (.literal (token.lead ++ value) :: token.rest) =
      token.filled world.now world.clipboard := by
    rw [← token.filledIn_eq rfl rfl, filledIn, filledIn, parts, hvalue]
    simp [Part.value]
  refine ⟨world', hbetween.trans hworld', ?_⟩
  rw [text, parts, execute_wrapped hkey token.lead_bracketFree token.inner_bracketFree hcommand
    token.rest_runs, Surroundings.run_bind, hrun, if_neg hliteral, hrun', hbetween.reply_eq, hfilled]

/-- Typing the token consults nobody, whatever the snippets and variables are, exactly if the clipboard's text
comes first in it, or the token filled in holds only tokens with an argument whose commands work alone. -/
theorem consults_nobody_iff (now : Instant) (clipboard : Except Failure Text) :
    (∀ (s : Snapshot) (maxDepth : Nat) (prompts : List (Option Text))
        (generate : Provider → Text → Text → Except Failure Text),
        ∀ r ∈ ((Surroundings.mk now clipboard prompts generate []).run
          (execute s maxDepth token.text)).2.asked, ¬r.Consults) ↔
      Command.lookup? (ofInside .square token.inner).key = some .paste ∨
        ∀ p ∈ all .curly (token.filled now clipboard),
          p.argument.isSome ∧ Command.runsAlone p.key := by
  constructor
  · intro hnobody
    by_contra hneither
    obtain ⟨hfirst, htokens⟩ := not_or.1 hneither
    push Not at htokens
    obtain ⟨p, hp, hother⟩ := htokens
    obtain ⟨s, hconsulting⟩ := exists_consulting hp fun h => hother h.1 h.2
    let world := Surroundings.alone now clipboard
    obtain ⟨world', -, hrun⟩ := token.run_execute hfirst s 10 world
    obtain ⟨r, hr, hconsults⟩ := hconsulting 10 world'
    refine hnobody s 10 [] world.generate r ?_ hconsults
    exact hrun ▸ hr
  · intro h s maxDepth prompts generate
    let world := Surroundings.mk now clipboard prompts generate []
    by_cases hfirst : Command.lookup? (ofInside .square token.inner).key = some .paste
    · obtain ⟨world', hworld', hrun⟩ :=
        world.run_unattended (token.execute_unattended hfirst s maxDepth)
      rw [hrun]
      exact hworld'.not_consults nofun
    · have htokens := h.resolve_left hfirst
      obtain ⟨between, hbetween, hrun⟩ := token.run_execute hfirst s maxDepth world
      obtain ⟨world', hworld', hrun'⟩ :=
        between.run_unattended (bracesPassed_unattended (s := s) htokens maxDepth)
      rw [hrun, hrun']
      exact (hbetween.trans hworld').not_consults nofun

def shouted : WiderToken where
  key := "uppercase".toList
  lead := []
  inner := "date:YYYY".toList
  rest := [.token .square "paste".toList]
  key_runsAlone := by decide +kernel
  lead_bracketFree := .nil
  inner_bracketFree := by decide +kernel
  inner_runsAlone := by decide +kernel
  rest_feeds := List.forall_mem_singleton.2 ⟨rfl, by decide +kernel, by decide +kernel⟩

/-- Text of the clipboard is taken for a question to the user. -/
theorem counterexample_question_on_clipboard :
    shouted.text = "\x7buppercase:[date:YYYY][paste]\x7d".toList ∧
      ((Surroundings.alone default (.ok "\x7bq:label\x7d".toList)).run
        (execute .empty 10 shouted.text)).2.asked = [.clock, .clipboard, .prompt "label".toList] := by
  decide +kernel

end WiderToken
end SnippetExpansion

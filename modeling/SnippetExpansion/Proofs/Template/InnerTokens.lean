import SnippetExpansion.Proofs.Template.Masked

/-! # All tokens in the argument of a token
In a template every token in the argument of a command is put in before the command is run. A token that is typed
comes to the same, unless its first inner token brings in text from outside: then only the outer command is run,
and the mask is taken out of all that it is given. Nothing gets lost by that exactly if the outer command's text
does not depend on its argument, or if text without a mask is all there is beside the first inner token. -/
namespace SnippetExpansion

open Text (BracketFree)
open Placeholder

namespace Surroundings

structure Plain (world : Surroundings) : Prop where
  clipboard : ∀ t, world.clipboard = .ok t → t.Plain
  generate : ∀ provider key prompt t, world.generate provider key prompt = .ok t → t.Plain

/-- A world whose generator tells whether the character is in the prompt. -/
def telling (d : Char) : Surroundings :=
  ⟨default, .ok [], [], fun _ _ prompt => .ok (if d ∈ prompt then ['x'] else []), []⟩

variable {world : Surroundings} {s : Snapshot} {command : Command} {argument : Text} {d : Char}

theorem Plain.braceless (h : world.Plain) : Request.SourcesBraceless world.reply :=
  ⟨fun t ht => (h.clipboard t ht).bracketFree .curly,
    fun provider key prompt t ht => (h.generate provider key prompt t ht).bracketFree .curly⟩

theorem Plain.broughtIn (h : world.Plain) {t : Text} (ht : command.BringsIn world.reply t) : t.Plain := by
  cases command with
  | paste => exact h.clipboard t ht
  | ai =>
    obtain ⟨provider, key, prompt, hgenerated⟩ := ht
    exact h.generate provider key prompt t hgenerated
  | _ => cases ht

theorem Plain.unmasked (h : world.Plain) (hargument : command.outputIsLiteral ∨ maskSign ∉ argument) :
    maskSign ∉ (s.runCommand command argument).outcome world.reply :=
  s.not_mem_runCommand (by decide) (by decide) (fun _ ht => h.broughtIn ht maskSign (by decide)) hargument

theorem telling_plain (d : Char) : (telling d).Plain := by
  constructor
  · intro t ht
    obtain rfl := Except.ok.inj ht
    exact .nil
  · intro provider key prompt t ht
    obtain rfl := Except.ok.inj ht
    split
    · decide
    · exact .nil

section Telling

variable (hactive : s.ai.active.isSome)
include hactive

theorem told (d : Char) (argument : Text) :
    (s.runCommand .ai argument).outcome (telling d).reply = if d ∈ argument then ['x'] else [] := by
  obtain ⟨⟨provider, key⟩, hactive⟩ := Option.isSome_iff_exists.1 hactive
  rw [Snapshot.runCommand_ai, Command.generated, hactive]
  rfl

theorem not_mem_told (hd : d ∈ Text.signs) (hargument : d ∉ argument) :
    d ∉ (s.runCommand command argument).outcome (telling d).reply := by
  by_cases hai : command = .ai
  · rw [hai, told hactive, if_neg hargument]
    exact List.not_mem_nil
  · by_cases hpaste : command = .paste
    · rw [hpaste]
      exact List.not_mem_nil
    · have hcommand : ¬command.outputIsLiteral := by
        cases command <;> simp_all [Command.outputIsLiteral]
      rw [Snapshot.mem_runCommand_iff hcommand hd]
      exact fun h => hargument h.2

theorem mem_iff_of_told (hshows : command.showsArgument) (hd : d ∈ Text.signs) {argument' : Text}
    (hsame : (s.runCommand command argument).outcome (telling d).reply =
      (s.runCommand command argument').outcome (telling d).reply) : d ∈ argument ↔ d ∈ argument' := by
  by_cases hai : command = .ai
  · rw [hai, told hactive, told hactive] at hsame
    by_cases hmem : d ∈ argument <;> by_cases hmem' : d ∈ argument' <;> simp_all
  · have hcommand : ¬command.outputIsLiteral := by
      cases command <;> simp_all [Command.outputIsLiteral, Command.showsArgument]
    have hiff : d ∈ (s.runCommand command argument).outcome (telling d).reply ↔
        command.showsArgument ∧ d ∈ argument := Snapshot.mem_runCommand_iff hcommand hd
    rw [hsame, Snapshot.mem_runCommand_iff hcommand hd] at hiff
    simpa [hshows] using hiff.symm

end Telling

end Surroundings

theorem Part.Runs.opener_not_mem_told {part : Part} (h : part.Runs) {s : Snapshot}
    (hactive : s.ai.active.isSome) : Bracket.square.opener ∉
      part.output s (Surroundings.telling Bracket.square.opener).reply := by
  have hfree {t : Text} (ht : BracketFree t) : Bracket.square.opener ∉ t :=
    (Bracket.absent_iff_not_mem.1 (ht .square)).1
  cases part with
  | literal t => exact hfree h
  | token b inside =>
    obtain ⟨rfl, hinside, command, hcommand⟩ := h
    rw [output, Snapshot.resolve_of_lookup? hcommand]
    exact Surroundings.not_mem_told hactive (Text.opener_mem_signs .square)
      (hfree (argument_bracketFree hinside))

/-- A token of a command in braces around text and tokens of commands in square brackets, at least one of these. No
brackets are in the text or in those tokens. -/
structure CommandToken where
  key : Text
  command : Command
  lead : Text
  inner : Text
  first : Command
  rest : List Part
  key_command : Command.lookup? key = some command
  lead_bracketFree : BracketFree lead
  inner_bracketFree : BracketFree inner
  inner_command : Command.lookup? (ofInside .square inner).key = some first
  rest_runs : ∀ part ∈ rest, part.Runs

namespace CommandToken

variable (token : CommandToken)

def parts : List Part := .literal token.lead :: .token .square token.inner :: token.rest

def text : Text := wrapped token.key token.parts

def given (s : Snapshot) (world : Surroundings) : Text :=
  (world.run (s.runCommand token.command (token.parts.flatMap (Part.output s world.reply)))).1

def value (s : Snapshot) (reply : (r : Request) → r.Answer) : Text :=
  (s.runCommand token.first (ofInside .square token.inner).argumentOrEmpty).outcome reply

/-- With the first inner token behind the mask nothing gets lost: no other one holds the mask, and where the
argument shows in the outer command's text, there is no other one and no mask beside it. -/
structure LosesNothing : Prop where
  inner : ∀ b inside, .token b inside ∈ token.rest → maskSign ∉ inside
  lead : token.command.showsArgument → maskSign ∉ token.lead
  rest : token.command.showsArgument → ∀ part ∈ token.rest, ∃ t, part = .literal t ∧ maskSign ∉ t

variable {s : Snapshot} {world : Surroundings}

theorem parts_run : ∀ part ∈ token.parts, part.Runs :=
  runs_of_first token.lead_bracketFree token.inner_bracketFree token.inner_command token.rest_runs

theorem argument_eq (s : Snapshot) (reply : (r : Request) → r.Answer) :
    token.parts.flatMap (Part.output s reply) =
      token.lead ++ (token.value s reply ++ token.rest.flatMap (Part.output s reply)) := by
  rw [parts, List.flatMap_cons, List.flatMap_cons, value, ← Snapshot.resolve_of_lookup? token.inner_command]
  rfl

theorem given_eq (s : Snapshot) (world : Surroundings) :
    token.given s world =
      (s.runCommand token.command (token.parts.flatMap (Part.output s world.reply))).outcome world.reply := by
  rw [given, Surroundings.run_eq_outcome (s.runCommand_unprompted token.command .square _)]

theorem expand_text (hworld : world.Plain) (s : Snapshot) (maxDepth : Nat) :
    (world.run (expand s maxDepth token.text)).1 = token.given s world := by
  rw [text, expand_wrapped token.key_command token.parts_run hworld.braceless, given_eq]

theorem execute_put_in (hfirst : ¬token.first.outputIsLiteral) (hworld : world.Plain) (s : Snapshot)
    (maxDepth : Nat) : (world.run (execute s maxDepth token.text)).1 = token.given s world := by
  have hvalue : BracketFree (token.value s world.reply) := fun b =>
    s.runCommand_absent hfirst (argument_bracketFree (b := .square) token.inner_bracketFree b)
  obtain ⟨asked, -, hrun⟩ := world.run_unprompted
    (s.runCommand_unprompted token.first .square (ofInside .square token.inner).argumentOrEmpty)
    fun _ hprompt => hprompt trivial
  have hbraceless : Request.SourcesBraceless { world with asked := world.asked ++ asked }.reply := by
    rw [Surroundings.reply_noted]
    exact hworld.braceless
  have hexpand := expand_wrapped (s := s) token.key_command
    (runs_of_literal token.lead_bracketFree hvalue token.rest_runs) hbraceless maxDepth
  rw [Surroundings.reply_noted, List.flatMap_cons, Part.output, List.append_assoc] at hexpand
  rw [text, parts, execute_wrapped token.key_command token.lead_bracketFree token.inner_bracketFree
    token.inner_command token.rest_runs, Surroundings.run_bind, hrun, if_neg hfirst, given_eq, argument_eq]
  exact hexpand

theorem opener_not_mem_given (hworld : world.Plain) (s : Snapshot) :
    Bracket.curly.opener ∉ token.given s world := by
  have hargument : Bracket.curly.Absent (token.parts.flatMap (Part.output s world.reply)) :=
    .flatMap fun part hpart => (token.parts_run part hpart).output_absent hworld.braceless
  rw [given_eq]
  exact (Bracket.absent_iff_not_mem.1 (s.runCommand_braceless hworld.braceless token.command hargument)).1

section Masked

variable {token} (hfirst : token.first.outputIsLiteral)
include hfirst

theorem execute_masked (hinner : ∀ b inside, .token b inside ∈ token.rest → maskSign ∉ inside)
    (hworld : world.Plain) (s : Snapshot) (maxDepth : Nat) :
    (world.run (execute s maxDepth token.text)).1 =
      (s.runCommand token.command (unmask (token.value s world.reply)
        (maskedArgument token.lead token.rest))).outcome world.reply := by
  have hvalue : maskSign ∉ token.value s world.reply := hworld.unmasked (.inl hfirst)
  rw [text, parts, run_execute_masked token.key_command token.lead_bracketFree token.rest_runs
    token.inner_bracketFree token.inner_command hfirst hinner]
  exact unmask_of_not_mem (hworld.unmasked (.inr (maskSign_not_mem_unmask hvalue _)))

theorem execute_behind_mask (hkept : token.LosesNothing) (hworld : world.Plain) (s : Snapshot) (maxDepth : Nat) :
    (world.run (execute s maxDepth token.text)).1 = token.given s world := by
  rw [execute_masked hfirst hkept.inner hworld, given_eq, argument_eq]
  by_cases hshows : token.command.showsArgument
  · have htexts : token.rest.flatMap Part.text = token.rest.flatMap (Part.output s world.reply) := by
      refine List.flatMap_congr fun part hpart => ?_
      obtain ⟨t, rfl, -⟩ := hkept.rest hshows part hpart
      rfl
    have hrest : maskSign ∉ token.rest.flatMap Part.text := by
      rw [List.mem_flatMap]
      rintro ⟨part, hpart, hmem⟩
      obtain ⟨t, rfl, ht⟩ := hkept.rest hshows part hpart
      exact ht hmem
    rw [maskedArgument, unmask_append, unmask_append, unmask_mask, unmask_of_not_mem (hkept.lead hshows),
      unmask_of_not_mem hrest, htexts, List.append_assoc]
  · exact s.runCommand_unshown (Bool.eq_false_of_not_eq_true hshows) _ _

/-- With another inner token behind the mask the outer one would stay as it is. -/
theorem unmasked_of_given (hworld : world.Plain) {maxDepth : Nat}
    (h : (world.run (execute s maxDepth token.text)).1 = token.given s world) :
    ∀ b inside, .token b inside ∈ token.rest → maskSign ∉ inside := by
  intro b inside hpart hmask
  apply token.opener_not_mem_given hworld s
  rw [← h, text, parts, execute_wrapped token.key_command token.lead_bracketFree token.inner_bracketFree
    token.inner_command token.rest_runs, Surroundings.run_bind, if_pos hfirst]
  exact opener_mem_resolveAround token.key_command token.lead_bracketFree token.rest_runs hpart hmask _ _

/-- A world in which the outer command tells what is in its argument tells the two apart. -/
theorem losesNothing_of_given (hactive : s.ai.active.isSome) {maxDepth : Nat}
    (h : ∀ world : Surroundings, world.Plain →
      (world.run (execute s maxDepth token.text)).1 = token.given s world) : token.LosesNothing := by
  have hinner := unmasked_of_given hfirst (Surroundings.telling_plain maskSign)
    (h _ (Surroundings.telling_plain maskSign))
  have hsame (hshows : token.command.showsArgument) (d : Char) (hd : d ∈ Text.signs) :
      d ∈ unmask (token.value s (Surroundings.telling d).reply) (maskedArgument token.lead token.rest) ↔
        d ∈ token.parts.flatMap (Part.output s (Surroundings.telling d).reply) := by
    have hplain := Surroundings.telling_plain d
    apply Surroundings.mem_iff_of_told hactive hshows hd
    rw [← execute_masked hfirst hinner hplain s maxDepth, h _ hplain, given_eq]
  -- the mask is taken out wherever it is
  have hmask (hshows : token.command.showsArgument) :
      ∀ part ∈ token.parts, maskSign ∉ part.output s (Surroundings.telling maskSign).reply := by
    intro part hpart hmem
    have hvalue : maskSign ∉ token.value s (Surroundings.telling maskSign).reply :=
      (Surroundings.telling_plain maskSign).unmasked (.inl hfirst)
    refine maskSign_not_mem_unmask hvalue _ ((hsame hshows maskSign (by decide)).2 ?_)
    exact List.mem_flatMap.2 ⟨part, hpart, hmem⟩
  -- another token would stay in the argument with its brackets
  have hsquare (hshows : token.command.showsArgument) :
      ∀ part ∈ token.rest, Bracket.square.opener ∉ part.text := by
    intro part hpart hmem
    have hstays : Bracket.square.opener ∈ unmask (token.value s
        (Surroundings.telling Bracket.square.opener).reply) (maskedArgument token.lead token.rest) :=
      mem_unmask (by decide) (List.mem_append_right _ (List.mem_flatMap.2 ⟨part, hpart, hmem⟩))
    obtain ⟨other, hother, hbracket⟩ :=
      List.mem_flatMap.1 ((hsame hshows _ (Text.opener_mem_signs .square)).1 hstays)
    exact (token.parts_run other hother).opener_not_mem_told hactive hbracket
  refine ⟨hinner, ?_, ?_⟩
  · intro hshows
    exact hmask hshows (.literal token.lead) List.mem_cons_self
  · intro hshows part hpart
    cases part with
    | literal t =>
      exact ⟨t, rfl, hmask hshows (.literal t) (List.mem_cons_of_mem _ (List.mem_cons_of_mem _ hpart))⟩
    | token b inside =>
      obtain ⟨rfl, -⟩ := token.rest_runs _ hpart
      exact absurd List.mem_cons_self (hsquare hshows _ hpart)

end Masked

/-- In a template a token of a command comes to what the command gives on the texts of all its inner tokens. Typed,
it comes to the same, whatever the snippets and variables are, exactly if its first inner token brings in no text
from outside, or nothing gets lost behind the mask. -/
theorem typed_as_given_iff :
    (∀ (s : Snapshot) (maxDepth : Nat) (world : Surroundings), world.Plain →
      (world.run (expand s maxDepth token.text)).1 = token.given s world) ∧
    ((∀ (s : Snapshot) (maxDepth : Nat) (world : Surroundings), s.ai.active.isSome → world.Plain →
        (world.run (execute s maxDepth token.text)).1 = token.given s world) ↔
      ¬token.first.outputIsLiteral ∨ token.LosesNothing) := by
  refine ⟨fun s maxDepth world hworld => token.expand_text hworld s maxDepth, ?_, ?_⟩
  · intro h
    rw [or_iff_not_imp_left, not_not]
    intro hfirst
    let s := Snapshot.generating .empty
    have hactive : s.ai.active.isSome := Snapshot.generating_active _
    exact losesNothing_of_given hfirst hactive fun world hworld => h s 10 world hactive hworld
  · intro h s maxDepth world hactive hworld
    by_cases hfirst : token.first.outputIsLiteral
    · exact execute_behind_mask hfirst (h.resolve_left fun hput => hput hfirst) hworld s maxDepth
    · exact token.execute_put_in hfirst hworld s maxDepth

def shoutedTime : CommandToken where
  key := "uppercase".toList
  command := .uppercase
  lead := []
  inner := "paste".toList
  first := .paste
  rest := [.token .square "time".toList]
  key_command := by decide +kernel
  lead_bracketFree := .nil
  inner_bracketFree := paste_bracketFree
  inner_command := lookup?_paste
  rest_runs := List.forall_mem_singleton.2 ⟨rfl, by decide +kernel, .time, by decide +kernel⟩

/-- A token that stands behind the clipboard's text is not put in. -/
theorem counterexample_token_left :
    let s := Snapshot.generating .empty
    let world := Surroundings.alone ⟨2024, 3, 5, 14, 30, 9, 0⟩ (.ok "t".toList)
    s.ai.active.isSome ∧ world.Plain ∧ shoutedTime.text = "\x7buppercase:[paste][time]\x7d".toList ∧
      (world.run (execute s 10 shoutedTime.text)).1 = "T[TIME]".toList ∧
      shoutedTime.given s world = "T14:30:09".toList := by
  intro s world
  have hworld : world.Plain := by
    constructor
    · intro t ht
      obtain rfl := Except.ok.inj ht
      decide
    · intro provider key prompt t ht
      cases ht
  refine ⟨rfl, hworld, ?_⟩
  decide +kernel

end CommandToken
end SnippetExpansion

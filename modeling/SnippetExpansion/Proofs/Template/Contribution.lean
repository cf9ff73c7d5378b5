import SnippetExpansion.Template.Expand
import SnippetExpansion.Proofs.Outside
import SnippetExpansion.Proofs.Template.Running

/-! # What a token contributes
The clipboard and the text generator are sources of text that a template does not hold. An expansion is
foreseen when all it does, but for the texts of the sources in its outcome, is the same whatever the
sources hold. Every command, and every placeholder whose text has no brackets, is foreseen. -/
namespace SnippetExpansion

structure Sources where
  clipboard : Except Failure Text
  generate : Provider → Text → Text → Except Failure Text

/-- A text known from the template and its surroundings, or what a source gives. -/
inductive Contribution where
  | text (t : Text)
  | clipboard
  | generated (provider : Provider) (key prompt : Text)

namespace Sources

def fill (sources : Sources) : Contribution → Text
  | .text t => t
  | .clipboard =>
    match sources.clipboard with
    | .ok t => t
    | .error _ => []
  | .generated provider key prompt =>
    match sources.generate provider key prompt with
    | .ok t => t
    | .error _ => Command.generationFailed

def world (sources : Sources) (now : Instant) (prompts : List (Option Text))
    (asked : List Request) : Surroundings :=
  ⟨now, sources.clipboard, prompts, sources.generate, asked⟩

def texts (sources : Sources) (ai : AiConfig) : Set Text := fun t =>
  sources.clipboard = .ok t ∨ ∃ provider key prompt, ai.active = some (provider, key) ∧
    Text.BracketFree prompt ∧ sources.generate provider key prompt = .ok t

end Sources

/-- Whatever the sources hold, the expansion asks for the same, uses up the same answers to prompts and
comes to `value`. -/
structure Foreseen {α : Type} (now : Instant) (e : Sources → Expansion α) (value : Sources → α)
    (before after : List (Option Text)) (asked : List Request) : Prop where
  left : after <:+ before
  run : ∀ sources noted, (sources.world now before noted).run (e sources) =
    (value sources, sources.world now after (noted ++ asked))

namespace Foreseen

variable {α β : Type} {now : Instant} {before between after : List (Option Text)}

theorem pure (now : Instant) (value : Sources → α) (prompts : List (Option Text)) :
    Foreseen now (fun sources => Pure.pure (value sources)) value prompts prompts [] :=
  ⟨List.suffix_rfl, fun sources noted => by rw [List.append_nil]; rfl⟩

theorem bind {e : Sources → Expansion α} {value : Sources → α} {asked asked' : List Request}
    {f : Sources → α → Expansion β} {value' : Sources → β}
    (he : Foreseen now e value before between asked)
    (hf : Foreseen now (fun sources => f sources (value sources)) value' between after asked') :
    Foreseen now (fun sources => e sources >>= f sources) value' before after (asked ++ asked') := by
  refine ⟨hf.left.trans he.left, fun sources noted => ?_⟩
  rw [Surroundings.run_bind, he.run sources noted, hf.run sources (noted ++ asked),
    List.append_assoc]

theorem map {e : Sources → Expansion α} {value : Sources → α} {asked : List Request}
    (he : Foreseen now e value before after asked) (f : Sources → α → β) :
    Foreseen now (fun sources => e sources >>= fun a => Pure.pure (f sources a))
      (fun sources => f sources (value sources)) before after asked := by
  have h := he.bind (f := fun sources a => Pure.pure (f sources a))
    (pure now (fun sources => f sources (value sources)) after)
  rwa [List.append_nil] at h

end Foreseen

def Command.source? (ai : AiConfig) (argument : Text) : Command → Option Contribution
  | paste => some .clipboard
  | Command.ai => some <| match ai.active with
    | some (provider, key) => .generated provider key argument
    | none => .text notConfigured
  | _ => none

theorem Command.source?_isSome (ai : AiConfig) (argument : Text) (command : Command) :
    (command.source? ai argument).isSome = command.outputIsLiteral := by
  cases command <;> rfl

/-- What is contributed is what the source gives; where there is no source, it is a text like this. -/
def Contribution.Is (c : Contribution) (source? : Option Contribution) (like : Text → Prop) : Prop :=
  match source? with
  | some source => c = source
  | none => ∃ t, c = .text t ∧ like t

theorem Contribution.Is.imp {c : Contribution} {source? : Option Contribution}
    {like like' : Text → Prop} (h : c.Is source? like) (himp : ∀ t, like t → like' t) :
    c.Is source? like' := by
  cases source? with
  | some source => exact h
  | none =>
    obtain ⟨t, hc, ht⟩ := h
    exact ⟨t, hc, himp t ht⟩

open Text (BracketFree)

def Contribution.AskedIn (asked : List Request) : Contribution → Prop
  | .text _ => True
  | .clipboard => .clipboard ∈ asked
  | .generated provider key prompt => .generate provider key prompt ∈ asked

theorem Contribution.AskedIn.mono {c : Contribution} {asked asked' : List Request} (h : c.AskedIn asked)
    (hsubset : asked ⊆ asked') : c.AskedIn asked' := by
  cases c with
  | text t => trivial
  | clipboard => exact hsubset h
  | generated provider key prompt => exact hsubset h

/-- All that a command can contribute. -/
theorem Snapshot.runCommand_contributes (s : Snapshot) (command : Command) (argument : Text)
    (now : Instant) (prompts : List (Option Text)) :
    ∃ c asked, c.Is (command.source? s.ai argument) (fun t => BracketFree argument → BracketFree t) ∧
      c.AskedIn asked ∧
      Foreseen now (fun _ => s.runCommand command argument) (·.fill c) prompts prompts asked := by
  -- Every command but the two with a source comes to a text of its own.
  have hown (t : Text) (asked : List Request) (hsource : command.source? s.ai argument = none)
      (ht : BracketFree argument → BracketFree t)
      (hrun : Foreseen now (fun _ => s.runCommand command argument) (fun _ => t) prompts prompts
        asked) :
      ∃ c asked, c.Is (command.source? s.ai argument) (fun t => BracketFree argument → BracketFree t) ∧
        c.AskedIn asked ∧
        Foreseen now (fun _ => s.runCommand command argument) (·.fill c) prompts prompts asked := by
    refine ⟨.text t, asked, ?_, trivial, hrun⟩
    rw [hsource]
    exact ⟨t, rfl, ht⟩
  cases command with
  | paste =>
    refine ⟨.clipboard, [.clipboard], rfl, List.mem_singleton.2 rfl, List.suffix_rfl,
      fun sources noted => ?_⟩
    obtain ⟨clipboard, generate⟩ := sources
    cases clipboard <;> rfl
  | wait => exact hown [] [.wait _] rfl (fun _ => .nil) ⟨List.suffix_rfl, fun sources noted => rfl⟩
  | enter =>
    exact hown ['\n'] [.press .enter] rfl (fun _ => by decide)
      ⟨List.suffix_rfl, fun sources noted => rfl⟩
  | tab =>
    exact hown ['\t'] [.press .tab] rfl (fun _ => by decide)
      ⟨List.suffix_rfl, fun sources noted => rfl⟩
  | date =>
    refine hown _ [.clock] rfl (fun hargument => now.formatDate_bracketFree ?_)
      ⟨List.suffix_rfl, fun sources noted => rfl⟩
    split
    · decide
    · exact hargument
  | time =>
    exact hown _ [.clock] rfl (fun _ => now.formatTime_bracketFree)
      ⟨List.suffix_rfl, fun sources noted => rfl⟩
  | uppercase => exact hown _ [] rfl (fun h b => Text.upper_absent (h b)) (.pure now _ prompts)
  | lowercase => exact hown _ [] rfl (fun h b => Text.lower_absent (h b)) (.pure now _ prompts)
  | capitalize => exact hown _ [] rfl (fun h b => Text.capitalize_absent (h b)) (.pure now _ prompts)
  | cursor => exact hown ['|'] [] rfl (fun _ => by decide) (.pure now _ prompts)
  | ai =>
    simp only [Command.source?, runCommand_ai, Command.generated]
    cases s.ai.active with
    | none =>
      exact ⟨.text Command.notConfigured, [], rfl, trivial, .pure now _ prompts⟩
    | some chosen =>
      obtain ⟨provider, key⟩ := chosen
      refine ⟨.generated provider key argument, [.generate provider key argument], rfl,
        List.mem_singleton.2 rfl, List.suffix_rfl, fun sources noted => ?_⟩
      obtain ⟨clipboard, generate⟩ := sources
      change Surroundings.run _ (match generate provider key argument with
        | .ok t => Pure.pure t
        | .error _ => Pure.pure Command.generationFailed) = _
      simp only [Sources.fill]
      cases generate provider key argument <;> rfl

theorem Snapshot.runCommand_foreseen (s : Snapshot) (command : Command) {argument : Text}
    (hargument : BracketFree argument) (now : Instant) (prompts : List (Option Text)) :
    ∃ c asked, c.Is (command.source? s.ai argument) BracketFree ∧
      Foreseen now (fun _ => s.runCommand command argument) (·.fill c) prompts prompts asked := by
  obtain ⟨c, asked, hc, -, hrun⟩ := s.runCommand_contributes command argument now prompts
  exact ⟨c, asked, hc.imp fun t ht => ht hargument, hrun⟩

end SnippetExpansion

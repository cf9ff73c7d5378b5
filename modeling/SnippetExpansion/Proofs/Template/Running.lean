import SnippetExpansion.Proofs.Protocol
import SnippetExpansion.Proofs.Template.Command

/-! # What commands ask and give
No command asks the user, and only `ai` turns to the generator. What a command gives is a text from outside, or
else the signs in it are those of the argument, where the argument shows in it, and none where it does not. -/
namespace SnippetExpansion

open Dialogue (asksOnly_pure asksOnly_request)

variable {α : Type}

def Request.Consults : Request → Prop
  | prompt _ | generate _ _ _ => True
  | _ => False

def Request.IsPrompt : Request → Prop
  | prompt _ => True
  | _ => False

/-- Neither the user nor the generator is asked, whatever is answered. -/
def Unattended (e : Expansion α) : Prop := e.AsksOnly (fun r => ¬r.Consults) fun _ => True

def Unprompted (e : Expansion α) : Prop := e.AsksOnly (fun r => ¬r.IsPrompt) fun _ => True

/-- Whether the argument shows in the text. In a wait it shows in the time only. -/
def Command.showsArgument : Command → Bool
  | date | uppercase | lowercase | capitalize | ai => true
  | paste | wait | enter | tab | time | cursor => false

namespace Snapshot

variable {s : Snapshot} {command : Command}

theorem runCommand_ai (s : Snapshot) (argument : Text) :
    s.runCommand .ai argument = Command.generated s.ai argument := by
  simp [runCommand, Command.run]

/-- All that a command can ask and give. -/
theorem runCommand_asksOnly (s : Snapshot) (command : Command) (argument : Text) :
    (s.runCommand command argument).AsksOnly (fun r => ¬r.IsPrompt ∧ (r.Consults → command = .ai))
      fun value => command.outputIsLiteral ∨
        ∀ d ∈ Text.signs, d ∈ value ↔ command.showsArgument ∧ d ∈ argument := by
  -- where the argument does not show, the text is one without signs
  have hshown {command : Command} {value : Text} (hshows : command.showsArgument = false)
      (hvalue : value.Plain) : ∀ d ∈ Text.signs, d ∈ value ↔ command.showsArgument ∧ d ∈ argument := by
    intro d hd
    refine iff_of_false (hvalue d hd) ?_
    rw [hshows]
    exact fun h => Bool.noConfusion h.1
  cases command with
  | paste =>
    refine (asksOnly_request ⟨id, False.elim⟩).bind fun answer _ => ?_
    cases answer <;> exact asksOnly_pure (.inl rfl)
  | wait => exact (asksOnly_request ⟨id, False.elim⟩).bind fun _ _ => asksOnly_pure (.inr (hshown rfl .nil))
  | enter =>
    exact (asksOnly_request ⟨id, False.elim⟩).bind fun _ _ => asksOnly_pure (.inr (hshown rfl (by decide)))
  | tab =>
    exact (asksOnly_request ⟨id, False.elim⟩).bind fun _ _ => asksOnly_pure (.inr (hshown rfl (by decide)))
  | date =>
    refine (asksOnly_request ⟨id, False.elim⟩).bind fun now _ => asksOnly_pure (.inr fun d hd => ?_)
    rw [now.mem_formatDate_iff hd]
    have hdefault : Command.defaultDateFormat.Plain := by decide
    cases argument with
    | nil => simpa [Command.showsArgument] using hdefault d hd
    | cons c argument => simp [Command.showsArgument]
  | time =>
    exact (asksOnly_request ⟨id, False.elim⟩).bind fun now _ =>
      asksOnly_pure (.inr (hshown rfl now.formatTime_plain))
  | uppercase =>
    exact asksOnly_pure (.inr fun d hd => by simp [Text.mem_upper_iff hd, Command.showsArgument])
  | lowercase =>
    exact asksOnly_pure (.inr fun d hd => by simp [Text.mem_lower_iff hd, Command.showsArgument])
  | capitalize =>
    exact asksOnly_pure (.inr fun d hd => by simp [Text.mem_capitalize_iff hd, Command.showsArgument])
  | cursor => exact asksOnly_pure (.inr (hshown rfl (by decide)))
  | ai =>
    rw [runCommand_ai, Command.generated]
    cases s.ai.active with
    | none => exact asksOnly_pure (.inl rfl)
    | some chosen =>
      refine (asksOnly_request ⟨id, fun _ => rfl⟩).bind fun answer _ => ?_
      cases answer <;> exact asksOnly_pure (.inl rfl)

/-- What a command brings in is a text from outside, or has no brackets that are not in the argument. -/
theorem runCommand_unprompted (s : Snapshot) (command : Command) (b : Bracket) (argument : Text) :
    (s.runCommand command argument).AsksOnly (fun r => ¬r.IsPrompt) fun value =>
      command.outputIsLiteral ∨ (b.Absent argument → b.Absent value) := by
  refine (s.runCommand_asksOnly command argument).imp (fun r hr => hr.1) fun value hvalue => ?_
  exact hvalue.imp_right fun hsigns => Text.absent_of_signs fun d hd hmem => ((hsigns d hd).1 hmem).2

theorem runCommand_alone (h : command ≠ .ai) (b : Bracket) (argument : Text) :
    (s.runCommand command argument).AsksOnly (fun r => ¬r.Consults) fun value =>
      command.outputIsLiteral ∨ (b.Absent argument → b.Absent value) := by
  refine (s.runCommand_asksOnly command argument).imp (fun r hr hconsults => h (hr.2 hconsults)) ?_
  exact fun value hvalue =>
    hvalue.imp_right fun hsigns => Text.absent_of_signs fun d hd hmem => ((hsigns d hd).1 hmem).2

theorem runCommand_eq (h : command ≠ .ai) (s s' : Snapshot) (argument : Text) :
    s.runCommand command argument = s'.runCommand command argument := by
  cases command with
  | ai => exact absurd rfl h
  | _ => rfl

end Snapshot

def Command.BringsIn (reply : (r : Request) → r.Answer) (t : Text) : Command → Prop
  | paste => reply .clipboard = Except.ok t
  | ai => ∃ provider key prompt, reply (.generate provider key prompt) = Except.ok t
  | _ => False

def Command.notes : List Text := [[], notConfigured, generationFailed]

namespace Snapshot

variable {s : Snapshot} {command : Command} {argument : Text} {reply : (r : Request) → r.Answer} {d : Char}

theorem mem_runCommand_iff (hcommand : ¬command.outputIsLiteral) (hd : d ∈ Text.signs) :
    d ∈ (s.runCommand command argument).outcome reply ↔ command.showsArgument ∧ d ∈ argument :=
  ((s.runCommand_asksOnly command argument).outcome reply).resolve_left hcommand d hd

theorem runCommand_absent {b : Bracket} (hcommand : ¬command.outputIsLiteral)
    (hargument : b.Absent argument) : b.Absent ((s.runCommand command argument).outcome reply) :=
  ((s.runCommand_unprompted command b argument).outcome reply).resolve_left hcommand hargument

theorem runCommand_unshown (h : command.showsArgument = false) (argument argument' : Text) :
    (s.runCommand command argument).outcome reply = (s.runCommand command argument').outcome reply := by
  cases command with
  | date | uppercase | lowercase | capitalize | ai => cases h
  | _ => rfl

theorem runCommand_paste {t : Text} (argument : Text) (hclipboard : reply .clipboard = Except.ok t) :
    (s.runCommand .paste argument).outcome reply = t := by
  have hasked : (Command.run s.ai argument .paste).outcome reply = Except.ok t := hclipboard
  rw [runCommand, Dialogue.outcome_bind, hasked]
  rfl

theorem runCommand_literal (hcommand : command.outputIsLiteral) :
    (s.runCommand command argument).outcome reply ∈ Command.notes ∨
      command.BringsIn reply ((s.runCommand command argument).outcome reply) := by
  have hempty : [] ∈ Command.notes := by decide
  have hfailed : Command.generationFailed ∈ Command.notes := by decide
  cases command with
  | paste =>
    rw [runCommand, Dialogue.outcome_bind]
    cases hclipboard : (Command.run s.ai argument .paste).outcome reply with
    | ok t => exact .inr hclipboard
    | error _ => exact .inl hempty
  | ai =>
    rw [runCommand_ai, Command.generated]
    cases s.ai.active with
    | none => exact .inl (List.mem_cons_of_mem _ List.mem_cons_self)
    | some chosen =>
      obtain ⟨provider, key⟩ := chosen
      rw [Dialogue.outcome_bind]
      cases hgenerated : (Expansion.generate provider key argument).outcome reply with
      | ok t => exact .inr ⟨provider, key, argument, hgenerated⟩
      | error _ => exact .inl hfailed
  | _ => cases hcommand

/-- A sign that is neither in the argument nor in what comes in from outside is not in the text. -/
theorem not_mem_runCommand (hd : d ∈ Text.signs) (hnotes : ∀ t ∈ Command.notes, d ∉ t)
    (hreply : ∀ t, command.BringsIn reply t → d ∉ t)
    (hargument : command.outputIsLiteral ∨ d ∉ argument) :
    d ∉ (s.runCommand command argument).outcome reply := by
  by_cases hliteral : command.outputIsLiteral
  · rcases s.runCommand_literal hliteral with hnote | hbrought
    · exact hnotes _ hnote
    · exact hreply _ hbrought
  · rw [mem_runCommand_iff hliteral hd]
    exact fun h => hargument.resolve_left hliteral h.2

end Snapshot
end SnippetExpansion

import SnippetExpansion.Proofs.Protocol
import SnippetExpansion.Proofs.Template.Clipboard
import SnippetExpansion.Proofs.Template.Pattern
import SnippetExpansion.Proofs.Template.TokenByToken

/-! # Who is consulted
Most commands look at the clipboard or the clock, or press a key; only a prompt turns to the user, and only
`ai` to the generator. What the passes over braces make of a text asks neither of them, whatever the snippets
and variables are, exactly if every token in it has an argument and names one of the other commands. -/
namespace SnippetExpansion

open Dialogue (asksOnly_anything asksOnly_pure asksOnly_request)
open Placeholder

variable {α β : Type}

/-- In every world the user or the generator is asked. -/
def Consulting (e : Expansion α) : Prop :=
  ∀ world : Surroundings, ∃ r ∈ (world.run e).2.asked, r.Consults

namespace Surroundings

def alone (now : Instant) (clipboard : Except Failure Text) : Surroundings :=
  ⟨now, clipboard, [], fun _ _ _ => .error (.other []), []⟩

theorem reply_noted (world : Surroundings) (asked : List Request) :
    { world with asked := asked }.reply = world.reply := by
  funext r
  cases r <;> rfl

/-- Nothing has changed from one world to the other but that more has been asked, and of neither of them. -/
def Undisturbed (world world' : Surroundings) : Prop :=
  ∃ asked, (∀ r ∈ asked, ¬r.Consults) ∧ world' = { world with asked := world.asked ++ asked }

namespace Undisturbed

variable {world world' world'' : Surroundings}

theorem trans (h : world.Undisturbed world') (h' : world'.Undisturbed world'') :
    world.Undisturbed world'' := by
  obtain ⟨asked, hasked, rfl⟩ := h
  obtain ⟨asked', hasked', rfl⟩ := h'
  refine ⟨asked ++ asked', ?_, ?_⟩
  · intro r hr
    rcases List.mem_append.1 hr with hr | hr
    · exact hasked r hr
    · exact hasked' r hr
  · rw [List.append_assoc]

theorem reply_eq (h : world.Undisturbed world') : world'.reply = world.reply := by
  obtain ⟨asked, -, rfl⟩ := h
  exact world.reply_noted _

theorem not_consults (h : world.Undisturbed world') (hworld : ∀ r ∈ world.asked, ¬r.Consults) :
    ∀ r ∈ world'.asked, ¬r.Consults := by
  obtain ⟨asked, hasked, rfl⟩ := h
  intro r hr
  rcases List.mem_append.1 hr with hr | hr
  · exact hworld r hr
  · exact hasked r hr

end Undisturbed

variable {e : Expansion α} {post : α → Prop}

theorem run_of_asksOnly {P : Request → Prop} (h : e.AsksOnly P post) (world : Surroundings) :
    post (world.run e).1 := by
  induction e generalizing world with
  | done a => exact h
  | ask r resume ih => exact ih _ (h.2 (world.reply r)) _

theorem run_unprompted {P : Request → Prop} (h : e.AsksOnly P post) (hprompt : ∀ label, ¬P (.prompt label))
    (world : Surroundings) :
    ∃ asked, (∀ r ∈ asked, P r) ∧
      world.run e = (e.outcome world.reply, { world with asked := world.asked ++ asked }) := by
  induction e generalizing world with
  | done a =>
    refine ⟨[], nofun, ?_⟩
    rw [List.append_nil]
    rfl
  | ask r resume ih =>
    obtain ⟨hr, hresume⟩ := h
    have hprompts : world.promptsAfter r = world.prompts := by
      cases r with
      | prompt label => exact absurd hr (hprompt label)
      | _ => rfl
    let noted : Surroundings := { world with asked := world.asked ++ [r] }
    have hreply : noted.reply = world.reply := world.reply_noted _
    obtain ⟨asked, hasked, hrun⟩ := ih _ (hresume (world.reply r)) noted
    refine ⟨r :: asked, List.forall_mem_cons.2 ⟨hr, hasked⟩, ?_⟩
    rw [run_ask, hprompts]
    change noted.run _ = _
    rw [hrun, hreply]
    simp [noted, Dialogue.outcome]

/-- While the user is not asked, each request has one answer. -/
theorem run_eq_outcome (h : e.AsksOnly (fun r => ¬r.IsPrompt) post) (world : Surroundings) :
    (world.run e).1 = e.outcome world.reply := by
  obtain ⟨asked, -, hrun⟩ := run_unprompted h (fun _ hprompt => hprompt trivial) world
  rw [hrun]

theorem run_unattended (h : e.AsksOnly (fun r => ¬r.Consults) post) (world : Surroundings) :
    ∃ world', world.Undisturbed world' ∧ world.run e = (e.outcome world.reply, world') := by
  obtain ⟨asked, hasked, hrun⟩ := run_unprompted h (fun _ hprompt => hprompt trivial) world
  exact ⟨_, ⟨asked, hasked, rfl⟩, hrun⟩

end Surroundings

namespace Consulting

variable {e : Expansion α} {f : α → Expansion β}

theorem bind (h : Consulting e) (f : α → Expansion β) : Consulting (e >>= f) := by
  intro world
  obtain ⟨r, hr, hconsults⟩ := h world
  rw [Surroundings.run_bind]
  exact ⟨r, (Surroundings.asked_grows _ _).subset hr, hconsults⟩

theorem bind_rest (h : ∀ a, Consulting (f a)) : Consulting (e >>= f) := by
  intro world
  rw [Surroundings.run_bind]
  exact h _ _

theorem bind_of_asksOnly {P : Request → Prop} {post : α → Prop} (he : e.AsksOnly P post)
    (h : ∀ a, post a → Consulting (f a)) : Consulting (e >>= f) := by
  intro world
  rw [Surroundings.run_bind]
  exact h _ (Surroundings.run_of_asksOnly he world) _

theorem request (r : Request) (h : r.Consults) : Consulting (Dialogue.request r) :=
  fun world => ⟨r, List.mem_append_right world.asked (List.mem_singleton.2 rfl), h⟩

end Consulting

def Command.runsAlone (key : Text) : Bool := (lookup? key).any (· != .ai)

theorem Command.runsAlone_iff {key : Text} :
    runsAlone key ↔ ∃ command, lookup? key = some command ∧ command ≠ .ai := by
  rw [runsAlone, Option.any_eq_true]
  simp

theorem Command.runsAlone_eq_false {key : Text} (h : ¬runsAlone key) :
    lookup? key = none ∨ lookup? key = some .ai := by
  cases hlookup : lookup? key with
  | none => exact .inl rfl
  | some command =>
    rw [runsAlone, hlookup] at h
    simpa using h

namespace Snapshot

variable {s : Snapshot} {b : Bracket} {command : Command}

theorem resolve_of_lookup? {p : Placeholder} (h : Command.lookup? p.key = some command) :
    s.resolve p = s.runCommand command p.argumentOrEmpty := by
  rw [resolve, h]

theorem resolve_of_runsAlone {p : Placeholder} (h : Command.runsAlone p.key) :
    ∃ command, Command.lookup? p.key = some command ∧ command ≠ .ai ∧
      s.resolve p = s.runCommand command p.argumentOrEmpty := by
  obtain ⟨command, hcommand, hne⟩ := Command.runsAlone_iff.1 h
  exact ⟨command, hcommand, hne, resolve_of_lookup? hcommand⟩

theorem resolve_unattended {inside : Text} (hinside : b.Absent inside)
    (h : Command.runsAlone (ofInside b inside).key) :
    (s.resolve (ofInside b inside)).AsksOnly (fun r => ¬r.Consults) fun value =>
      (ofInside b inside).rescans b value = false := by
  obtain ⟨command, hcommand, hne, hresolve⟩ := s.resolve_of_runsAlone h
  rw [hresolve]
  refine (runCommand_alone hne b _).imp (fun _ hr => hr) fun value hvalue => ?_
  exact rescans_of_command hcommand (hvalue.imp_right fun habsent => habsent (argument_absent hinside))

theorem resolve_unprompted {inside : Text} (hinside : b.Absent inside)
    (h : Command.lookup? (ofInside b inside).key = some command) :
    (s.resolve (ofInside b inside)).AsksOnly (fun r => ¬r.IsPrompt) fun value =>
      (ofInside b inside).rescans b value = false := by
  rw [resolve_of_lookup? h]
  refine (s.runCommand_unprompted command b _).imp (fun _ hr => hr) fun value hvalue => ?_
  exact rescans_of_command h (hvalue.imp_right fun habsent => habsent (argument_absent hinside))

theorem resolution_of_lookup? {inside : Text} (hinside : b.Absent inside)
    (h : Command.lookup? (ofInside b inside).key = some command) (again : Text → Expansion Text) :
    (ofInside b inside).resolution s b again = s.resolve (ofInside b inside) := by
  rw [resolution]
  conv_rhs => rw [← bind_pure (s.resolve (ofInside b inside))]
  refine (s.resolve_unprompted hinside h).bind_congr fun value hvalue => ?_
  rw [if_neg (by simp [hvalue])]

theorem resolve_consulting {p : Placeholder} (hactive : s.ai.active.isSome)
    (hvar : s.vars.find? p.key = none) (hargument : p.argument.isSome)
    (h : ¬Command.runsAlone p.key) : Consulting (s.resolve p) := by
  obtain ⟨⟨provider, key⟩, hactive⟩ := Option.isSome_iff_exists.1 hactive
  obtain ⟨label, hlabel⟩ := Option.isSome_iff_exists.1 hargument
  rcases Command.runsAlone_eq_false h with hnone | hai
  · rw [resolve, hnone, hvar, hlabel]
    exact (Consulting.request (.prompt label) trivial).bind _
  · rw [resolve_of_lookup? hai, runCommand_ai, Command.generated, hactive]
    exact (Consulting.request (.generate provider key _) trivial).bind _

end Snapshot

theorem bareValue_unprompted (s : Snapshot) (p : Placeholder) : Unprompted (bareValue s p) := by
  rw [bareValue]
  split
  · exact asksOnly_pure trivial
  · split
    · exact (s.runCommand_unprompted _ .curly []).imp (fun _ hr => hr) fun _ _ => trivial
    · exact asksOnly_pure trivial

variable {s : Snapshot} {b : Bracket}

theorem resolvePieces_asksOnly {P : Request → Prop} (again : Text → Expansion Text)
    {pieces : List (Piece Placeholder)}
    (h : ∀ t p, .found t p ∈ pieces → p.resolvedIn b →
      (s.resolve p).AsksOnly P fun value => p.rescans b value = false)
    (known : List (Text × Text)) :
    (resolvePieces s b again known pieces).AsksOnly P fun _ => True := by
  induction pieces generalizing known with
  | nil => exact asksOnly_pure trivial
  | cons piece pieces ih =>
    have hrest := ih fun t p hmem => h t p (List.mem_cons_of_mem piece hmem)
    cases piece with
    | plain t => exact (hrest known).bind fun _ _ => asksOnly_pure trivial
    | found t p =>
      by_cases hresolved : p.resolvedIn b
      · cases hlookup : known.lookup t with
        | some value =>
          rw [resolvePieces_noted hresolved hlookup]
          exact (hrest known).bind fun _ _ => asksOnly_pure trivial
        | none =>
          rw [resolvePieces_unnoted hresolved hlookup, resolution, bind_assoc]
          refine (h t p List.mem_cons_self hresolved).bind fun first hfirst => ?_
          rw [if_neg (by simp [hfirst]), pure_bind]
          exact (hrest _).bind fun _ _ => asksOnly_pure trivial
      · rw [resolvePieces_passed (eq_false_of_ne_true hresolved)]
        exact (hrest known).bind fun _ _ => asksOnly_pure trivial

theorem resolveText_asksOnly {P : Request → Prop} {t : Text}
    (h : ∀ inside, b.Absent inside → ofInside b inside ∈ all b t → (ofInside b inside).resolvedIn b →
      (s.resolve (ofInside b inside)).AsksOnly P fun value =>
        (ofInside b inside).rescans b value = false)
    (maxDepth depth : Nat) : (resolveText s maxDepth b depth t).AsksOnly P fun _ => True := by
  rw [resolveText, resolveLevels]
  refine resolvePieces_asksOnly _ (fun found p hmem hresolved => ?_) []
  have hall : p ∈ all b t := mem_all_iff_found.2 ⟨found, hmem⟩
  obtain ⟨inside, -, habsent, -, rfl⟩ := found_of_mem_pieces hmem
  exact h inside habsent hall hresolved

theorem resolveText_unattended {t : Text}
    (h : ∀ p ∈ all b t, p.resolvedIn b → Command.runsAlone p.key) (maxDepth depth : Nat) :
    Unattended (resolveText s maxDepth b depth t) :=
  resolveText_asksOnly (fun _ habsent hall hresolved => s.resolve_unattended habsent (h _ hall hresolved))
    maxDepth depth

theorem resolveText_unprompted {t : Text}
    (h : ∀ p ∈ all b t, p.resolvedIn b → ∃ command, Command.lookup? p.key = some command)
    (maxDepth depth : Nat) : Unprompted (resolveText s maxDepth b depth t) := by
  refine resolveText_asksOnly (fun inside habsent hall hresolved => ?_) maxDepth depth
  obtain ⟨command, hcommand⟩ := h _ hall hresolved
  exact s.resolve_unprompted habsent hcommand

/-- A placeholder that has no value yet is resolved when the pass comes to it. -/
theorem resolvePieces_consulting (again : Text → Expansion Text) {inside : Text}
    (hresolved : (ofInside b inside).resolvedIn b) (h : Consulting (s.resolve (ofInside b inside)))
    {pieces : List (Piece Placeholder)} (hpieces : ∀ piece ∈ pieces, piece.IsWritten b)
    (hmem : .found (written b inside) (ofInside b inside) ∈ pieces) {known : List (Text × Text)}
    (hknown : known.lookup (written b inside) = none) :
    Consulting (resolvePieces s b again known pieces) := by
  induction pieces generalizing known with
  | nil => cases hmem
  | cons piece pieces ih =>
    obtain ⟨hpiece, hpieces⟩ := List.forall_mem_cons.1 hpieces
    have hlater := ih hpieces
    cases piece with
    | plain t =>
      have hrest : .found (written b inside) (ofInside b inside) ∈ pieces := by simpa using hmem
      exact (hlater hrest hknown).bind _
    | found t p =>
      obtain ⟨inside', rfl, rfl⟩ := hpiece
      by_cases hsame : inside' = inside
      · subst hsame
        rw [resolvePieces_unnoted hresolved hknown]
        exact (h.bind _).bind _
      · have hother : written b inside ≠ written b inside' := fun heq =>
          hsame (written_injective heq).symm
        have hrest : .found (written b inside) (ofInside b inside) ∈ pieces := by
          simpa [hother] using hmem
        by_cases hother' : (ofInside b inside').resolvedIn b
        · cases hlookup : known.lookup (written b inside') with
          | some value =>
            rw [resolvePieces_noted hother' hlookup]
            exact (hlater hrest hknown).bind _
          | none =>
            -- what is found for this one is noted under its own text
            have hnoted (value : Text) :
                ((written b inside', value) :: known).lookup (written b inside) = none := by
              rw [List.lookup_cons, beq_false_of_ne hother]
              exact hknown
            rw [resolvePieces_unnoted hother' hlookup]
            exact .bind_rest fun value => (hlater hrest (hnoted value)).bind _
        · rw [resolvePieces_passed (eq_false_of_ne_true hother')]
          exact (hlater hrest hknown).bind _

theorem substituteBare_cons (piece : Piece Placeholder) (pieces : List (Piece Placeholder)) :
    substituteBare s (piece :: pieces) = (do
      let value ← piece.bareResolution s
      let more ← substituteBare s pieces
      pure (value ++ more)) := by
  cases piece with
  | plain t => rfl
  | found t p =>
    rw [substituteBare, Piece.bareResolution]
    split <;> rfl

theorem substituteBare_contains {piece : Piece Placeholder} {value : Text}
    (hvalue : piece.bareResolution s = pure value) {pieces : List (Piece Placeholder)}
    (h : piece ∈ pieces) :
    (substituteBare s pieces).AsksOnly (fun _ => True) fun t => value <:+: t := by
  induction pieces with
  | nil => cases h
  | cons other pieces ih =>
    rw [substituteBare_cons]
    rcases List.mem_cons.1 h with rfl | hlater
    · rw [hvalue, pure_bind]
      exact (asksOnly_anything _).bind fun more _ => asksOnly_pure (List.prefix_append value more).isInfix
    · refine (asksOnly_anything _).bind fun first _ => (ih hlater).bind fun more hmore => asksOnly_pure ?_
      exact hmore.trans (List.suffix_append first more).isInfix

theorem bracesPassed_unattended {t : Text}
    (h : ∀ p ∈ all .curly t, p.argument.isSome ∧ Command.runsAlone p.key) (maxDepth : Nat) :
    Unattended (bracesPassed s maxDepth t) := by
  have harguments : ∀ f p, .found f p ∈ pieces .curly t → p.argument.isSome := fun f p hmem =>
    (h p (mem_all_iff_found.2 ⟨f, hmem⟩)).1
  rw [bracesPassed, substituteBare_of_arguments s harguments, pure_bind, pieces,
    Text.flatMap_text_cut]
  exact resolveText_unattended (fun p hp _ => (h p hp).2) maxDepth 0

theorem bracesPassed_consulting {t inside : Text} {piece : Piece Placeholder}
    (hpiece : piece ∈ pieces .curly t) (hvalue : piece.bareResolution s = pure (written .curly inside))
    (habsent : Bracket.curly.Absent inside) (hkey : hasKey inside)
    (hargument : (ofInside .curly inside).argument.isSome)
    (h : Consulting (s.resolve (ofInside .curly inside))) (maxDepth : Nat) :
    Consulting (bracesPassed s maxDepth t) := by
  refine .bind_of_asksOnly (substituteBare_contains hvalue hpiece) fun text htext => ?_
  obtain ⟨f, hfound⟩ :=
    mem_all_iff_found.1 (Pattern.mem_all.2 ⟨inside, htext, habsent, hkey, rfl⟩)
  obtain ⟨inside', rfl, -, -, hsame⟩ := found_of_mem_pieces hfound
  obtain rfl := written_injective (congrArg Placeholder.text hsame)
  have hresolved : (ofInside .curly inside).resolvedIn .curly := hargument
  rw [resolveText, resolveLevels]
  exact resolvePieces_consulting _ hresolved h isWritten_of_mem_pieces hfound rfl

def Snapshot.generating (vars : Variables) : Snapshot := ⟨[], vars, ⟨some .openai, some ['k'], none, none⟩⟩

theorem Snapshot.generating_active (vars : Variables) : (generating vars).ai.active.isSome := rfl

theorem exists_other_name (key : Text) : ∃ name, name ≠ key ∧ Command.lookup? name = none ∧
    Bracket.curly.Absent (name ++ [':']) ∧ hasKey (name ++ [':']) ∧ ':' ∉ name := by
  by_cases hkey : ['x'] = key
  · refine ⟨['y'], ?_, by decide⟩
    rw [← hkey]
    decide
  · exact ⟨['x'], hkey, by decide⟩

/-- For a token of another kind there are variables for which someone is asked. -/
theorem exists_consulting {t : Text} {p : Placeholder} (hp : p ∈ all .curly t)
    (h : ¬(p.argument.isSome ∧ Command.runsAlone p.key)) :
    ∃ s : Snapshot, ∀ maxDepth, Consulting (bracesPassed s maxDepth t) := by
  obtain ⟨f, hpiece⟩ := mem_all_iff_found.1 hp
  obtain ⟨inside, rfl, habsent, hkey, rfl⟩ := found_of_mem_pieces hpiece
  by_cases hargument : (ofInside .curly inside).argument.isSome
  · refine ⟨.generating .empty, bracesPassed_consulting hpiece ?_ habsent hkey hargument ?_⟩
    · rw [Piece.bareResolution, if_pos hargument]
    · apply Snapshot.resolve_consulting (Snapshot.generating_active _) rfl hargument
      intro hruns
      exact h ⟨hargument, hruns⟩
  · -- the variable of this name holds a token that nothing but the user has a value for
    obtain ⟨name, hother, hcommand, hname, hnamed, hcolon⟩ :=
      exists_other_name (ofInside .curly inside).key
    have hread := Pattern.ofInside_of_argument (b := .curly) hcolon []
    let s := Snapshot.generating
      (Dictionary.empty.insert (ofInside .curly inside).key (written .curly (name ++ [':'])))
    have hfind : s.vars.find? (ofInside .curly inside).key = some (written .curly (name ++ [':'])) :=
      Dictionary.find?_insert.trans (if_pos rfl)
    have hunknown : s.vars.find? name = none := Dictionary.find?_insert.trans (if_neg hother)
    refine ⟨s, bracesPassed_consulting hpiece ?_ hname hnamed ?_ ?_⟩
    · rw [Piece.bareResolution, if_neg hargument, bareValue, hfind]
    · rw [hread]
      rfl
    · rw [hread]
      apply Snapshot.resolve_consulting (Snapshot.generating_active _) hunknown rfl
      rw [Command.runsAlone, hcommand]
      decide

end SnippetExpansion

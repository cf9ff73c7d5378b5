import SnippetExpansion.Session.Replacement

/-! # The steps of a replacement
A shortcut gives way to its snippet step by step. Each step but a mark presses the keys of its piece, writes the
text so far with the piece behind it, and tells of it. Of what a plain field was before, the steps leave the
events, and the text if nothing is written. -/
namespace SnippetExpansion

/-- What a piece of a template comes to. -/
inductive Replacement.Step where
  | mark
  | add (keys : List Key) (text : Text)
  deriving Repr, DecidableEq

namespace Replacement.Step

def text? : Step → Option Text
  | mark => none
  | add _ t => some t

def texts (steps : List Step) : List Text := steps.filterMap text?

def events : Step → List SurfaceEvent
  | mark => []
  | add keys _ => keys.map .keyDown ++ [.input, .change]

/-- The calls on the surface, with the text so far and the place where the last mark has put the caret. -/
def calls (current : Text) (caret : Option Nat) : List Step → List Call
  | [] => []
  | mark :: rest => calls current (some current.length) rest
  | add keys t :: rest =>
    keys.map (fun key => .dispatch (.keyDown key)) ++
      [.write (current ++ t) caret, .dispatch .input, .dispatch .change] ++ calls (current ++ t) caret rest

def lastMark (current : Text) (caret : Option Nat) : List Step → Option Nat
  | [] => caret
  | mark :: rest => lastMark current (some current.length) rest
  | add _ t :: rest => lastMark (current ++ t) caret rest

def allCalls (before : Text) (steps : List Step) : List Call :=
  calls before none steps ++ (lastMark before none steps).toList.map .placeCaret

end Replacement.Step

open Replacement (Step)

def Call.written? : Call → Option Text
  | .write t _ => some t
  | _ => none

namespace Replacement.Step

variable {current : Text} {caret : Option Nat} {steps earlier later : List Step}

theorem texts_append (earlier later : List Step) : texts (earlier ++ later) = texts earlier ++ texts later :=
  List.filterMap_append

theorem lastMark_of_not_mem (h : mark ∉ steps) : lastMark current caret steps = caret := by
  induction steps generalizing current with
  | nil => rfl
  | cons step steps ih =>
    cases step with
    | mark => exact absurd List.mem_cons_self h
    | add keys t => exact ih fun hmem => h (List.mem_cons_of_mem _ hmem)

theorem lastMark_append_mark (h : mark ∉ later) :
    lastMark current caret (earlier ++ mark :: later) =
      some (current ++ (texts earlier).flatten).length := by
  induction earlier generalizing current caret with
  | nil =>
    rw [List.nil_append, lastMark, lastMark_of_not_mem h]
    exact congrArg (fun t : Text => some t.length) (List.append_nil current).symm
  | cons step earlier ih =>
    cases step with
    | mark => exact ih
    | add keys t =>
      refine ih.trans ?_
      rw [List.append_assoc]
      rfl

theorem written_calls (steps : List Step) (current : Text) (caret : Option Nat) :
    (calls current caret steps).filterMap Call.written? =
      (List.range (texts steps).length).map fun k => current ++ ((texts steps).take (k + 1)).flatten := by
  induction steps generalizing current caret with
  | nil => rfl
  | cons step steps ih =>
    cases step with
    | mark => exact ih current _
    | add keys t =>
      have hkeys : (keys.map fun key => Call.dispatch (.keyDown key)).filterMap Call.written? = [] :=
        List.filterMap_eq_nil_iff.2 (List.forall_mem_map.2 fun _ _ => rfl)
      have htexts : texts (add keys t :: steps) = t :: texts steps := rfl
      have hnext (k : Nat) : (current ++ t) ++ ((texts steps).take (k + 1)).flatten =
          current ++ ((t :: texts steps).take (k + 1 + 1)).flatten := by
        rw [List.take_succ_cons, List.flatten_cons, List.append_assoc]
      rw [calls, List.filterMap_append, List.filterMap_append, hkeys, ih, htexts, List.length_cons,
        List.range_succ_eq_map, List.map_cons, List.map_map]
      simp only [hnext]
      simp [Call.written?, Function.comp_def]

theorem written_allCalls (before : Text) (steps : List Step) :
    (allCalls before steps).filterMap Call.written? =
      (List.range (texts steps).length).map fun k => before ++ ((texts steps).take (k + 1)).flatten := by
  have hplaced : ((lastMark before none steps).toList.map Call.placeCaret).filterMap Call.written? = [] :=
    List.filterMap_eq_nil_iff.2 (List.forall_mem_map.2 fun _ _ => rfl)
  rw [allCalls, List.filterMap_append, written_calls, hplaced, List.append_nil]

theorem getLast?_written (before : Text) (h : texts steps ≠ []) :
    ((allCalls before steps).filterMap Call.written?).getLast? = some (before ++ (texts steps).flatten) := by
  have hlength := List.length_pos_iff.2 h
  obtain ⟨n, hn⟩ : ∃ n, (texts steps).length = n + 1 := ⟨(texts steps).length - 1, by omega⟩
  rw [written_allCalls, hn, List.range_succ, List.map_append, List.map_singleton, List.getLast?_concat,
    ← hn, List.take_length]

end Replacement.Step

def PlainField.perform (f : PlainField) : Call → PlainField
  | .write text caret => f.write text caret
  | .placeCaret offset => f.placeCaret offset
  | .dispatch event => { f with events := f.events ++ [event] }

def PlainField.performAll (f : PlainField) (calls : List Call) : PlainField := calls.foldl perform f

def Site.callAll (site : Site) (calls : List Call) : Site := calls.foldl Site.call site

theorem Site.callAll_plain (f : PlainField) (before calls : List Call) :
    (⟨.plain f, false, before⟩ : Site).callAll calls =
      ⟨.plain (f.performAll calls), false, before ++ calls⟩ := by
  induction calls generalizing f before with
  | nil =>
    rw [List.append_nil]
    rfl
  | cons call calls ih =>
    have hcall : (⟨.plain f, false, before⟩ : Site).call call =
        ⟨.plain (f.perform call), false, before ++ [call]⟩ := by
      cases call <;> rfl
    rw [callAll, List.foldl_cons, hcall, ← callAll, ih, List.append_assoc]
    rfl

namespace PlainField

variable {f : PlainField} {current : Text} {caret : Option Nat} {steps : List Step}

theorem performAll_append (f : PlainField) (calls calls' : List Call) :
    f.performAll (calls ++ calls') = (f.performAll calls).performAll calls' :=
  List.foldl_append

theorem performAll_keys (f : PlainField) (keys : List Key) :
    f.performAll (keys.map fun key => .dispatch (.keyDown key)) =
      { f with events := f.events ++ keys.map .keyDown } := by
  induction keys generalizing f with
  | nil =>
    rw [List.map_nil, List.map_nil, List.append_nil]
    rfl
  | cons key keys ih =>
    refine (ih { f with events := f.events ++ [.keyDown key] }).trans ?_
    rw [List.append_assoc]
    rfl

theorem performAll_add (f : PlainField) (current : Text) (caret : Option Nat) (keys : List Key) (t : Text)
    (steps : List Step) :
    f.performAll (Step.calls current caret (.add keys t :: steps)) =
      PlainField.performAll
        { f.write (current ++ t) caret with events := f.events ++ (Step.add keys t).events }
        (Step.calls (current ++ t) caret steps) := by
  rw [Step.calls, performAll_append, performAll_append, performAll_keys, Step.events, ← List.append_assoc]
  simp [performAll, perform, write, placeCaret]

theorem events_performAll (f : PlainField) (current : Text) (caret : Option Nat) (steps : List Step) :
    (f.performAll (Step.calls current caret steps)).events = f.events ++ steps.flatMap Step.events := by
  induction steps generalizing f current caret with
  | nil => exact (List.append_nil f.events).symm
  | cons step steps ih =>
    cases step with
    | mark => exact ih f current _
    | add keys t =>
      rw [performAll_add, ih, List.flatMap_cons, List.append_assoc]

theorem value_performAll (f : PlainField) (current : Text) (caret : Option Nat) (steps : List Step) :
    (f.performAll (Step.calls current caret steps)).value =
      if Step.texts steps = [] then f.value else current ++ (Step.texts steps).flatten := by
  induction steps generalizing f current caret with
  | nil => rfl
  | cons step steps ih =>
    cases step with
    | mark => exact ih f current _
    | add keys t =>
      have htexts : Step.texts (.add keys t :: steps) = t :: Step.texts steps := rfl
      rw [performAll_add, ih, htexts, if_neg (List.cons_ne_nil t _), List.flatten_cons, ← List.append_assoc]
      split
      · next hnone =>
        rw [hnone]
        exact (List.append_nil _).symm
      · rfl

theorem caret_performAll (h : .mark ∉ steps) (f : PlainField) (current : Text) :
    (f.performAll (Step.calls current none steps)).caret =
      if Step.texts steps = [] then f.caret else (current ++ (Step.texts steps).flatten).length := by
  induction steps generalizing f current with
  | nil => rfl
  | cons step steps ih =>
    cases step with
    | mark => exact absurd List.mem_cons_self h
    | add keys t =>
      have htexts : Step.texts (.add keys t :: steps) = t :: Step.texts steps := rfl
      rw [performAll_add, ih fun hmem => h (List.mem_cons_of_mem _ hmem), htexts,
        if_neg (List.cons_ne_nil t _), List.flatten_cons, ← List.append_assoc]
      split
      · next hnone =>
        rw [hnone]
        simp [write, placeCaret]
      · rfl

/-- The field after a replacement, where this stood before the shortcut. -/
structure Replaced (f f' : PlainField) (before : Text) (steps : List Step) : Prop where
  value : f'.value = if Step.texts steps = [] then f.value else before ++ (Step.texts steps).flatten
  events : f'.events = f.events ++ steps.flatMap Step.events
  caret_marked : ∀ earlier later, steps = earlier ++ .mark :: later → .mark ∉ later →
    f'.caret = (before ++ (Step.texts earlier).flatten).length
  caret_unmarked : .mark ∉ steps → Step.texts steps ≠ [] →
    f'.caret = (before ++ (Step.texts steps).flatten).length

variable {before shortcut : Text} {earlier later : List Step}

/-- The text only grows behind a mark, so that the caret is not held back. -/
theorem length_before_mark_le (hvalue : f.value = before ++ shortcut)
    (hsteps : steps = earlier ++ .mark :: later) (caret : Option Nat) :
    (before ++ (Step.texts earlier).flatten).length ≤
      (f.performAll (Step.calls before caret steps)).value.length := by
  have htexts : Step.texts steps = Step.texts earlier ++ Step.texts later := by
    rw [hsteps, Step.texts_append]
    rfl
  rw [value_performAll, htexts]
  split
  · next hnone =>
    rw [(List.append_eq_nil_iff.1 hnone).1, hvalue]
    simp
  · simp only [List.flatten_append, List.length_append]
    omega

theorem replaced_performAll (hvalue : f.value = before ++ shortcut) (steps : List Step) :
    f.Replaced (f.performAll (Step.allCalls before steps)) before steps := by
  have hwritten := f.value_performAll before none steps
  have htold := f.events_performAll before none steps
  have hlast (earlier later : List Step) (hsteps : steps = earlier ++ .mark :: later)
      (hlater : .mark ∉ later) :
      Step.lastMark before none steps = some (before ++ (Step.texts earlier).flatten).length := by
    rw [hsteps, Step.lastMark_append_mark hlater]
  rw [Step.allCalls, performAll_append]
  cases hmark : Step.lastMark before none steps with
  | none =>
    refine ⟨hwritten, htold, fun earlier later hsteps hlater => ?_, fun hnone htexts => ?_⟩
    · rw [hlast earlier later hsteps hlater] at hmark
      cases hmark
    · exact (caret_performAll hnone f before).trans (if_neg htexts)
  | some offset =>
    refine ⟨hwritten, htold, fun earlier later hsteps hlater => ?_, fun hnone _ => ?_⟩
    · obtain rfl : offset = (before ++ (Step.texts earlier).flatten).length :=
        Option.some.inj (hmark.symm.trans (hlast earlier later hsteps hlater))
      exact Nat.min_eq_left (length_before_mark_le hvalue hsteps none)
    · rw [Step.lastMark_of_not_mem hnone] at hmark
      cases hmark

end PlainField

end SnippetExpansion

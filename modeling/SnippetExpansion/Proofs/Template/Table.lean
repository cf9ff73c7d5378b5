import SnippetExpansion.Proofs.Template.Unanswered
import Mathlib.Data.List.Nodup

/-! # The table of a pass
A pass notes what a placeholder has come to, and puts that in wherever the placeholder stands again. So the
placeholders of a text are resolved once each, in the order in which they first appear. With services that
answer alike whenever they are asked the table does not show: the text is the one that comes of resolving
every placeholder afresh wherever it stands. -/
namespace SnippetExpansion

open Placeholder

section Keys

variable {α β : Type} [BEq α] [LawfulBEq α]

theorem nodup_eraseDups (l : List α) : l.eraseDups.Nodup := by
  cases l with
  | nil => exact List.nodup_nil
  | cons a l =>
    rw [List.eraseDups_cons, List.nodup_cons]
    refine ⟨?_, nodup_eraseDups (l.filter fun b => !b == a)⟩
    simp [List.mem_eraseDups]
termination_by l.length
decreasing_by exact Nat.lt_succ_of_le (List.length_filter_le _ l)

theorem lookup_zip_of_not_mem {key : α} {keys : List α} (h : key ∉ keys) (values : List β) :
    (keys.zip values).lookup key = none := by
  rw [List.lookup_eq_none_iff]
  intro e he
  have hkey : e.1 ∈ keys := (List.of_mem_zip he).1
  exact bne_iff_ne.2 fun heq => h (heq ▸ hkey)

theorem lookup_append_cons {key : α} {value : β} {before after : List (α × β)}
    (h : before.lookup key = none) (other : α) :
    (before ++ (key, value) :: after).lookup other = ((key, value) :: (before ++ after)).lookup other := by
  rw [List.lookup_append, List.lookup_cons, List.lookup_cons, List.lookup_append]
  split
  · next hsame =>
    rw [beq_iff_eq.1 hsame, h]
    rfl
  · rfl

end Keys

namespace Placeholder

/-- The placeholders that a pass resolves and has no value for yet, each once. -/
def due (b : Bracket) (known : List (Text × Text)) (pieces : List (Piece Placeholder)) :
    List Placeholder :=
  ((unknown known (pieces.filterMap Piece.value?)).filter (·.resolvedIn b)).eraseDups

def distinct (b : Bracket) (t : Text) : List Placeholder := ((all b t).filter (·.resolvedIn b)).eraseDups

end Placeholder

def Piece.putIn (b : Bracket) (values : List (Text × Text)) : Piece Placeholder → Text
  | .plain t => t
  | .found t p => if p.resolvedIn b then (values.lookup t).getD t else t

theorem Piece.putIn_congr {values values' : List (Text × Text)}
    (h : ∀ t, values.lookup t = values'.lookup t) (b : Bracket) :
    Piece.putIn b values = Piece.putIn b values' := by
  funext piece
  cases piece with
  | plain t => rfl
  | found t p => rw [Piece.putIn, Piece.putIn, h]

theorem Piece.putIn_first {b : Bracket} {p : Placeholder} (h : p.resolvedIn b) (t value : Text)
    (values : List (Text × Text)) : Piece.putIn b ((t, value) :: values) (.found t p) = value := by
  rw [putIn, if_pos h, List.lookup_cons_self]
  rfl

def Placeholder.putIn (b : Bracket) (t : Text) (values : List Text) : Text :=
  (pieces b t).flatMap (Piece.putIn b (((distinct b t).map Placeholder.text).zip values))

section Pass

variable {s : Snapshot} {b : Bracket} {again : Text → Expansion Text} {known : List (Text × Text)}
  {pieces : List (Piece Placeholder)}

theorem lookup_of_mem_due {p : Placeholder} (h : p ∈ due b known pieces) :
    known.lookup p.text = none := by
  obtain ⟨hunknown, -⟩ := List.mem_filter.1 (List.mem_eraseDups.1 h)
  exact Option.isNone_iff_eq_none.1 (List.mem_filter.1 hunknown).2

theorem not_mem_due {t value : Text} (h : known.lookup t = some value) :
    t ∉ (due b known pieces).map Placeholder.text := by
  intro hmem
  obtain ⟨p, hp, rfl⟩ := List.mem_map.1 hmem
  have hunknown := lookup_of_mem_due hp
  rw [h] at hunknown
  cases hunknown

theorem due_passed {p : Placeholder} {t : Text}
    (h : p.resolvedIn b = false ∨ (known.lookup p.text).isSome) :
    due b known (.found t p :: pieces) = due b known pieces := by
  have hvalues : (Piece.found t p :: pieces).filterMap Piece.value? =
      p :: pieces.filterMap Piece.value? := rfl
  rw [due, hvalues, unknown, List.filter_cons]
  split
  · next hnew =>
    have hpassed : p.resolvedIn b = false := by
      rw [Option.isNone_iff_eq_none] at hnew
      exact h.resolve_right (by simp [hnew])
    rw [List.filter_cons_of_neg (by simp [hpassed])]
    rfl
  · rfl

theorem due_new {inside : Text} (hpieces : ∀ piece ∈ pieces, piece.IsWritten b)
    (hresolved : (ofInside b inside).resolvedIn b)
    (hnew : known.lookup (written b inside) = none) (value : Text) :
    due b known (.found (written b inside) (ofInside b inside) :: pieces) =
      ofInside b inside :: due b ((written b inside, value) :: known) pieces := by
  have hvalues : (Piece.found (written b inside) (ofInside b inside) :: pieces).filterMap Piece.value? =
      ofInside b inside :: pieces.filterMap Piece.value? := rfl
  have hunknown : unknown known (ofInside b inside :: pieces.filterMap Piece.value?) =
      ofInside b inside :: unknown known (pieces.filterMap Piece.value?) :=
    List.filter_cons_of_pos (by simp [ofInside_text, hnew])
  rw [due, hvalues, hunknown, List.filter_cons_of_pos hresolved, List.eraseDups_cons, due,
    unknown_noted value hpieces, List.filter_comm]
  rfl

/-- A pass resolves what is due, and puts the values in. -/
theorem resolvePieces_eq (hpieces : ∀ piece ∈ pieces, piece.IsWritten b) :
    resolvePieces s b again known pieces = (do
      let values ← (due b known pieces).mapM (resolution s b again)
      pure (pieces.flatMap
        (Piece.putIn b (((due b known pieces).map Placeholder.text).zip values ++ known)))) := by
  induction pieces generalizing known with
  | nil => rfl
  | cons piece pieces ih =>
    obtain ⟨hpiece, hwritten⟩ := List.forall_mem_cons.1 hpieces
    cases piece with
    | plain t =>
      have hdue : due b known (.plain t :: pieces) = due b known pieces := rfl
      rw [resolvePieces, ih hwritten, hdue, bind_assoc]
      rfl
    | found t p =>
      obtain ⟨inside, rfl, rfl⟩ := hpiece
      by_cases hresolved : (ofInside b inside).resolvedIn b
      · cases hlookup : known.lookup (written b inside) with
        | some value =>
          have hknown : (known.lookup (ofInside b inside).text).isSome := by
            rw [ofInside_text, hlookup]
            rfl
          rw [resolvePieces_noted hresolved hlookup, ih hwritten, due_passed (.inr hknown), bind_assoc]
          refine bind_congr fun values => ?_
          rw [pure_bind, List.flatMap_cons, Piece.putIn, if_pos hresolved, List.lookup_append,
            lookup_zip_of_not_mem (not_mem_due hlookup), hlookup]
          rfl
        | none =>
          rw [resolvePieces_unnoted hresolved hlookup, due_new hwritten hresolved hlookup [], List.mapM_cons,
            bind_assoc]
          refine bind_congr fun value => ?_
          have hsame : due b ((written b inside, []) :: known) pieces =
              due b ((written b inside, value) :: known) pieces :=
            List.tail_eq_of_cons_eq ((due_new hwritten hresolved hlookup []).symm.trans
              (due_new hwritten hresolved hlookup value))
          rw [ih hwritten, hsame, bind_assoc, bind_assoc]
          refine bind_congr fun values => ?_
          have hfirst : (((due b ((written b inside, value) :: known) pieces).map
              Placeholder.text).zip values).lookup (written b inside) = none :=
            lookup_zip_of_not_mem (not_mem_due List.lookup_cons_self) values
          rw [pure_bind, pure_bind, List.map_cons, List.zip_cons_cons, List.cons_append, ofInside_text,
            Piece.putIn_congr (lookup_append_cons hfirst), List.flatMap_cons, Piece.putIn_first hresolved]
      · have hpassed := eq_false_of_ne_true hresolved
        rw [resolvePieces_passed hpassed, ih hwritten, due_passed (.inl hpassed), bind_assoc]
        refine bind_congr fun values => ?_
        rw [pure_bind, List.flatMap_cons, Piece.putIn, if_neg hresolved]

end Pass

def resolveNested (s : Snapshot) (maxDepth : Nat) (b : Bracket) (depth : Nat) (value : Text) :
    Expansion Text :=
  if depth + 1 < maxDepth then resolveText s maxDepth b (depth + 1) value else pure value

section Depth

variable {s : Snapshot} {b : Bracket}

theorem resolveLevels_eq_nested (s : Snapshot) (maxDepth : Nat) (b : Bracket) (depth : Nat) :
    resolveLevels s b (maxDepth - (depth + 1)) = resolveNested s maxDepth b depth := by
  funext value
  rw [resolveNested]
  split
  · next hdeeper =>
    have hlevels : maxDepth - (depth + 1) = maxDepth - (depth + 1 + 1) + 1 := by omega
    rw [resolveText, hlevels]
  · next hend =>
    have hlevels : maxDepth - (depth + 1) = 0 := by omega
    rw [hlevels, resolveLevels]

theorem resolveLevels_eq (s : Snapshot) (b : Bracket) (levels : Nat) (t : Text) :
    resolveLevels s b (levels + 1) t = (do
      let values ← (distinct b t).mapM (resolution s b (resolveLevels s b levels))
      pure (putIn b t values)) := by
  have hdue : due b [] (pieces b t) = distinct b t := by
    have hall : unknown [] ((pieces b t).filterMap Piece.value?) = all b t :=
      List.filter_eq_self.2 fun p _ => rfl
    rw [due, hall, distinct]
  rw [resolveLevels, resolvePieces_eq isWritten_of_mem_pieces, hdue]
  simp only [List.append_nil, putIn]

/-- A pass resolves the placeholders of its text once each, and puts the values in. -/
theorem resolveText_eq (s : Snapshot) (maxDepth : Nat) (b : Bracket) (depth : Nat) (t : Text) :
    resolveText s maxDepth b depth t = (do
      let values ← (distinct b t).mapM (resolution s b (resolveNested s maxDepth b depth))
      pure (putIn b t values)) := by
  rw [resolveText, resolveLevels_eq, resolveLevels_eq_nested]

/-- Resolves a text like `resolveText`, but every placeholder afresh wherever it stands. -/
def resolveAfresh (s : Snapshot) (maxDepth : Nat) (b : Bracket) (depth : Nat) (t : Text) :
    Expansion Text := do
  let texts ← (pieces b t).mapM (Piece.resolution s b fun value =>
    if depth + 1 < maxDepth then resolveAfresh s maxDepth b (depth + 1) value else pure value)
  pure texts.flatten
termination_by maxDepth - depth

variable {reply : (r : Request) → r.Answer}

theorem Piece.resolution_congr {again again' : Text → Expansion Text}
    (h : ∀ value, (again value).outcome reply = (again' value).outcome reply)
    (piece : Piece Placeholder) :
    (piece.resolution s b again).outcome reply = (piece.resolution s b again').outcome reply := by
  cases piece with
  | plain t => rfl
  | found t p =>
    rw [resolution, resolution]
    split
    · rw [Dialogue.outcome_bind, Dialogue.outcome_bind]
      split
      · exact h _
      · rfl
    · rfl

theorem resolveText_outcome (maxDepth depth : Nat) (t : Text) :
    (resolveText s maxDepth b depth t).outcome reply =
      (resolveAfresh s maxDepth b depth t).outcome reply := by
  fun_induction resolveAfresh s maxDepth b depth t with
  | case1 depth t ih =>
    rw [resolveText, resolveLevels_outcome, resolveLevels_eq_nested, Dialogue.outcome_bind,
      Dialogue.outcome_mapM, Dialogue.outcome_pure, ← List.flatMap_def]
    refine List.flatMap_congr fun piece _ => Piece.resolution_congr (fun value => ?_) piece
    rw [resolveNested]
    split
    · next hdeeper => exact ih value hdeeper
    · rfl

end Depth

theorem mem_distinct {b : Bracket} {t : Text} {p : Placeholder} :
    p ∈ distinct b t ↔ p ∈ all b t ∧ p.resolvedIn b := by
  rw [distinct, List.mem_eraseDups, List.mem_filter]

theorem inside_of_mem_distinct {b : Bracket} {t : Text} {p : Placeholder} (h : p ∈ distinct b t) :
    ∃ inside, b.Absent inside ∧ p = ofInside b inside := by
  obtain ⟨found, hfound⟩ := mem_all_iff_found.1 (mem_distinct.1 h).1
  obtain ⟨inside, -, habsent, -, rfl⟩ := found_of_mem_pieces hfound
  exact ⟨inside, habsent, rfl⟩

theorem texts_distinct (b : Bracket) (t : Text) : ((distinct b t).map Placeholder.text).Nodup := by
  refine (nodup_eraseDups _).map_on fun p hp q hq hsame => ?_
  obtain ⟨inside, -, rfl⟩ := inside_of_mem_distinct hp
  obtain ⟨inside', -, rfl⟩ := inside_of_mem_distinct hq
  rw [written_injective (b := b) hsame]

/-- With services that answer alike whenever they are asked, a pass gives the text that comes of resolving every
placeholder afresh. Whatever they answer, each token of the text is resolved once, however often it stands
there, and the same goes for every value that is passed over again. -/
theorem table_unseen {σ : Type} {outside : (r : Request) → StateM σ r.Answer}
    {reply : (r : Request) → r.Answer} (hfixed : ∀ r w, ((outside r).run w).1 = reply r) (s : Snapshot)
    (maxDepth : Nat) (b : Bracket) (depth : Nat) (t : Text) (w w' : σ) :
    (((resolveText s maxDepth b depth t).interpret outside).run w).1 =
      (((resolveAfresh s maxDepth b depth t).interpret outside).run w').1 ∧
    ((distinct b t).map Placeholder.text).Nodup ∧
    resolveText s maxDepth b depth t = (do
      let values ← (distinct b t).mapM (resolution s b (resolveNested s maxDepth b depth))
      pure (putIn b t values)) := by
  refine ⟨?_, texts_distinct b t, resolveText_eq s maxDepth b depth t⟩
  rw [Dialogue.run_interpret reply hfixed, Dialogue.run_interpret reply hfixed]
  exact resolveText_outcome maxDepth depth t

namespace Repeated

def reply : (r : Request) → r.Answer
  | .clipboard => .ok []
  | .prompt label => some label
  | .generate _ _ _ => .ok []
  | .clock => (default : Instant)
  | .wait _ => ()
  | .press _ => ()

def outside (r : Request) : StateM (List Request) r.Answer := do
  modify (· ++ [r])
  pure (reply r)

def snapshot : Snapshot :=
  { Snapshot.empty with vars := Dictionary.empty.insert ['v'] "<[v][v]>".toList }

/-- A variable that refers to itself twice, and a question that stands there twice. -/
theorem table_unseen_repeated :
    (∀ r w, ((outside r).run w).1 = reply r) ∧
    (((resolveText snapshot 2 .square 0 "[v][q:a][v][q:a]".toList).interpret outside).run []).1 =
      (((resolveAfresh snapshot 2 .square 0 "[v][q:a][v][q:a]".toList).interpret outside).run []).1 ∧
    (((resolveText snapshot 2 .square 0 "[v][q:a][v][q:a]".toList).interpret outside).run []).1 =
      "<<[v][v]><[v][v]>>a<<[v][v]><[v][v]>>a".toList ∧
    (((resolveText snapshot 2 .square 0 "[v][q:a][v][q:a]".toList).interpret outside).run []).2 =
      [.prompt ['a']] :=
  ⟨fun _ _ => rfl, (table_unseen (fun _ _ => rfl) snapshot 2 .square 0 _ [] []).1, by decide +kernel,
    by decide +kernel⟩

end Repeated
end SnippetExpansion

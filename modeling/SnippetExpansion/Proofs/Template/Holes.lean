import SnippetExpansion.Proofs.Template.Table

/-! # Fixed texts and holes
What comes in from outside is put into the text and not read again: whether a value is passed over once
more depends on its placeholder, or on a text that no source gave. So the expansion of a text is a row of
fixed texts and holes, and only the contents of the holes depend on the sources. -/
namespace SnippetExpansion

open Placeholder

/-- A row of fixed texts and holes. -/
abbrev Row := List Contribution

namespace Row

def fill (sources : Sources) (row : Row) : Text := row.flatMap sources.fill

def AskedIn (asked : List Request) (row : Row) : Prop := ∀ c ∈ row, c.AskedIn asked

variable {row : Row} {rows : List Row} {asked asked' : List Request}

theorem AskedIn.mono (h : row.AskedIn asked) (hsubset : asked ⊆ asked') : row.AskedIn asked' :=
  fun c hc => (h c hc).mono hsubset

theorem fill_singleton (sources : Sources) (c : Contribution) : fill sources [c] = sources.fill c :=
  List.flatMap_singleton _ c

theorem askedIn_singleton {c : Contribution} (h : c.AskedIn asked) : AskedIn asked [c] :=
  List.forall_mem_singleton.2 h

theorem fill_flatten (sources : Sources) (rows : List Row) :
    fill sources rows.flatten = (rows.map (fill sources)).flatten := by
  rw [fill, List.flatMap_def, List.map_flatten, List.flatten_flatten, List.map_map]
  rfl

theorem askedIn_flatten (h : ∀ row ∈ rows, row.AskedIn asked) : AskedIn asked rows.flatten := by
  intro c hc
  obtain ⟨row, hrow, hc⟩ := List.mem_flatten.1 hc
  exact h row hrow c hc

end Row

def Piece.row (b : Bracket) (rows : List (Text × Row)) : Piece Placeholder → Row
  | .plain t => [.text t]
  | .found t p => if p.resolvedIn b then (rows.lookup t).getD [.text t] else [.text t]

theorem Piece.fill_row (b : Bracket) (rows : List (Text × Row)) (sources : Sources)
    (piece : Piece Placeholder) :
    (piece.row b rows).fill sources =
      piece.putIn b (rows.map fun e => (e.1, e.2.fill sources)) := by
  cases piece with
  | plain t => exact Row.fill_singleton sources (.text t)
  | found t p =>
    rw [row, putIn]
    split
    · rw [lookup_map_snd]
      cases rows.lookup t with
      | some row => rfl
      | none => exact Row.fill_singleton sources (.text t)
    · exact Row.fill_singleton sources (.text t)

theorem Piece.row_askedIn {asked : List Request} {rows : List (Text × Row)}
    (h : ∀ e ∈ rows, e.2.AskedIn asked) (b : Bracket) (piece : Piece Placeholder) :
    (piece.row b rows).AskedIn asked := by
  have hfixed (t : Text) : Row.AskedIn asked [.text t] := Row.askedIn_singleton trivial
  cases piece with
  | plain t => exact hfixed t
  | found t p =>
    rw [row]
    split
    · cases hlookup : rows.lookup t with
      | some row =>
        obtain ⟨before, after, rfl, -⟩ := List.lookup_eq_some_iff.1 hlookup
        exact h (t, row) (List.mem_append_right before List.mem_cons_self)
      | none => exact hfixed t
    · exact hfixed t

/-- Whatever the sources hold, the expansion asks for the same and comes to the same row. -/
def ComesToRow (e : Expansion Text) : Prop :=
  ∀ now prompts, ∃ (row : Row) (after : List (Option Text)) (asked : List Request),
    row.AskedIn asked ∧ Foreseen now (fun _ => e) (fun sources => row.fill sources) prompts after asked

theorem comesToRow_pure (t : Text) : ComesToRow (pure t) := by
  intro now prompts
  refine ⟨[.text t], prompts, [], Row.askedIn_singleton trivial, ?_⟩
  simp only [Row.fill_singleton]
  exact .pure now _ prompts

section Pass

variable {s : Snapshot} {b : Bracket} {again : Text → Expansion Text}

theorem comesToRow_resolution (hagain : ∀ value, ComesToRow (again value)) (p : Placeholder) :
    ComesToRow (p.resolution s b again) := by
  intro now prompts
  obtain ⟨c, between, asked, hc, hasked, hresolve⟩ := s.resolve_contributes p now prompts
  cases hsource : p.source? s.ai with
  | some source =>
    -- A text from a source is not passed over again, whatever it holds.
    have honce (first : Text) : p.rescans b first = false := by
      rw [rescans, isLiteral_eq s.ai, hsource]
      rfl
    refine ⟨[c], between, asked, Row.askedIn_singleton hasked, ?_⟩
    simp only [resolution, honce, Row.fill_singleton]
    exact hresolve.map fun _ first => first
  | none =>
    rw [hsource] at hc
    obtain ⟨first, rfl, -⟩ := hc
    have hnext : ComesToRow (if p.rescans b first then again first else pure first) := by
      split
      · exact hagain first
      · exact comesToRow_pure first
    obtain ⟨row, after, asked', hrow, hrun⟩ := hnext now between
    exact ⟨row, after, asked ++ asked', hrow.mono (List.subset_append_right asked asked'),
      hresolve.bind hrun⟩

theorem mapM_comesToRow {α : Type} {f : α → Expansion Text} (h : ∀ a, ComesToRow (f a)) (l : List α)
    (now : Instant) (prompts : List (Option Text)) :
    ∃ (rows : List Row) (after : List (Option Text)) (asked : List Request),
      (∀ row ∈ rows, row.AskedIn asked) ∧
      Foreseen now (fun _ => l.mapM f) (fun sources => rows.map (Row.fill sources)) prompts after
        asked := by
  induction l generalizing prompts with
  | nil => exact ⟨[], prompts, [], nofun, .pure now _ prompts⟩
  | cons a l ih =>
    obtain ⟨row, between, asked, hrow, hrun⟩ := h a now prompts
    obtain ⟨rows, after, asked', hrows, hrun'⟩ := ih between
    refine ⟨row :: rows, after, asked ++ asked', List.forall_mem_cons.2
      ⟨hrow.mono (List.subset_append_left asked asked'), fun row hmem =>
        (hrows row hmem).mono (List.subset_append_right asked asked')⟩, ?_⟩
    simp only [List.mapM_cons]
    exact hrun.bind (hrun'.map fun sources values => row.fill sources :: values)

theorem comesToRow_pass (hagain : ∀ value, ComesToRow (again value)) (t : Text) :
    ComesToRow (do
      let values ← (distinct b t).mapM (resolution s b again)
      pure (putIn b t values)) := by
  intro now prompts
  obtain ⟨rows, after, asked, hrows, hrun⟩ :=
    mapM_comesToRow (comesToRow_resolution (s := s) (b := b) hagain) (distinct b t) now prompts
  let noted := ((distinct b t).map Placeholder.text).zip rows
  refine ⟨((pieces b t).map (Piece.row b noted)).flatten, after, asked,
    Row.askedIn_flatten (List.forall_mem_map.2 fun piece _ => Piece.row_askedIn
      (fun e he => hrows e.2 (List.of_mem_zip he).2) b piece), ?_⟩
  have hfill (sources : Sources) :
      Row.fill sources ((pieces b t).map (Piece.row b noted)).flatten =
        putIn b t (rows.map (Row.fill sources)) := by
    have hvalues : noted.map (fun e => (e.1, e.2.fill sources)) =
        ((distinct b t).map Placeholder.text).zip (rows.map (Row.fill sources)) :=
      List.zip_map_right.symm
    rw [Row.fill_flatten, List.map_map, putIn, List.flatMap_def, ← hvalues]
    exact congrArg List.flatten (List.map_congr_left fun piece _ => Piece.fill_row b noted sources piece)
  simp only [hfill]
  exact hrun.map fun _ values => putIn b t values

end Pass

theorem comesToRow_resolveLevels (s : Snapshot) (b : Bracket) (levels : Nat) (t : Text) :
    ComesToRow (resolveLevels s b levels t) := by
  induction levels generalizing t with
  | zero => exact comesToRow_pure t
  | succ levels ih =>
    rw [resolveLevels_eq]
    exact comesToRow_pass ih t

/-- Whatever the sources hold, resolving a text asks the same, waits the same and presses the same keys, uses
up the same answers to prompts, and comes to the same row of fixed texts and holes, every hole being filled
with what its source gives. -/
theorem resolveText_comesToRow (s : Snapshot) (maxDepth : Nat) (b : Bracket) (depth : Nat) (t : Text)
    (now : Instant) (prompts : List (Option Text)) :
    ∃ (row : Row) (after : List (Option Text)) (asked : List Request), row.AskedIn asked ∧
      ∀ sources noted, (sources.world now prompts noted).run (resolveText s maxDepth b depth t) =
        (row.fill sources, sources.world now after (noted ++ asked)) := by
  obtain ⟨row, after, asked, hrow, hrun⟩ :=
    comesToRow_resolveLevels s b (maxDepth - (depth + 1) + 1) t now prompts
  exact ⟨row, after, asked, hrow, hrun.run⟩

/-- A token on the clipboard stays as it is, though it comes in with the value of a variable. -/
example : ((Surroundings.alone default (.ok "[v]".toList)).run (resolveText
    { Snapshot.empty with vars := Dictionary.empty.insert ['v'] "<[paste]>".toList } 10 .square 0
      "[v]".toList)).1 = "<[v]>".toList := by
  decide +kernel

end SnippetExpansion

import SnippetExpansion.Transfer.Exchange
import SnippetExpansion.Proofs.StoredData.ReadBack

/-! # Exported entries are imported again
What is exported is read back as it was: variables whatever their names, and snippets that have
shortcuts. Other snippets are never read. -/
namespace SnippetExpansion

theorem Json.parse_pretty {j : Json} (htextual : textual j = true)
    (hwhole : (Reading.ofJson j).whole? maxLevels = some j) : parse? j.pretty = some j := by
  rw [parse?, read_pretty htextual]
  exact hwhole

theorem readImport_pretty {j : Json} (htextual : Json.textual j = true)
    (hwhole : (Reading.ofJson j).whole? Json.maxLevels = some j) : readImport j.pretty = .ok j := by
  rw [readImport, Json.parse_pretty htextual hwhole]

theorem Reading.wholeItems_ofItems {levels : Nat} {items : List Json}
    (h : ∀ j ∈ items, (Reading.ofJson j).whole? levels = some j) :
    Reading.wholeItems? levels (Reading.ofItems items) = some items := by
  induction items with
  | nil => rfl
  | cons j items ih =>
    have hhead := h j List.mem_cons_self
    have htail := ih fun j' hj' => h j' (List.mem_cons_of_mem _ hj')
    rw [Reading.ofItems, Reading.wholeItems?, hhead, htail]
    rfl

theorem Reading.wholeFields_ofFields {levels : Nat} {fields : List (Text × Json)}
    (h : ∀ f ∈ fields, (Reading.ofJson f.2).whole? levels = some f.2) :
    Reading.wholeFields? levels (Reading.ofFields fields) = some fields := by
  induction fields with
  | nil => rfl
  | cons f fields ih =>
    have hhead := h f List.mem_cons_self
    have htail := ih fun f' hf' => h f' (List.mem_cons_of_mem _ hf')
    rw [Reading.ofFields, Reading.wholeFields?, hhead, htail]
    rfl

namespace Snippet

theorem whole_toJson (s : Snippet) (levels : Nat) :
    (Reading.ofJson s.toJson).whole? (levels + 1) = some s.toJson := by
  obtain ⟨id, shortcut, text, category⟩ := s
  cases category <;> rfl

theorem ofJson_toJson (s : Snippet) : ofJson s.toJson = .ok s := by
  obtain ⟨id, shortcut, text, category⟩ := s
  cases category <;> rfl

theorem ofImported_toJson {snippets : List Snippet} (h : ∀ s ∈ snippets, ¬Text.isBlank s.shortcut)
    (number : Nat) : ofImported number (snippets.map toJson) = .ok snippets := by
  induction snippets generalizing number with
  | nil => rfl
  | cons s snippets ih =>
    have hshortcut := h s List.mem_cons_self
    have hrest := ih (fun s' hs' => h s' (List.mem_cons_of_mem _ hs')) (number + 1)
    rw [List.map_cons, ofImported, ofJson_toJson]
    simp only [if_neg hshortcut, hrest]
    rfl

theorem parseImport_exportText {snippets : List Snippet}
    (h : ∀ s ∈ snippets, ¬Text.isBlank s.shortcut) :
    parseImport (exportText snippets) = .ok snippets := by
  have htextual : Json.textual (listToJson snippets) = true :=
    StoredData.allTextual_map StoredData.textual_snippet snippets
  have hitems : Reading.wholeItems? (Json.maxLevels - 1) (Reading.ofItems (snippets.map toJson)) =
      some (snippets.map toJson) := by
    refine Reading.wholeItems_ofItems fun j hj => ?_
    obtain ⟨s, -, rfl⟩ := List.mem_map.1 hj
    exact whole_toJson s _
  have hwhole : (Reading.ofJson (listToJson snippets)).whole? Json.maxLevels =
      some (listToJson snippets) := by
    change Json.array <$> Reading.wholeItems? (Json.maxLevels - 1) _ = _
    rw [hitems]
    rfl
  rw [parseImport, exportText, readImport_pretty htextual hwhole]
  exact ofImported_toJson h 1

theorem ofImported_shortcut {number : Nat} {items : List Json} {snippets : List Snippet}
    (h : ofImported number items = .ok snippets) : ∀ s ∈ snippets, ¬Text.isBlank s.shortcut := by
  induction items generalizing number snippets with
  | nil =>
    obtain rfl := Except.ok.inj h
    exact fun s hs => absurd hs List.not_mem_nil
  | cons j items ih =>
    rw [ofImported] at h
    split at h
    · cases h
    · next s hs =>
      split at h
      · cases h
      · next hshortcut =>
        cases hrest : ofImported (number + 1) items with
        | error failure =>
          rw [hrest] at h
          cases h
        | ok rest =>
          rw [hrest] at h
          obtain rfl := Except.ok.inj h
          exact List.forall_mem_cons.2 ⟨hshortcut, ih hrest⟩

theorem parseImport_shortcut {content : Text} {snippets : List Snippet}
    (h : parseImport content = .ok snippets) : ∀ s ∈ snippets, ¬Text.isBlank s.shortcut := by
  rw [parseImport] at h
  cases hread : readImport content with
  | error failure =>
    rw [hread] at h
    cases h
  | ok j =>
    rw [hread] at h
    cases j with
    | array items => exact ofImported_shortcut h
    | _ => cases h

end Snippet

namespace Variables

theorem ofImported_toJson (entries : List (Text × Text)) :
    ofImported (entries.map fun e => (e.1, .string e.2)) = .ok entries := by
  induction entries with
  | nil => rfl
  | cons e entries ih =>
    rw [List.map_cons, ofImported, ih]
    rfl

theorem parseImport_exportText (vars : Variables) : parseImport (exportText vars) = .ok vars := by
  have hrising : Entries.Rising (vars.entries.map fun e => (e.1, Json.string e.2)) := by
    rw [Entries.Rising, List.pairwise_map]
    exact vars.rising
  let fields : Dictionary Json := ⟨_, hrising⟩
  have htextual : Json.textual vars.toJson = true := by
    rw [toJson, Json.textual, StoredData.fieldsTextual_iff]
    intro f hf
    obtain ⟨e, -, rfl⟩ := List.mem_map.1 hf
    rfl
  have hfields : Reading.wholeFields? (Json.maxLevels - 1) (Reading.ofFields fields.entries) =
      some fields.entries := by
    refine Reading.wholeFields_ofFields fun f hf => ?_
    obtain ⟨e, -, rfl⟩ := List.mem_map.1 hf
    rfl
  have hwhole : (Reading.ofJson vars.toJson).whole? Json.maxLevels = some vars.toJson := by
    change Json.object <$> Reading.wholeFields? (Json.maxLevels - 1) _ = _
    rw [hfields]
    rfl
  rw [parseImport, exportText, readImport_pretty htextual hwhole]
  change Dictionary.ofList <$> ofImported (Dictionary.ofList fields.entries).entries = _
  rw [Dictionary.ofList_entries, ofImported_toJson]
  exact congrArg Except.ok (Dictionary.ofList_entries vars)

end Variables
end SnippetExpansion

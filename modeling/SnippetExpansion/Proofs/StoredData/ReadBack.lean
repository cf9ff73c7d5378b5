import SnippetExpansion.StoredData
import SnippetExpansion.Proofs.Json.ReadBack
import Mathlib.Data.List.Basic

/-! # Written data is read back
Every part of the stored data comes back from its JSON form as it was, and so does the whole from
its text. -/
namespace SnippetExpansion

theorem Entries.insert_last {α : Type} {name : Text} {value : α} {entries : List (Text × α)}
    (h : ∀ e ∈ entries, e.1 < name) :
    Entries.insert name value entries = entries ++ [(name, value)] := by
  induction entries with
  | nil => rfl
  | cons e entries ih =>
    obtain ⟨other, old⟩ := e
    have hlt : other < name := h (other, old) List.mem_cons_self
    have hne : name ≠ other := by
      rintro rfl
      exact List.lt_irrefl name hlt
    rw [Entries.insert, if_neg (List.not_lt.2 (List.le_of_lt hlt)), if_neg hne,
      ih fun e he => h e (List.mem_cons_of_mem _ he)]
    rfl

theorem Dictionary.foldl_insert_entries {α : Type} (rest : List (Text × α)) (d : Dictionary α)
    (h : Entries.Rising (d.entries ++ rest)) :
    (rest.foldl (fun d e => d.insert e.1 e.2) d).entries = d.entries ++ rest := by
  induction rest generalizing d with
  | nil => simp
  | cons e rest ih =>
    have hlast : (d.insert e.1 e.2).entries = d.entries ++ [e] :=
      Entries.insert_last fun x hx => (List.pairwise_append.1 h).2.2 x hx e List.mem_cons_self
    rw [List.foldl_cons, ih _ (by simpa [hlast] using h), hlast]
    simp

theorem Dictionary.ofList_entries {α : Type} (d : Dictionary α) :
    Dictionary.ofList d.entries = d :=
  Dictionary.ext (Dictionary.foldl_insert_entries d.entries Dictionary.empty d.rising)

theorem Reading.listOf_ofJson {α : Type} {item : Reading → Except Mismatch α} {toJson : α → Json}
    (h : ∀ a, item (Reading.ofJson (toJson a)) = .ok a) (l : List α) :
    (Reading.ofJson (.array (l.map toJson))).listOf item = .ok l := by
  have hitems : (Reading.ofItems (l.map toJson)).mapM item = .ok l := by
    induction l with
    | nil => rfl
    | cons a l ih =>
      rw [List.map_cons, Reading.ofItems, List.mapM_cons, h a, ih]
      rfl
  rw [Reading.ofJson, Reading.listOf, hitems]
  rfl

theorem Reading.text_string (t : Text) : (Reading.ofJson (.string t)).text = .ok t := rfl

theorem Variables.dictionary_toJson (vars : Variables) :
    (Reading.ofJson vars.toJson).dictionary = .ok vars := by
  have hentries (l : List (Text × Text)) :
      Reading.entries (Reading.ofFields (l.map fun e => (e.1, Json.string e.2))) = .ok l := by
    induction l with
    | nil => rfl
    | cons e l ih =>
      rw [List.map_cons, Reading.ofFields, Reading.entries, ih]
      rfl
  rw [Variables.toJson, Reading.ofJson, Reading.dictionary, hentries]
  exact congrArg Except.ok (Dictionary.ofList_entries vars)

theorem Snippet.ofReading_toJson (s : Snippet) :
    Snippet.ofReading (Reading.ofJson s.toJson) = .ok s := by
  obtain ⟨id, shortcut, text, category⟩ := s
  cases category <;> rfl

theorem AiConfig.ofFields_toFields (config : AiConfig) :
    AiConfig.ofFields config.toFields = .ok config := by
  obtain ⟨selected, openai, claude, deepseek⟩ := config
  rcases selected with _ | (_ | _ | _) <;> cases openai <;> cases claude <;> cases deepseek <;> rfl

namespace StoredData

def Other (f : Text × Json) : Prop :=
  f.1 ∉ ["snippets".toList, "categories".toList, "customVariables".toList] ∧
    (Reading.ofJson f.2).whole? (Json.maxLevels - 1) = some f.2

theorem readField_other {p : Partial} {f : Text × Json} (h : Other f) :
    readField p (some f.1) (Reading.ofJson f.2) = .ok { p with others := p.others ++ [f] } := by
  obtain ⟨hname, hwhole⟩ := h
  simp only [List.mem_cons, List.not_mem_nil, or_false, not_or] at hname
  rw [readField, if_neg hname.1, if_neg hname.2.1, if_neg hname.2.2, hwhole]

theorem readField_others (fields : List (Text × Json)) (p : Partial) (h : ∀ f ∈ fields, Other f) :
    (Reading.ofFields fields).foldlM (fun p (name, r) => readField p name r) p =
      .ok { p with others := p.others ++ fields } := by
  induction fields generalizing p with
  | nil => simp [Reading.ofFields, pure, Except.pure]
  | cons f fields ih =>
    have hrest := ih { p with others := p.others ++ [f] } fun g hg => h g (List.mem_cons_of_mem _ hg)
    rw [Reading.ofFields, List.foldlM_cons]
    change (readField p (some f.1) (Reading.ofJson f.2) >>= _) = _
    rw [readField_other (h f List.mem_cons_self)]
    rw [List.append_assoc] at hrest
    exact hrest

theorem toFields_other (config : AiConfig) : ∀ f ∈ config.toFields, Other f := by
  have key {name : String} {key : Option Text} {f : Text × Json}
      (hname : name.toList ∉ ["snippets".toList, "categories".toList, "customVariables".toList])
      (hf : f ∈ AiConfig.keyField name key) : Other f := by
    cases key with
    | none => cases hf
    | some k =>
      rw [List.mem_singleton.1 hf]
      exact ⟨hname, rfl⟩
  intro f hf
  simp only [AiConfig.toFields, List.mem_cons, List.mem_append] at hf
  rcases hf with ((rfl | hf) | hf) | hf
  · refine ⟨show "selectedProvider".toList ∉ _ by decide, ?_⟩
    cases config.selected <;> rfl
  · exact key (by decide) hf
  · exact key (by decide) hf
  · exact key (by decide) hf

theorem readField_snippets (snippets : List Snippet) (p : Partial) (h : p.snippets = none) :
    readField p (some "snippets".toList) (Reading.ofJson (Snippet.listToJson snippets)) =
      .ok { p with snippets := some snippets } := by
  rw [readField, if_pos rfl, h, Snippet.listToJson, Reading.listOf_ofJson Snippet.ofReading_toJson]
  rfl

theorem readField_categories (categories : List Text) (p : Partial) (h : p.categories = none) :
    readField p (some "categories".toList)
        (Reading.ofJson (.array (categories.map Json.string))) =
      .ok { p with categories := some categories } := by
  rw [readField, if_neg (by decide), if_pos rfl, h, Reading.listOf_ofJson Reading.text_string]
  rfl

theorem readField_vars (vars : Variables) (p : Partial) (h : p.vars = none) :
    readField p (some "customVariables".toList) (Reading.ofJson vars.toJson) =
      .ok { p with vars := some vars } := by
  rw [readField, if_neg (by decide), if_neg (by decide), if_pos rfl, h,
    Variables.dictionary_toJson]
  rfl

theorem ofReading_toJson (d : StoredData) : ofReading (Reading.ofJson d.toJson) = .ok d := by
  have hread : (Reading.ofFields ([("snippets".toList, Snippet.listToJson d.snippets),
      ("categories".toList, .array (d.categories.map .string)),
      ("customVariables".toList, d.vars.toJson)] ++ d.ai.toFields)).foldlM
        (fun p (name, r) => readField p name r) ⟨none, none, none, []⟩ =
      .ok ⟨some d.snippets, some d.categories, some d.vars, d.ai.toFields⟩ := by
    simp only [List.cons_append, List.nil_append, Reading.ofFields, List.foldlM_cons]
    rw [readField_snippets d.snippets _ rfl]
    change (readField _ (some _) (Reading.ofJson _) >>= _) = _
    rw [readField_categories d.categories _ rfl]
    change (readField _ (some _) (Reading.ofJson _) >>= _) = _
    rw [readField_vars d.vars _ rfl]
    exact readField_others d.ai.toFields _ (toFields_other d.ai)
  rw [toJson, Reading.ofJson, ofReading, hread]
  change (AiConfig.ofFields d.ai.toFields >>= _) = _
  rw [AiConfig.ofFields_toFields]
  rfl

theorem allTextual_map {α : Type} {toJson : α → Json} (h : ∀ a, Json.textual (toJson a) = true)
    (l : List α) : Json.allTextual (l.map toJson) = true := by
  induction l with
  | nil => rfl
  | cons a l ih => simp [Json.allTextual, h a, ih]

theorem fieldsTextual_iff (fields : List (Text × Json)) :
    Json.fieldsTextual fields = true ↔ ∀ f ∈ fields, Json.textual f.2 = true := by
  induction fields with
  | nil => simp [Json.fieldsTextual]
  | cons f fields ih => simp [Json.fieldsTextual, ih]

theorem textual_snippet (s : Snippet) : Json.textual s.toJson = true := by
  obtain ⟨id, shortcut, text, category⟩ := s
  cases category <;> rfl

theorem textual_aiField (config : AiConfig) : ∀ f ∈ config.toFields, Json.textual f.2 = true := by
  obtain ⟨selected, openai, claude, deepseek⟩ := config
  apply (fieldsTextual_iff _).1
  cases selected <;> cases openai <;> cases claude <;> cases deepseek <;> rfl

theorem textual_toJson (d : StoredData) : Json.textual d.toJson = true := by
  have hvars : Json.textual d.vars.toJson = true := by
    rw [Variables.toJson, Json.textual, fieldsTextual_iff]
    intro f hf
    obtain ⟨e, -, rfl⟩ := List.mem_map.1 hf
    rfl
  rw [toJson, Json.textual, fieldsTextual_iff]
  intro f hf
  simp only [List.mem_append, List.mem_cons, List.not_mem_nil, or_false] at hf
  rcases hf with (rfl | rfl | rfl) | hf
  · exact allTextual_map textual_snippet d.snippets
  · exact allTextual_map (fun _ => rfl) d.categories
  · exact hvars
  · exact textual_aiField d.ai f hf

/-- The data comes back from its text as it was written. -/
theorem parse_write (d : StoredData) : parse d.write = .ok d := by
  rw [parse, write, Json.read_pretty (textual_toJson d), Document.decode, ofReading_toJson]
  rfl

end StoredData

end SnippetExpansion

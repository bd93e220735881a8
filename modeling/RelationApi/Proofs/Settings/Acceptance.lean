import RelationApi.Proofs.Failure
import RelationApi.Startup

/-!
# What an accepted configuration is good for

The check of a configuration resolves the settings of the default schema, and asks for settings of
operations that can be read for every type (`Startup.admits_of_checkOperation`). So the settings of
each schema that has the same section as the default one are there, and they have an answer for all
types (`Startup.answers_of_check`).

The sections of other schemas are not looked at before they are used. Any of them can be malformed,
and so can the configuration as a whole where the default schema has a section of its own
(`Startup.unchecked_sections`).
-/

namespace RelationApi

namespace Settings

/-- The section that a configuration has for one schema alone. -/
def ownSection? (configuration : Option Data) (schema : String) : Option Data :=
  match configuration with
  | some (.mapping es) => Data.get? es schema
  | _ => none

theorem sectionFor_mapping (es : List (Key × Data)) (n : String) : sectionFor (.mapping es) n =
    ((Data.get? es n).map fun own => mappingOf own .sectionNotMapping).getD (.ok es) := by
  unfold sectionFor
  dsimp only [mappingOf, bind, Except.bind]
  cases Data.get? es n <;> rfl

/-- Only the sections of their own tell schemas apart. -/
theorem sectionFor_congr {c : Option Data} {n n' : String}
    (h : ownSection? c n = ownSection? c n') :
    sectionFor (c.getD .null) n = sectionFor (c.getD .null) n' := by
  cases c with
  | none => rfl
  | some d =>
    cases d with
    | mapping es =>
      have h : Data.get? es n = Data.get? es n' := h
      rw [Option.getD_some, sectionFor_mapping, sectionFor_mapping, h]
    | flag b => cases b <;> rfl
    | text t | list t =>
      simp only [Option.getD_some, sectionFor, mappingOf]
      split <;> rfl
    | null | number k => rfl

theorem forSchema_congr {c : Option Data} {n n' : String}
    (h : ownSection? c n = ownSection? c n') : forSchema c n = forSchema c n' := by
  rw [forSchema, forSchema, sectionFor_congr h]

end Settings

namespace Startup

/-- A configuration is accepted if the default schema has settings, and these pass. -/
theorem check_eq_ok_iff {c : Option Data} : (check c).result = .ok () ↔
    ∃ s, Settings.forSchema c Settings.defaultSchema = .ok s ∧
      checkOperation "query" s.query = .ok () ∧ checkOperation "mutation" s.mutation = .ok () ∧
      ∃ keys, unknownKeys s = .ok keys := by
  simp only [check, Run.result_bind_eq_ok_iff, Run.result_ofExcept]
  constructor
  · rintro ⟨s, hs, ⟨⟩, hquery, ⟨⟩, hmutation, keys, hkeys, -⟩
    exact ⟨s, hs, hquery, hmutation, keys, hkeys⟩
  · rintro ⟨s, hs, hquery, hmutation, keys, hkeys⟩
    refine ⟨s, hs, (), hquery, (), hmutation, keys, hkeys, ?_⟩
    split <;> rfl

/-- A setting that passes can be read for every type. -/
theorem admits_of_checkOperation {root : String} {setting : Data}
    (h : checkOperation root setting = .ok ()) (type : String) :
    ∃ b, Settings.admits setting type = .ok b := by
  cases setting with
  | flag b => exact ⟨b, rfl⟩
  | mapping es =>
    rw [checkOperation] at h
    rw [Settings.admits]
    cases hexclude : Data.get? es "exclude" with
    | none => exact ⟨true, rfl⟩
    | some excluded =>
      rw [hexclude] at h
      cases excluded with
      | list xs => exact ⟨_, rfl⟩
      | _ => cases h
  | _ => cases h

/-- An accepted configuration has settings for each schema whose own section is that of the default
schema, or that has none like the default schema, and these have an answer for every type. -/
theorem answers_of_check {c : Option Data} (h : (check c).result = .ok ()) {schema : String}
    (hown : Settings.ownSection? c schema = Settings.ownSection? c Settings.defaultSchema) :
    ∃ s, Settings.forSchema c schema = .ok s ∧
      ∀ root ∈ ["query", "mutation"], ∀ type, ∃ b, s.augmentsType root type = .ok b := by
  obtain ⟨s, hs, hquery, hmutation, -⟩ := check_eq_ok_iff.1 h
  refine ⟨s, (Settings.forSchema_congr hown).trans hs, fun root hroot type => ?_⟩
  rw [List.mem_cons, List.mem_singleton] at hroot
  rcases hroot with rfl | rfl
  · exact admits_of_checkOperation hquery type
  · exact admits_of_checkOperation hmutation type

/-- Two operations are switched off for some types, and one schema has a section of its own. The
settings of any schema without one are those that were accepted. -/
theorem answers_of_check_excluded :
    let excluding (types : List String) : Data :=
      .mapping [(.text "exclude", .list (types.map .text))]
    let c : Option Data := some (.mapping [
      (.text "augmentation_settings", .mapping [
        (.text "query", .flag false), (.text "mutation", excluding ["City"])]),
      (.text "reporting", .number 5)])
    (check c).result = .ok () ∧
      Settings.ownSection? c "blog" = Settings.ownSection? c Settings.defaultSchema ∧
      ∃ s, Settings.forSchema c "blog" = .ok s ∧
        s.augmentsType "query" "Person" = .ok false ∧
        s.augmentsType "mutation" "Person" = .ok true ∧
        s.augmentsType "mutation" "City" = .ok false ∧
        ∀ root ∈ ["query", "mutation"], ∀ type, ∃ b, s.augmentsType root type = .ok b := by
  intro excluding c
  have h : (check c).result = .ok () := by rfl
  have hown : Settings.ownSection? c "blog" = Settings.ownSection? c Settings.defaultSchema := by
    rfl
  obtain ⟨s, hs, hanswers⟩ := answers_of_check h hown
  cases hs
  exact ⟨h, hown, _, rfl, rfl, rfl, rfl, hanswers⟩

/-- A section that is malformed in itself, or in the types that it excludes, and a configuration
that the section of the default schema hides : all are accepted, and fail for another schema. -/
theorem unchecked_sections :
    let named (name : String) (d : Data) : Key × Data := (.text name, d)
    let sectionOf (d : Data) : Data := .mapping [named "augmentation_settings" d]
    let malformed : Data := .mapping [named "reporting" (.number 5)]
    let unreadable : Data := .mapping [named "reporting" (sectionOf (.mapping [
      named "mutation" (.mapping [named "exclude" .null])]))]
    let hidden : Data := .mapping [
      named "default" (.mapping []), named "augmentation_settings" (.number 5)]
    (∀ c ∈ [malformed, unreadable, hidden], (check (some c)).result = .ok ()) ∧
      Settings.forSchema (some malformed) "reporting" = .error .sectionNotMapping ∧
      Settings.forSchema (some hidden) "reporting" = .error .valuesNotIterable ∧
      ∃ s, Settings.forSchema (some unreadable) "reporting" = .ok s ∧
        s.augmentsType "mutation" "Person" = .error .excludeNotContainer := by
  intro named sectionOf malformed unreadable hidden
  have hchecked : ∀ c ∈ [malformed, unreadable, hidden], (check (some c)).result = .ok () := by
    simp only [List.forall_mem_cons]
    exact ⟨rfl, rfl, rfl, fun _ h => absurd h List.not_mem_nil⟩
  exact ⟨hchecked, rfl, rfl, _, rfl, rfl⟩

end Startup

end RelationApi

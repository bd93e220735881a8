import RelationApi.Proofs.Schema.Frame
import RelationApi.Proofs.Schema.Legibility

/-!
# Relationships that share their names

The name of a mutation puts a type's name and a field's name together, and different pairs can give
the same name : the field `bC` of `A` and the field `c` of `AB`. The mutation root takes the first
mutation of each name, so the first relationship gets both mutations, and the others get none
(`mutations_of_found`, `mutations_lost`).

A document that was read from a text has no field without a name, and settings that have an answer
for one relationship have one for all. So the run succeeds as soon as the relationships are found
and one of them is let through.
-/

namespace RelationApi

open Sdl

/-! ## Settings -/

namespace Settings

/-- Whether excluded types can be read does not depend on the type that is asked for. -/
theorem admits_eq_ok {setting : Data} {type : String} {b : Bool} (h : admits setting type = .ok b)
    (type' : String) : ∃ b', admits setting type' = .ok b' := by
  cases setting with
  | mapping es =>
    cases hexclude : Data.get? es "exclude" with
    | none => exact ⟨true, by simp [admits, hexclude]⟩
    | some excluded =>
      rw [admits, hexclude] at h
      cases excluded with
      | list _ | text _ | mapping _ => exact ⟨_, by rw [admits, hexclude]; rfl⟩
      | null | flag _ | number _ => cases h
  | _ => exact ⟨_, rfl⟩

theorem mutates_eq_ok {s : Settings} {r : Relationship} {b : Bool} (h : s.mutates r = .ok b)
    (r' : Relationship) : ∃ b', s.mutates r' = .ok b' := by
  rw [mutates_eq] at h
  obtain ⟨_, hfrom, -⟩ := except_bind_eq_ok_iff.1 h
  obtain ⟨b, hb⟩ := admits_eq_ok hfrom r'.fromType
  obtain ⟨b', hb'⟩ := admits_eq_ok hfrom r'.toType
  rw [mutates_eq, hb]
  cases b with
  | false => exact ⟨false, rfl⟩
  | true => exact ⟨b', hb'⟩

end Settings

/-! ## Names of mutations -/

/-- The part of its mutations' names that tells where the relationship was found. -/
def Relationship.subject (r : Relationship) : String :=
  r.typeName ++ Text.capitalized r.fieldName

/-- The name of a mutation tells its action from the subject. -/
theorem Action.label_append_inj {a a' : Action} {n n' : String}
    (h : a.label ++ n = a'.label ++ n') : a = a' ∧ n = n' := by
  have hhead := congrArg (fun n : String => n.toList.head?) h
  cases a <;> cases a'
  · exact ⟨rfl, (String.append_right_inj _).1 h⟩
  · simp [label] at hhead
  · simp [label] at hhead
  · exact ⟨rfl, (String.append_right_inj _).1 h⟩

theorem Mutation.name_eq (m : Mutation) : m.name = m.action.label ++ m.relationship.subject :=
  String.append_assoc

/-- Where all names are different, a mutation is the only one of its name. -/
theorem Mutation.filter_name_eq {ms : List Mutation} {m : Mutation} (hn : (ms.map name).Nodup)
    (hm : m ∈ ms) : ms.filter (fun m' => m'.name = m.name) = [m] := by
  induction ms with
  | nil => simp at hm
  | cons m' ms ih =>
    rw [List.map_cons, List.nodup_cons] at hn
    rcases List.mem_cons.1 hm with rfl | hm
    · have hnone : ms.filter (fun m' => m'.name = m.name) = [] := by
        rw [List.filter_eq_nil_iff]
        intro m' hm' hname
        exact hn.1 (List.mem_map.2 ⟨m', hm', by simpa using hname⟩)
      rw [List.filter_cons_of_pos (by simp), hnone]
    · have hne : m'.name ≠ m.name := fun h => hn.1 (h ▸ List.mem_map_of_mem hm)
      rw [List.filter_cons_of_neg (by simpa using hne), ih hn.2 hm]

/-- The first mutation of a name that relationships are offered is that of the first relationship
with the subject. -/
theorem find?_mutations (a : Action) (n : String) (rs : List Relationship) :
    ((rs.flatMap Relationship.mutations).find? fun m => m.name = a.label ++ n) =
      (rs.find? fun r => r.subject = n).map fun r => ⟨r, a⟩ := by
  induction rs with
  | nil => rfl
  | cons r rs ih =>
    have hname : ∀ b : Action, (Mutation.mk r b).name = a.label ++ n ↔ b = a ∧ r.subject = n := by
      intro b
      rw [Mutation.name_eq]
      constructor
      · exact fun h => Action.label_append_inj h
      · rintro ⟨rfl, rfl⟩
        rfl
    rw [List.flatMap_cons, List.find?_append, ih]
    by_cases hn : r.subject = n
    · cases a <;> simp [Relationship.mutations, Action.all, hname, hn]
    · simp [Relationship.mutations, Action.all, hname, hn]

theorem Settings.find?_offers (s : Settings) (a : Action) (n : String) (rs : List Relationship) :
    ((s.offers rs).find? fun m => m.name = a.label ++ n) =
      (rs.find? fun r => s.letsThrough r ∧ r.subject = n).map fun r => ⟨r, a⟩ := by
  rw [offers, find?_mutations, List.find?_filter]
  congr 2
  funext r
  simp

namespace Schema

open Relationship

variable {text : String} {d : Document}

/-! ## Names of fields -/

/-- What is found in a document that was read from a text is found at fields that have names. -/
theorem fieldName_ne_of_mem_collect (hparse : Document.parse text = .ok d)
    {found : List Relationship} (hfound : collect (sorted d).defined = .ok found)
    {r : Relationship} (hr : r ∈ found) : r.fieldName ≠ "" :=
  IsName.ne_empty (legible_of_mem_collect (Document.legible_of_read hparse) hfound hr).fieldName

/-- A run over a document that was read succeeds as soon as its relationships are found, if the
settings have an answer for each of them. -/
theorem augmentedTypes_of_answers (hparse : Document.parse text = .ok d) {s : Settings}
    {found : List Relationship} (hfound : Relationship.collect (sorted d).defined = .ok found)
    (hanswers : ∀ r ∈ found, ∃ b, s.mutates r = .ok b) :
    (augmentedTypes d (.ok s)).result =
      .ok ((s.offers found).foldl (Types.offer s) (sorted d)) := by
  refine augmentedTypes_eq_ok_iff.2 ⟨s, found, rfl, hfound, fun _ r hr => ?_, rfl⟩
  obtain ⟨b, hb⟩ := hanswers r hr
  exact ⟨b, hb, fun _ => fieldName_ne_of_mem_collect hparse hfound hr⟩

/-- If the settings let one relationship through, the run over a document that was read succeeds. -/
theorem augmentedTypes_of_applies (hparse : Document.parse text = .ok d) {s : Settings}
    {found : List Relationship} (hfound : collect (sorted d).defined = .ok found)
    {r : Relationship} (happlies : s.mutates r = .ok true) :
    (augmentedTypes d (.ok s)).result =
      .ok ((s.offers found).foldl (Types.offer s) (sorted d)) :=
  augmentedTypes_of_answers hparse hfound fun r' _ => Settings.mutates_eq_ok happlies r'

/-! ## Who gets a name -/

/-- If a relationship is let through, some relationship with its subject is the first such one. -/
theorem exists_first {s : Settings} {found : List Relationship} {r : Relationship} (hr : r ∈ found)
    (happlies : s.mutates r = .ok true) : ∃ first,
      (found.find? fun q => s.letsThrough q ∧ q.subject = r.subject) = some first ∧
        first.subject = r.subject := by
  have hsome : (found.find? fun q => s.letsThrough q ∧ q.subject = r.subject).isSome := by
    rw [List.find?_isSome]
    exact ⟨r, hr, by simp [Settings.letsThrough_of_ok happlies]⟩
  obtain ⟨first, hfirst⟩ := Option.isSome_iff_exists.1 hsome
  have hsubject := List.find?_some hfirst
  simp only [decide_eq_true_eq] at hsubject
  exact ⟨first, hfirst, hsubject.2⟩

/-- A name that is offered, and is not that of a field of the root, goes to the first mutation
offered under it. -/
theorem mem_taken_of_first {t : Types} {root : ObjectType}
    (hroot : t.roots.find? .mutation = some root) {ms : List Mutation} {m : Mutation}
    (hm : (ms.find? fun m' => m'.name = m.name) = some m) (hnew : m.name ∉ root.fieldNames) :
    m ∈ t.taken ms := by
  have hname := Mutation.name_mem_accepted (List.mem_of_find?_eq_some hm) hnew
  rw [← Types.taken_of_some hroot] at hname
  obtain ⟨m', hm', hname⟩ := List.mem_map.1 hname
  have hfirst := Types.find?_of_mem_taken hm'
  rw [hname, hm] at hfirst
  rwa [Option.some.inj hfirst]

/-- The field of a mutation that is taken is the only one of its name. -/
theorem filter_mutationFields {t : Types} {root : ObjectType}
    (hroot : t.roots.find? .mutation = some root) (s : Settings) {ms : List Mutation} {m : Mutation}
    (hm : m ∈ t.taken ms) (hnew : m.name ∉ root.fieldNames) :
    (ms.foldl (Types.offer s) t).mutationFields.filter (fun f => f.name.text = m.name) =
      [m.field s] := by
  have hold : root.fields.filter (fun f => f.name.text = m.name) = [] := by
    rw [List.filter_eq_nil_iff]
    intro f hf hname
    exact hnew (List.mem_map.2 ⟨f, hf, by simpa using hname⟩)
  have hone : (t.taken ms).filter (fun m' => m'.name = m.name) = [m] :=
    Mutation.filter_name_eq (t.nodup_taken ms) hm
  rw [Types.mutationFields_eq, Types.mutationFields_of_some hroot, List.filter_append, hold,
    List.nil_append, List.filter_map]
  exact congrArg (List.map fun m => m.field s) hone

/-- Where there is a mutation root, each relationship that is found and let through has both its
mutations, as far as their names are free, and each of them once. They lead along the first
relationship with these names that is let through, which may be another one. -/
theorem mutations_of_found (hparse : Document.parse text = .ok d) {s : Settings}
    {found : List Relationship} (hfound : collect (sorted d).defined = .ok found)
    {root : ObjectType} (hroot : (sorted d).roots.find? .mutation = some root)
    {r : Relationship} (hr : r ∈ found) (happlies : s.mutates r = .ok true) :
    ∃ types added first, (augmentedTypes d (.ok s)).result = .ok types ∧
      types.mutationFields = root.fields ++ added ∧
      (found.find? fun q => s.letsThrough q ∧
        q.typeName ++ Text.capitalized q.fieldName =
          r.typeName ++ Text.capitalized r.fieldName) = some first ∧
      ∀ a : Action, a.label ++ r.typeName ++ Text.capitalized r.fieldName ∉ root.fieldNames →
        ∃ f ∈ added, f.name.text = a.label ++ r.typeName ++ Text.capitalized r.fieldName ∧
          types.mutationFields.filter (fun f' => f'.name.text = f.name.text) = [f] ∧
          ∃ p ps, f.directives = p :: ps ∧ Annotation.ofDirective p =
            .ok (some (.mutationMeta
              ⟨⟨first.name, .text first.fromType, .text first.toType⟩⟩)) := by
  obtain ⟨first, hfirst, hsubject⟩ := exists_first hr happlies
  have hfields := Types.mutationFields_eq s (sorted d) (s.offers found)
  rw [Types.mutationFields_of_some hroot] at hfields
  refine ⟨_, _, first, augmentedTypes_of_applies hparse hfound happlies, hfields, hfirst, ?_⟩
  intro a hnew
  have hname : Mutation.name ⟨first, a⟩ = a.label ++ r.subject := by
    rw [Mutation.name_eq, hsubject]
  rw [String.append_assoc] at hnew ⊢
  change a.label ++ r.subject ∉ _ at hnew
  have hoffer : ((s.offers found).find? fun m => m.name = Mutation.name ⟨first, a⟩) =
      some ⟨first, a⟩ := by
    rw [hname, s.find?_offers, hfirst]
    rfl
  have hnew : Mutation.name ⟨first, a⟩ ∉ root.fieldNames := hname ▸ hnew
  have hmem : ⟨first, a⟩ ∈ (sorted d).taken (s.offers found) := mem_taken_of_first hroot hoffer hnew
  exact ⟨_, List.mem_map_of_mem hmem, hname, filter_mutationFields hroot s hmem hnew, _, _, rfl,
    ofDirective_purpose _⟩

/-- The field `bC` of `A` and the field `c` of `AB` have the same names for their mutations. -/
def sharedNames : String :=
  let block (fields : String) : String := " \x7b " ++ fields ++ " \x7d "
  "type A" ++ block "bC: B @relation(name: \"FIRST\")" ++
  "type AB" ++ block "c: B @relation(name: \"SECOND\")" ++
  "type B" ++ block "x: Int" ++
  "type Mutation" ++ block "noop: Boolean"

/-- The second relationship finds both mutations, which lead along the first one. -/
theorem mutations_of_found_shared_names :
    ∃ d found root r types added, ∃ first : Relationship,
    Document.parse sharedNames = .ok d ∧ collect (sorted d).defined = .ok found ∧
    (sorted d).roots.find? .mutation = some root ∧ r ∈ found ∧
    Settings.mutates {} r = .ok true ∧ r.name = .text "SECOND" ∧
    (augmentedTypes d (.ok {})).result = .ok types ∧
    types.mutationFields = root.fields ++ added ∧ first.name = .text "FIRST" ∧
    ∀ a : Action, ∃ f ∈ added, f.name.text = a.label ++ "ABC" ∧
      ∃ p ps, f.directives = p :: ps ∧ Annotation.ofDirective p =
        .ok (some (.mutationMeta ⟨⟨first.name, .text first.fromType, .text first.toType⟩⟩)) := by
  have hinput : ∃ d, Document.parse sharedNames = .ok d ∧
      (sorted d).mutationFields.map (fun f => f.name.text) = ["noop"] ∧
      (sorted d).roots.contains .mutation ∧
      ∃ found, collect (sorted d).defined = .ok found ∧
      ∃ r ∈ found, Settings.mutates {} r = .ok true ∧ r.name = .text "SECOND" ∧
        r.typeName = "AB" ∧ Text.capitalized r.fieldName = "C" ∧
        (found.find? fun q => Settings.letsThrough {} q ∧
          q.typeName ++ Text.capitalized q.fieldName =
            r.typeName ++ Text.capitalized r.fieldName).map Relationship.name =
          some (.text "FIRST") := by
    decide +kernel
  obtain ⟨d, hparse, hfields, hcontains, found, hfound, r, hr, happlies, hname, htype, hfield,
    hfirst⟩ := hinput
  obtain ⟨root, hroot⟩ := Option.isSome_iff_exists.1 hcontains
  rw [Types.mutationFields_of_some hroot] at hfields
  obtain ⟨types, added, first, htypes, hadded, hfind, hboth⟩ :=
    mutations_of_found hparse hfound hroot hr happlies
  rw [hfind] at hfirst
  rw [htype, hfield] at hboth
  refine ⟨d, found, root, r, types, added, first, hparse, hfound, hroot, hr, happlies, hname,
    htypes, hadded, Option.some.inj hfirst, fun a => ?_⟩
  have hnew : a.label ++ "AB" ++ "C" ∉ root.fieldNames := by
    rw [ObjectType.fieldNames, hfields]
    cases a <;> decide
  obtain ⟨f, hf, hfname, -, hpurpose⟩ := hboth a hnew
  exact ⟨f, hf, hfname.trans (by rw [String.append_assoc]; rfl), hpurpose⟩

/-- No field of the mutation root says that it is for the relationship. -/
def Types.Lacks (types : Types) (r : Relationship) : Prop :=
  ∀ f ∈ types.mutationFields, ∀ p ∈ f.directives, Annotation.ofDirective p ≠
    .ok (some (.mutationMeta ⟨⟨r.name, .text r.fromType, .text r.toType⟩⟩))

instance (types : Types) (r : Relationship) : Decidable (types.Lacks r) :=
  inferInstanceAs (Decidable (∀ f ∈ types.mutationFields, ∀ p ∈ f.directives,
    Annotation.ofDirective p ≠
      .ok (some (.mutationMeta ⟨⟨r.name, .text r.fromType, .text r.toType⟩⟩))))

/-- Though all types have different names, and so have the fields of each type, the second
relationship has no mutation at all, and its names were free. -/
theorem mutations_lost :
    ∃ d, Document.parse sharedNames = .ok d ∧ DistinctNames d ∧
      (∀ definition ∈ d.definitions, ∀ fs ∈ definition.fields?,
        (fs.map fun f => f.name.text).Nodup) ∧
      (sorted d).roots.contains .mutation ∧
      ∃ found, collect (sorted d).defined = .ok found ∧
      ∃ types, (augmentedTypes d (.ok {})).result = .ok types ∧
      ∃ r ∈ found, Settings.mutates {} r = .ok true ∧
        (∀ a ∈ Action.all, ∀ f ∈ (sorted d).mutationFields,
          f.name.text ≠ a.label ++ r.typeName ++ Text.capitalized r.fieldName) ∧
        types.Lacks r := by
  decide +kernel

end Schema

end RelationApi

import RelationApi.Proofs.Mutation.Coherence
import RelationApi.Proofs.Schema.Rebuilding

/-!
# Running twice

The second run sees the payload types of the first as types of the document, and as relationship
types at that : they are bound to a relationship and have fields for both ends. Still it finds the
same relationships (`Relationship.collect_append`), since each payload is a well-formed relationship
type and no field leads to it. Each mutation is then offered to a root that has a field of its name
(`Schema.Types.foldl_offer_of_mem`), so nothing is added, and the document stays as it is.
-/

namespace RelationApi

open Sdl

/-! ## What was generated -/

namespace Mutation

variable (m : Mutation)

/-- The types that go with a mutation are kept under their names, which start with an underscore,
and the only object type among them is the payload. -/
theorem of_mem_generated {e : String × Definition} (he : e ∈ m.generated) :
    ∃ t : TypeDef, e = (t.name, .typeDef t) ∧ (∃ n, t.name = "_" ++ n) ∧
      ∀ o, t = .object o → o = m.payload := by
  rw [m.generated_eq, List.mem_append, List.mem_singleton] at he
  rcases he with he | rfl
  · obtain ⟨i, hi, rfl⟩ := List.mem_map.1 he
    refine ⟨.input i, rfl, ⟨m.relationship.outputType ++ "Input", ?_⟩, nofun⟩
    rw [← String.append_assoc]
    exact m.name_of_mem_inputs hi
  · refine ⟨.object m.payload, rfl, ⟨m.name ++ "Payload", ?_⟩, fun o ho => ?_⟩
    · rw [← String.append_assoc]
      rfl
    · exact (TypeDef.object.inj ho).symm

/-- A payload is a relationship type between the ends of the relationship, if this has a name. -/
theorem of?_payload (h : m.relationship.name.isGiven) : RelationshipType.of? m.payload =
    .ok (some ⟨m.payload, m.relationship.name, m.relationship.fromType,
      m.relationship.toType⟩) := by
  have hfrom : RelationshipType.endpoint m.payload fromField = .ok m.relationship.fromType := rfl
  have hto : RelationshipType.endpoint m.payload toField = .ok m.relationship.toType := rfl
  exact RelationshipType.of?_eq_some_iff.2 ⟨_, rfl, h, _, hfrom, _, hto, rfl⟩

end Mutation

theorem Sdl.OperationKind.append_ne_rootName (k : OperationKind) (n : String) :
    "_" ++ n ≠ k.rootName := by
  intro h
  have hhead := congrArg (fun n : String => n.toList.head?) h
  cases k <;> simp [OperationKind.rootName] at hhead

namespace Schema

namespace Types

/-- What was generated goes with one of the mutations that were offered. -/
theorem exists_of_mem_generated {s : Settings} {ms : List Mutation} {d : Document}
    {e : String × Definition} (he : e ∈ (ms.foldl (offer s) (sorted d)).generated.entries) :
    ∃ m ∈ ms, e ∈ m.generated := by
  rw [Registry.mem_entries_iff, generated_foldl_offer] at he
  have hmem := Registry.mem_of_find?_ofList he
  obtain ⟨m, hm, he⟩ := List.mem_flatMap.1 hmem
  exact ⟨m, mem_of_mem_taken hm, he⟩

/-- Offers extend the types of a document, if it mentions nothing that is generated. -/
theorem extends_foldl_offer {s : Settings} {ms : List Mutation} {d : Document}
    (hnew : ∀ n ∈ (ms.foldl (offer s) (sorted d)).generated.keys, n ∉ d.typeNames) :
    (ms.foldl (offer s) (sorted d)).Extends d := by
  obtain ⟨hdefined, -, hothers⟩ := foldl_offer_frame s (sorted d) ms
  have hname : ∀ t ∈ (ms.foldl (offer s) (sorted d)).added,
      t.name ∈ (ms.foldl (offer s) (sorted d)).generated.keys ∧ ∃ n, t.name = "_" ++ n := by
    intro t ht
    obtain ⟨n, ht⟩ := mem_added_iff.1 ht
    obtain ⟨m, -, hm⟩ := exists_of_mem_generated ht
    obtain ⟨u, hu, hname, -⟩ := m.of_mem_generated hm
    cases hu
    exact ⟨List.mem_map_of_mem ht, hname⟩
  refine ⟨hdefined, fun k => ?_, ?_, fun t ht => hnew _ (hname t ht).1, fun t ht k => ?_⟩
  · by_cases hk : k = .mutation
    · subst hk
      rw [find?_roots_foldl_offer, Option.map_map]
      rfl
    · rw [hothers k hk]
  · rw [added, Registry.values, List.filterMap_map, List.map_filterMap]
    refine ((List.filterMap_congr fun e he => ?_).trans List.filterMap_some).symm
    obtain ⟨m, -, hm⟩ := exists_of_mem_generated he
    obtain ⟨t, rfl, -⟩ := m.of_mem_generated hm
    rfl
  · obtain ⟨n, hn⟩ := (hname t ht).2
    rw [hn]
    exact k.append_ne_rootName n

/-- If the relationships have names, the object types that were generated are relationship types. -/
theorem exists_of?_of_mem_added {s : Settings} {ms : List Mutation} {d : Document}
    (hms : ∀ m ∈ ms, m.relationship.name.isGiven) {t : ObjectType}
    (ht : .object t ∈ (ms.foldl (offer s) (sorted d)).added) :
    ∃ r, RelationshipType.of? t = .ok (some r) := by
  obtain ⟨n, hn⟩ := mem_added_iff.1 ht
  obtain ⟨m, hm, hmt⟩ := exists_of_mem_generated hn
  obtain ⟨u, hu, -, hpayload⟩ := m.of_mem_generated hmt
  cases hu
  rw [hpayload t rfl]
  exact ⟨_, m.of?_payload (hms m hm)⟩

end Types

/-! ## The second run -/

/-- The names that count for the relationships on a type are mentioned in the document. -/
theorem namesOf_subset_typeNames {d : Document} {n : String} {u : TypeDef}
    (hu : (sorted d).defined.find? n = some u) : Relationship.namesOf u ⊆ d.typeNames := by
  obtain ⟨t, ht, rfl, ⟨o, rfl, -, rfl⟩ | ⟨hnone, rfl⟩⟩ := mem_of_find?_defined hu
  · intro n hn
    rcases List.mem_cons.1 hn with rfl | hn
    · rw [name_extended]
      exact Document.mem_typeNames ht List.mem_cons_self
    · obtain ⟨f, hf, rfl⟩ := List.mem_map.1 hn
      have hmention : ∀ t : ObjectType, f ∈ t.fields →
          f.type.typeName ∈ (TypeDef.object t).typeNames := fun t hf =>
        List.mem_cons_of_mem _ (List.mem_flatMap.2 ⟨f, hf, List.mem_cons_self⟩)
      rw [extended_eq, List.mem_append, List.mem_flatMap] at hf
      rcases hf with hf | ⟨e, he, hf⟩
      · exact Document.mem_typeNames ht (hmention o hf)
      · exact Document.mem_typeNames (mem_extensionsOf_iff.1 he).1 (hmention e hf)
  · intro n hn
    have hname : n = u.name := by
      cases u with
      | object o => cases hnone
      | _ => exact List.mem_singleton.1 hn
    exact Document.mem_typeNames ht (hname ▸ u.name_mem_typeNames)

/-- The second run finds the same relationships, if the generated object types are relationship
types. -/
theorem collect_rebuild {d : Document} {types : Types} (h : types.Extends d)
    (hbound : ∀ t, .object t ∈ types.added → ∃ r, RelationshipType.of? t = .ok (some r)) :
    Relationship.collect (sorted (rebuild d types)).defined =
      Relationship.collect (sorted d).defined := by
  have hnew : ∀ t ∈ types.defined.values, ∀ n ∈ types.added.map TypeDef.name,
      n ∉ Relationship.namesOf t := by
    intro t ht n hn hnt
    obtain ⟨u, hu, rfl⟩ := List.mem_map.1 hn
    obtain ⟨e, he, rfl⟩ := List.mem_map.1 ht
    rw [h.defined] at he
    exact h.new u hu (namesOf_subset_typeNames (Registry.mem_entries_iff.1 he) hnt)
  rw [Relationship.collect_append h.entries_defined_rebuild hnew hbound, h.defined]

/-- If a run succeeds, and generates no type that the document mentions anywhere, then another run
with the same settings on its result succeeds as well, and changes nothing. -/
theorem augment_idempotent {d d' : Document} {resolved : Except SettingsFault Settings}
    (h : (augment d resolved).result = .ok d')
    (hnew : ∀ types, (augmentedTypes d resolved).result = .ok types →
      ∀ n ∈ types.generated.keys, n ∉ d.typeNames) :
    (augment d' resolved).result = .ok d' := by
  obtain ⟨types, htypes, rfl⟩ := augment_eq_ok_iff.1 h
  have hnew' := hnew types htypes
  obtain ⟨s, found, hs, hfound, hadd, rfl⟩ := augmentedTypes_eq_ok_iff.1 htypes
  have hextends := Types.extends_foldl_offer hnew'
  have hnames : ∀ m ∈ s.offers found, m.relationship.name.isGiven := fun m hm =>
    Relationship.isGiven_of_mem_collect hfound (s.relationship_mem_of_mem_offers hm)
  have hfound' := collect_rebuild hextends fun t ht => Types.exists_of?_of_mem_added hnames ht
  rw [hfound] at hfound'
  refine augment_eq_ok_iff.2 ⟨_, augmentedTypes_eq_ok_iff.2
    ⟨s, found, hs, hfound', fun hroot => hadd ?_, ?_⟩, hextends.rebuild_rebuild.symm⟩
  · rwa [hextends.find?_roots_rebuild, Types.isSome_roots_foldl_offer] at hroot
  · -- Each name that is offered again is the name of a field that is there by now.
    refine (Types.foldl_offer_of_mem s _ fun root hroot => ?_).symm
    rw [hextends.find?_roots_rebuild] at hroot
    exact Types.name_mem_fieldNames_foldl_offer s _ _ hroot

/-- A relationship type with a property, an extension before its type, and a mutation root of
another name that has one of the fields already : the first run adds the other field, its payload
and the input type, and the second run nothing. -/
theorem augment_idempotent_relationship_type :
    let field (name type : String) : Field := { name := { text := name }, type := .ofName type }
    let d : Document := ⟨[
      .typeExtension (.object {
        name := { text := "Person" }, fields := [field "knows" "Knows"] }),
      .schema { roots := [(.mutation, { text := "Change" })] },
      .typeDef (.object { name := { text := "Person" }, fields := [field "name" "String"] }),
      .typeDef (.object {
        name := { text := "Knows" }
        directives := [(Binding.mk ⟨.text "KNOWS", .missing, .missing⟩ .missing).toDirective]
        fields := [field "from" "Person", field "to" "Person", field "since" "Int"] }),
      .typeDef (.object {
        name := { text := "Change" }, fields := [field "RemovePersonKnows" "Int"] })]⟩
    ∃ d', (augment d (.ok {})).result = .ok d' ∧
      (∀ types, (augmentedTypes d (.ok {})).result = .ok types →
        ∀ n ∈ types.generated.keys, n ∉ d.typeNames) ∧
      d'.definitions.filterMap Definition.name? =
        ["Person", "Knows", "Change", "_KnowsInput", "_AddPersonKnowsPayload"] ∧
      (augment d' (.ok {})).result = .ok d' := by
  intro field d
  have hkeys : (augmentedTypes d (.ok {})).result.toOption.map (fun types => types.generated.keys) =
      some ["_KnowsInput", "_AddPersonKnowsPayload"] := by
    decide
  have hnew : ∀ types, (augmentedTypes d (.ok {})).result = .ok types →
      ∀ n ∈ types.generated.keys, n ∉ d.typeNames := by
    intro types htypes
    rw [htypes] at hkeys
    have htypes' : types.generated.keys = ["_KnowsInput", "_AddPersonKnowsPayload"] :=
      Option.some.inj hkeys
    rw [htypes']
    decide
  have hnames : (augment d (.ok {})).result.toOption.map
      (fun d' => d'.definitions.filterMap Definition.name?) =
        some ["Person", "Knows", "Change", "_KnowsInput", "_AddPersonKnowsPayload"] := by
    decide
  cases h : (augment d (.ok {})).result with
  | error e =>
    rw [h] at hnames
    cases hnames
  | ok d' =>
    rw [h] at hnames
    exact ⟨d', rfl, hnew, Option.some.inj hnames, augment_idempotent h hnew⟩

end Schema

end RelationApi

import RelationApi.Proofs.Schema.PropertyInputs

/-!
# The fields of generated input types

An input type is made from the properties of a relationship type that can be set, with their types
as they are. Whether a mutation asks for it depends on all properties, computed ones included, and
nothing looks at what a property's type is. So an input type has a field as soon as some property
can be set, and names an object type only where such a property does (`fields_of_generated_input`).
Both can happen (`input_types_not_closed`) : a type without a field that can be set, and one with a
field of an object type.
-/

namespace RelationApi.Schema

open Sdl Relationship

variable {d : Document} {resolved : Except SettingsFault Settings}

/-- A generated input type goes with a mutation that is taken, which asks for it, and its fields are
the properties that can be set of a relationship type. -/
theorem exists_of_generated_input {s : Settings} {found : List Relationship}
    (hfound : collect (sorted d).defined = .ok found) {n : String} {i : InputType}
    (hi : ((s.offers found).foldl (Types.offer s) (sorted d)).generated.find? n =
      some (.typeDef (.input i))) :
    ∃ m ∈ (sorted d).taken (s.offers found), (m.field s).arguments[2]? = some {
        name := { text := "data" }
        type := .nonNull (.named { text := n }) none } ∧
      ∃ g o, Carries (sorted d).defined g o ∧ n = "_" ++ o.name.text ++ "Input" ∧
        i.fields = o.settable := by
  have hfits := fitsOffers_sorted hfound s
  have hdefined := (Types.foldl_offer_frame s (sorted d) (s.offers found)).1
  rw [Types.generated_foldl_offer] at hi
  obtain ⟨⟨r, a⟩, hm, he⟩ := List.mem_flatMap.1 (Registry.mem_of_find?_ofList hi)
  obtain ⟨-, t, g, hg⟩ := exists_site_of_taken hfound hm
  rw [Mutation.generated_eq, List.mem_append] at he
  rcases he with he | he
  · obtain ⟨i', hi', he⟩ := List.mem_map.1 he
    obtain ⟨rfl, -⟩ := Prod.mk.inj he
    obtain ⟨ha, o, hc, hname⟩ := carries_of_mem_inputs hi' hg.leads
    obtain rfl : a = .create := ha
    have hsets := setsProperties_of_taken (s := s) hfits hm hg.leads
    have hc' : Carries ((s.offers found).foldl (Types.offer s) (sorted d)).defined g o := by
      rwa [hdefined]
    have hinput := hsets.input o hc'
    have hname : i'.name.text = "_" ++ o.name.text ++ "Input" := hname
    rw [Types.generated_foldl_offer, ← hname] at hinput
    have hii := Option.some.inj (hi.symm.trans hinput)
    cases hii
    exact ⟨_, hm, by rw [hsets.data o hc', hname], g, o, hc, hname, rfl⟩
  · simp at he

/-- The properties that can be set are those that are not computed. -/
theorem mem_settable_iff {o : ObjectType} {v : InputValue} : v ∈ o.settable ↔
    ∃ p ∈ o.properties, isComputed p.directives = false ∧
      v = { name := { text := p.name.text }, type := p.type } := by
  unfold ObjectType.settable
  constructor
  · intro hv
    obtain ⟨p, hp, rfl⟩ := List.mem_map.1 hv
    obtain ⟨hp, hcomputed⟩ := List.mem_filter.1 hp
    exact ⟨p, hp, by simpa using hcomputed, rfl⟩
  · rintro ⟨p, hp, hcomputed, rfl⟩
    exact List.mem_map_of_mem (List.mem_filter.2 ⟨hp, by simp [hcomputed]⟩)

/-- After a run each generated input type is the type of the required argument for properties of an
added field. It is made from a relationship type : it has a field if some property of that type is
not computed, and no field of it names an object type of the document unless such a property
does. -/
theorem fields_of_generated_input {types : Types}
    (h : (augmentedTypes d resolved).result = .ok types) : ∃ added,
      types.mutationFields = (sorted d).mutationFields ++ added ∧
      ∀ n i, types.generated.find? n = some (.typeDef (.input i)) →
        (∃ f ∈ added, f.arguments[2]? = some {
          name := { text := "data" }
          type := .nonNull (.named { text := n }) none }) ∧
        ∃ o, types.defined.find? o.name.text = some (.object o) ∧ o.IsBound ∧
          n = "_" ++ o.name.text ++ "Input" ∧
          ((∃ p ∈ o.properties, isComputed p.directives = false) → i.fields ≠ []) ∧
          ((∀ p ∈ o.properties, isComputed p.directives = false →
              p.type.typeName ∉ definedObjects d) →
            ∀ v ∈ i.fields, v.type.typeName ∉ definedObjects d) := by
  obtain ⟨s, found, -, hfound, -, rfl⟩ := augmentedTypes_eq_ok_iff.1 h
  have hdefined := (Types.foldl_offer_frame s (sorted d) (s.offers found)).1
  refine ⟨_, Types.mutationFields_eq s _ _, fun n i hi => ?_⟩
  obtain ⟨m, hm, hdata, g, o, hc, hn, hfields⟩ := exists_of_generated_input hfound hi
  refine ⟨⟨_, List.mem_map_of_mem hm, hdata⟩, o, ?_, hc.bound, hn, ?_, ?_⟩
  · rw [hdefined, hc.name_eq (keptByName_defined d)]
    exact hc.type
  · rintro ⟨p, hp, hcomputed⟩
    rw [hfields]
    exact List.ne_nil_of_mem (mem_settable_iff.2 ⟨p, hp, hcomputed, rfl⟩)
  · intro hproperties v hv
    rw [hfields] at hv
    obtain ⟨p, hp, hcomputed, rfl⟩ := mem_settable_iff.1 hv
    exact hproperties p hp hcomputed

/-- A relationship type with a computed property of an object type next to one that can be set : the
input type has a field, and names no object type. -/
theorem fields_of_generated_input_computed_object :
    let field (name type : String) (ds : List Directive) : Field :=
      { name := { text := name }, type := .ofName type, directives := ds }
    let knows : ObjectType := {
      name := { text := "Knows" }
      directives := [(Binding.mk ⟨.text "KNOWS", .missing, .missing⟩ .missing).toDirective]
      fields := endpointFields "Person" "Person" ++
        [field "via" "Person" [{ name := { text := "cypher" } }], field "since" "Int" []] }
    let d : Document := ⟨[
      .typeDef (.object {
        name := { text := "Person" }, fields := [field "friends" "Knows" []] }),
      .typeDef (.object knows), .typeDef (.object { name := { text := "Mutation" } })]⟩
    ∃ types, (augmentedTypes d (.ok {})).result = .ok types ∧
      ∃ i, types.generated.find? "_KnowsInput" = some (.typeDef (.input i)) ∧ i.fields ≠ [] ∧
        ∀ v ∈ i.fields, v.type.typeName ∉ definedObjects d := by
  intro field knows d
  have hrun : ∃ types, (augmentedTypes d (.ok {})).result = .ok types ∧
      (types.generated.find? "_KnowsInput").bind Definition.type? = some (.input {
        name := { text := "_KnowsInput" }
        fields := [{ name := { text := "since" }, type := .ofName "Int" }] }) ∧
      (types.defined.find? "Knows").bind TypeDef.object? = some knows := by decide
  obtain ⟨types, htypes, hinput, hknows⟩ := hrun
  obtain ⟨definition, hfind, htype⟩ := Option.bind_eq_some_iff.1 hinput
  rw [(Definition.type?_eq_some_iff _ _).1 htype] at hfind
  obtain ⟨added, -, hall⟩ := fields_of_generated_input htypes
  obtain ⟨-, o, ho, -, hn, hnonempty, hclosed⟩ := hall _ _ hfind
  have hname : o.name.text = "Knows" :=
    inputTypeName_injective (hn.symm : inputTypeName o.name.text = inputTypeName "Knows")
  rw [hname] at ho
  rw [ho] at hknows
  obtain rfl : o = knows := Option.some.inj hknows
  exact ⟨types, htypes, _, hfind, hnonempty (by decide), hclosed (by decide)⟩

instance decidableExistsInput {x : Option Definition} {p : InputType → Prop} [DecidablePred p] :
    Decidable (∃ i, x = some (.typeDef (.input i)) ∧ p i) :=
  match x with
  | some (.typeDef (.input i)) => decidable_of_iff (p i) (by simp)
  | some (.typeDef (.scalar _)) | some (.typeDef (.object _)) | some (.typeDef (.interface _))
  | some (.typeDef (.union _)) | some (.typeDef (.enum _)) | some (.operation _)
  | some (.fragment _) | some (.schema _) | some (.schemaExtension _) | some (.typeExtension _)
  | some (.directiveDef _) | some (.directiveExtension _ _) | none => isFalse nofun

/-- The input type of a relationship type whose only property is computed has no fields, and that of
one with a property of an object type has a field of this type. -/
theorem input_types_not_closed :
    let block (fields : String) : String := " \x7b " ++ fields ++ " \x7d "
    let schema (property : String) : String :=
      "type Person" ++ block "knows: Knows" ++
      "type Knows @relation(name: \"KNOWS\")" ++ block ("from: Person to: Person " ++ property) ++
      "type Mutation" ++ block "noop: Boolean"
    (∃ d, Document.parse (schema "score: Float @cypher") = .ok d ∧
      ∃ types, (augmentedTypes d (.ok {})).result = .ok types ∧
      ∃ i, types.generated.find? "_KnowsInput" = some (.typeDef (.input i)) ∧ i.fields = []) ∧
    ∃ d, Document.parse (schema "via: Person") = .ok d ∧
      ∃ types, (augmentedTypes d (.ok {})).result = .ok types ∧
      ∃ i, types.generated.find? "_KnowsInput" = some (.typeDef (.input i)) ∧
        ∃ v ∈ i.fields, v.type.typeName ∈ definedObjects d := by
  decide +kernel

end RelationApi.Schema

import RelationApi.Proofs.Schema.Permanence

/-!
# The properties that a mutation sets

Whether an added mutation has an argument for properties depends on the outputs of its relationship,
and the type of the argument is made from the inputs. Both come from the same fields : those of the
relationship type that the field of the site leads to (`Carries`). And the input type that is there
in the end is the one of each of these mutations, since none of them replaces it by another.
-/

namespace RelationApi

open Sdl

namespace Sdl.ObjectType

/-- The properties that can be set : those that are not computed, with the name and the type of each
and nothing else. -/
def settable (o : ObjectType) : List InputValue :=
  (o.properties.filter fun f => !isComputed f.directives).map fun f =>
    { name := { text := f.name.text }, type := f.type }

end Sdl.ObjectType

/-- The type of the field `g` is the relationship type `o`, which has properties. -/
structure Carries (types : Registry String TypeDef) (g : Field) (o : ObjectType) : Prop where
  type : types.find? g.type.typeName = some (.object o)
  bound : o.IsBound
  properties : o.properties ≠ []

theorem Carries.name_eq {types : Registry String TypeDef} (hnames : KeptByName types) {g : Field}
    {o : ObjectType} (h : Carries types g o) : o.name.text = g.type.typeName :=
  hnames _ _ h.type

namespace Relationship

theorem inputType?_eq_some_iff {r : Relationship} {i : InputType} :
    r.inputType? = some i ↔ r.inputs ≠ [] ∧ i = {
      name := { text := inputTypeName r.outputType }
      fields := (r.inputs.filter fun v => !isComputed v.directives).map fun v =>
        { name := { text := v.name.text }, type := v.type } } := by
  unfold inputType?
  cases r.inputs with
  | nil => simp
  | cons v vs => simpa using eq_comm

/-- Inputs that are made from the properties of a type can be set as far as these can. -/
theorem settable_eq (o : ObjectType) :
    (((o.properties.map Field.toInputValue).filter fun v => !isComputed v.directives).map fun v =>
      ({ name := { text := v.name.text }, type := v.type } : InputValue)) = o.settable := by
  rw [List.filter_map, List.map_map]
  rfl

section Leads

variable {types : Registry String TypeDef} {t o : ObjectType} {g : Field} {r : Relationship}

theorem Leads.outputs_of_carries (h : Leads types t g r) (hc : Carries types g o) :
    r.outputs = o.properties :=
  (h.outputs_eq hc.type).1 hc.bound

/-- A relationship has properties exactly if its site leads to a type that has some. -/
theorem Leads.outputs_ne_nil_iff (h : Leads types t g r) :
    r.outputs ≠ [] ↔ ∃ o, Carries types g o := by
  constructor
  · intro hne
    obtain ⟨o, ho⟩ := h.exists_object
    obtain ⟨hbound, hnot⟩ := h.outputs_eq ho
    have hb : o.IsBound := by
      by_contra hb
      exact hne (hnot hb)
    exact ⟨o, ho, hb, hbound hb ▸ hne⟩
  · rintro ⟨o, hc⟩
    rw [h.outputs_of_carries hc]
    exact hc.properties

end Leads

/-- The third argument of a mutation that creates, if there is one. -/
theorem arguments_create (r : Relationship) : (r.arguments .create)[2]? =
    if r.outputs = [] then none else some (requiredInput dataArgument r.outputType) := by
  cases h : r.outputs <;> simp [arguments, h]

/-- A mutation that deletes has no argument for properties. -/
theorem name_ne_of_mem_arguments_delete {r : Relationship} {v : InputValue}
    (hv : v ∈ r.arguments .delete) : v.name.text ≠ dataArgument := by
  have hv : v = requiredInput fromField r.fromType ∨ v = requiredInput toField r.toType := by
    simpa [arguments] using hv
  rcases hv with rfl | rfl <;> simp [requiredInput, fromField, toField, dataArgument]

end Relationship

namespace Schema

/-- How the properties of the relationship type behind `g` are set by the mutation field `f` that
creates : there is a third argument for them exactly if there are properties, and its type is an
input type that has been generated from those that can be set. -/
structure SetsProperties (types : Types) (g f : Field) : Prop where
  data_iff : (∃ v, f.arguments[2]? = some v ∧ v.name.text = "data") ↔
    ∃ o, Carries types.defined g o
  data : ∀ o, Carries types.defined g o → f.arguments[2]? = some {
    name := { text := "data" }
    type := .nonNull (.named { text := "_" ++ o.name.text ++ "Input" }) none }
  input : ∀ o, Carries types.defined g o →
    types.generated.find? ("_" ++ o.name.text ++ "Input") = some (.typeDef (.input {
      name := { text := "_" ++ o.name.text ++ "Input" }
      fields := o.settable }))

open Relationship

variable {d : Document} {resolved : Except SettingsFault Settings}

/-- A mutation that creates is found with the input type of its properties. -/
theorem mem_generated_of_carries {t o : ObjectType} {g : Field} {r : Relationship}
    (h : Leads (sorted d).defined t g r) (hc : Carries (sorted d).defined g o) :
    (inputTypeName o.name.text, Definition.typeDef (.input {
      name := { text := inputTypeName o.name.text }
      fields := o.settable })) ∈ Mutation.generated ⟨r, .create⟩ := by
  have hout : r.outputType = o.name.text := by
    rw [h.outputType_eq (keptByName_defined d), hc.name_eq (keptByName_defined d)]
  have hinputs : r.inputs = o.properties.map Field.toInputValue := by
    rw [h.inputs_eq, h.outputs_of_carries hc]
  have hinput : r.inputType? = some {
      name := { text := inputTypeName o.name.text }
      fields := o.settable } := by
    rw [inputType?_eq_some_iff, hinputs, settable_eq, hout]
    exact ⟨by simpa using hc.properties, rfl⟩
  rw [Mutation.generated_eq, Mutation.inputs, hinput]
  simp

/-- The properties are set by each mutation that creates and is taken. -/
theorem setsProperties_of_taken {s : Settings} {ms : List Mutation}
    (hfits : (sorted d).FitsOffers ms) {r : Relationship}
    (hm : ⟨r, .create⟩ ∈ (sorted d).taken ms) {t : ObjectType} {g : Field}
    (h : Leads (sorted d).defined t g r) :
    SetsProperties (ms.foldl (Types.offer s) (sorted d)) g (Mutation.field ⟨r, .create⟩ s) := by
  have hdefined := (Types.foldl_offer_frame s (sorted d) ms).1
  have hthird : (Mutation.field ⟨r, .create⟩ s).arguments[2]? =
      if r.outputs = [] then none else some (requiredInput dataArgument r.outputType) :=
    r.arguments_create
  refine ⟨?_, fun o hc => ?_, fun o hc => ?_⟩
  · rw [hdefined, ← h.outputs_ne_nil_iff, hthird]
    by_cases hout : r.outputs = []
    · simp [hout]
    · simp [hout, requiredInput, dataArgument]
  · rw [hdefined] at hc
    have hout : r.outputs ≠ [] := h.outputs_ne_nil_iff.2 ⟨o, hc⟩
    rw [hthird, if_neg hout, h.outputType_eq (keptByName_defined d),
      ← hc.name_eq (keptByName_defined d)]
    rfl
  · rw [hdefined] at hc
    exact hfits.find?_generated s hm (mem_generated_of_carries h hc)

/-- An input type goes with a mutation only if the mutation creates and has properties. -/
theorem carries_of_mem_inputs {m : Mutation} {i : InputType} (hi : i ∈ m.inputs) {t : ObjectType}
    {g : Field} (h : Leads (sorted d).defined t g m.relationship) :
    m.action = .create ∧ ∃ o, Carries (sorted d).defined g o ∧
      i.name.text = inputTypeName o.name.text := by
  have hname := m.name_of_mem_inputs hi
  unfold Mutation.inputs at hi
  split at hi
  · next ha =>
    obtain ⟨hinputs, -⟩ := inputType?_eq_some_iff.1 (Option.mem_toList.1 hi)
    have hout : m.relationship.outputs ≠ [] := by
      intro hnil
      rw [h.inputs_eq, hnil] at hinputs
      exact hinputs rfl
    obtain ⟨o, hc⟩ := h.outputs_ne_nil_iff.1 hout
    rw [h.outputType_eq (keptByName_defined d), ← hc.name_eq (keptByName_defined d)] at hname
    exact ⟨ha, o, hc, hname⟩
  · simp at hi

/-- A mutation that is taken is for a relationship that was found, and so has a site. -/
theorem exists_site_of_taken {s : Settings} {found : List Relationship}
    (hfound : collect (sorted d).defined = .ok found) {m : Mutation}
    (hm : m ∈ (sorted d).taken (s.offers found)) :
    m.relationship ∈ found ∧ ∃ t g, Site (sorted d).defined t g m.relationship := by
  have hr := s.relationship_mem_of_mem_offers (Types.mem_of_mem_taken hm)
  exact ⟨hr, exists_site_of_mem_collect (keptByName_defined d) hfound hr⟩

/-- The added fields of a run set the properties of the relationship types that their sites lead to.
There are no other input types among the generated ones, a mutation that deletes sets nothing, and
the relationship types are those of the document, with all their extensions. -/
theorem property_inputs {types : Types} (h : (augmentedTypes d resolved).result = .ok types) :
    ∃ s found added, resolved = .ok s ∧ collect types.defined = .ok found ∧
      types.defined = (sorted d).defined ∧
      types.mutationFields = (sorted d).mutationFields ++ added ∧
      (∀ f ∈ added, ∃ r a, r ∈ found ∧ f = Mutation.field ⟨r, a⟩ s ∧
        ((s.offers found).find? fun m => m.name = f.name.text) = some ⟨r, a⟩ ∧
        (∃ t g, Site types.defined t g r) ∧
        match a with
        | .create => ∀ t g, Site types.defined t g r → SetsProperties types g f
        | .delete => ∀ v ∈ f.arguments, v.name.text ≠ "data") ∧
      (∀ n i, types.generated.find? n = some (.typeDef (.input i)) →
        ∃ r, Mutation.field ⟨r, .create⟩ s ∈ added ∧
          ∃ t g o, Site types.defined t g r ∧ Carries types.defined g o ∧
            n = "_" ++ o.name.text ++ "Input") ∧
      ∀ g o, Carries types.defined g o →
        ∃ u, .typeDef (.object u) ∈ d.definitions ∧ o = extended d u := by
  obtain ⟨s, found, hs, hfound, -, rfl⟩ := augmentedTypes_eq_ok_iff.1 h
  have hdefined := (Types.foldl_offer_frame s (sorted d) (s.offers found)).1
  have hfits := fitsOffers_sorted hfound s
  refine ⟨s, found, _, hs, by rwa [hdefined], hdefined, Types.mutationFields_eq s _ _, ?_, ?_, ?_⟩
  · intro f hf
    obtain ⟨⟨r, a⟩, hm, rfl⟩ := List.mem_map.1 hf
    obtain ⟨hr, hsite⟩ := exists_site_of_taken hfound hm
    refine ⟨r, a, hr, rfl, Types.find?_of_mem_taken hm, by rwa [hdefined], ?_⟩
    cases a with
    | create =>
      intro t g hg
      rw [hdefined] at hg
      exact setsProperties_of_taken hfits hm hg.leads
    | delete => exact fun v hv => name_ne_of_mem_arguments_delete hv
  · intro n i hi
    rw [Types.generated_foldl_offer] at hi
    obtain ⟨m, hm, he⟩ := List.mem_flatMap.1 (Registry.mem_of_find?_ofList hi)
    obtain ⟨-, t, g, hg⟩ := exists_site_of_taken hfound hm
    rw [m.generated_eq, List.mem_append] at he
    rcases he with he | he
    · obtain ⟨i', hi', he⟩ := List.mem_map.1 he
      obtain ⟨rfl, -⟩ := Prod.mk.inj he
      obtain ⟨ha, o, hc, hname⟩ := carries_of_mem_inputs hi' hg.leads
      refine ⟨m.relationship, ?_, t, g, o, by rwa [hdefined], by rwa [hdefined], hname⟩
      rw [← ha]
      exact List.mem_map_of_mem hm
    · simp at he
  · intro g o hc
    rw [hdefined] at hc
    exact exists_extended_of_find?_defined hc.type

/-- A relationship type with a computed property, and one more in an extension, next to a
relationship without properties. -/
theorem property_inputs_extended_type :
    let field (name type : String) (ds : List Directive) : Field :=
      { name := { text := name }, type := .ofName type, directives := ds }
    let relation (name : String) : List Directive :=
      [(Binding.mk ⟨.text name, .missing, .missing⟩ .missing).toDirective]
    let knows : ObjectType := {
      name := { text := "Knows" }, directives := relation "KNOWS"
      fields := endpointFields "Person" "Person" ++
        [field "score" "Float" [{ name := { text := "cypher" } }]] }
    let more : ObjectType := { name := { text := "Knows" }, fields := [field "since" "Int" []] }
    let d : Document := ⟨[
      .typeDef (.object {
        name := { text := "Person" }
        fields := [field "friends" "Knows" [], field "boss" "Person" (relation "BOSS")] }),
      .typeExtension (.object more), .typeDef (.object knows),
      .typeDef (.object { name := { text := "Mutation" } })]⟩
    ∃ types, (augmentedTypes d (.ok {})).result = .ok types ∧
      types.mutationFields.map (fun f => (f.name.text, f.arguments.map fun v => v.name.text)) =
        [("AddPersonFriends", ["from", "to", "data"]), ("RemovePersonFriends", ["from", "to"]),
          ("AddPersonBoss", ["from", "to"]), ("RemovePersonBoss", ["from", "to"])] ∧
      (types.generated.find? "_KnowsInput").bind Definition.type? = some (.input {
        name := { text := "_KnowsInput" }
        fields := [{ name := { text := "since" }, type := .ofName "Int" }] }) ∧
      ∀ n i, types.generated.find? n = some (.typeDef (.input i)) →
        ∃ g o, Carries types.defined g o ∧ n = "_" ++ o.name.text ++ "Input" := by
  intro field relation knows more d
  have hrun : ∃ types, (augmentedTypes d (.ok {})).result = .ok types ∧
      types.mutationFields.map (fun f => (f.name.text, f.arguments.map fun v => v.name.text)) =
        [("AddPersonFriends", ["from", "to", "data"]), ("RemovePersonFriends", ["from", "to"]),
          ("AddPersonBoss", ["from", "to"]), ("RemovePersonBoss", ["from", "to"])] ∧
      (types.generated.find? "_KnowsInput").bind Definition.type? = some (.input {
        name := { text := "_KnowsInput" }
        fields := [{ name := { text := "since" }, type := .ofName "Int" }] }) := by decide
  obtain ⟨types, htypes, hnames, hinput⟩ := hrun
  obtain ⟨s, found, added, -, -, -, -, -, hinputs, -⟩ := property_inputs htypes
  refine ⟨types, htypes, hnames, hinput, fun n i hi => ?_⟩
  obtain ⟨r, -, t, g, o, -, hc, hn⟩ := hinputs n i hi
  exact ⟨g, o, hc, hn⟩

end Schema

end RelationApi

import RelationApi.Proofs.Schema.Sorting
import RelationApi.Proofs.Sdl.Places

/-!
# Places do not matter

A run looks at what the parts of a document say and never at the places where they stood : a run
over the document without places fails as the run over the document itself does, or gives the same
document without places (`Schema.augment_placeless`). Each stage has a lemma of its own, from the
search for relationships (`Relationship.collect_placeless`) and the offers
(`Schema.Types.foldl_offer_placeless`) to the document that is put together
(`Schema.rebuild_placeless`).

So two documents that are equal up to places have outputs that are equal up to places.
-/

namespace RelationApi

open Sdl

/-! ## Registries with other values -/

namespace Registry

variable {κ α β : Type} (f : α → β)

/-- The registry with each value replaced by its image. -/
def map (r : Registry κ α) : Registry κ β :=
  ⟨r.entries.map (Prod.map id f), by rw [List.map_map]; exact r.nodup_keys⟩

/-- The values are replaced one by one. -/
theorem values_map (r : Registry κ α) : (r.map f).values = r.values.map f := by
  rw [values, map, List.map_map, values, List.map_map]
  rfl

/-- The keys stay. -/
theorem keys_map (r : Registry κ α) : (r.map f).keys = r.keys := by
  rw [keys, map, List.map_map]
  rfl

variable [DecidableEq κ]

/-- Functions that agree on the values make the same registry of them. -/
theorem map_congr {f g : α → β} {r : Registry κ α} (h : ∀ k a, r.find? k = some a → f a = g a) :
    r.map f = r.map g :=
  Registry.ext (List.map_congr_left fun e he =>
    congrArg (Prod.mk e.1) (h e.1 e.2 (mem_entries_iff.1 he)))

/-- What is found under a key is the image of what was found before. -/
theorem find?_map (r : Registry κ α) (k : κ) : (r.map f).find? k = (r.find? k).map f := by
  rw [find?, map, List.find?_map, Option.map_map, find?, Option.map_map]
  rfl

/-- The image of a value is put where the value would be. -/
theorem insert_map (r : Registry κ α) (k : κ) (a : α) :
    (r.map f).insert k (f a) = (r.insert k a).map f := by
  have hupsert : ∀ es : List (κ × α),
      upsert k (f a) (es.map (Prod.map id f)) = (upsert k a es).map (Prod.map id f) := by
    intro es
    induction es with
    | nil => rfl
    | cons e es ih =>
      rw [List.map_cons, upsert, upsert, ih]
      by_cases h : e.1 = k <;> simp [h]
  exact Registry.ext (hupsert r.entries)

/-- The images of entries are put in one after another. -/
theorem insertAll_map (es : List (κ × α)) (r : Registry κ α) :
    (r.map f).insertAll (es.map (Prod.map id f)) = (r.insertAll es).map f := by
  induction es generalizing r with
  | nil => rfl
  | cons e es ih =>
    rw [List.map_cons, insertAll_cons, insertAll_cons, ← ih, ← insert_map]
    rfl

theorem ofList_map (es : List (κ × α)) :
    ofList (es.map (Prod.map id f)) = (ofList es).map f :=
  insertAll_map f es empty

end Registry

/-! ## Directives and fields -/

namespace Sdl

/-- The first directive of a kind is the same one without places. -/
theorem first?_placeless (k : AnnotationKind) (ds : List Directive) :
    k.first? (ds.map Directive.placeless) = (k.first? ds).map Directive.placeless :=
  List.find?_map

/-- The binding that directives have does not depend on places. -/
theorem binding?_placeless (ds : List Directive) :
    binding? (ds.map Directive.placeless) = binding? ds := by
  have hbinding (x : Directive) : Binding.ofDirective x.placeless = Binding.ofDirective x := by
    simp only [Binding.ofDirective, Directive.attribute_placeless]
  rw [binding?, binding?, first?_placeless, Option.map_map]
  exact congrArg (Option.map · _) (funext hbinding)

/-- A field is computed or not, wherever its directives stood. -/
theorem isComputed_placeless (ds : List Directive) :
    isComputed (ds.map Directive.placeless) = isComputed ds := by
  rw [isComputed, isComputed, first?_placeless, Option.isSome_map]

/-- A field is found by its name, stripped like the type. -/
theorem ObjectType.field?_stripped (f : Scalar → Scalar) (t : ObjectType) (n : String) :
    (t.stripped f).field? n = (t.field? n).map (Field.stripped f) :=
  List.find?_map

end Sdl

/-! ## The search -/

namespace RelationshipType

/-- The relationship type without any places. -/
def placeless (r : RelationshipType) : RelationshipType := { r with type := r.type.placeless }

theorem endpoint_placeless (t : ObjectType) (n : String) :
    endpoint t.placeless n = endpoint t n := by
  rw [endpoint, endpoint, t.field?_stripped]
  cases t.field? n with
  | none => rfl
  | some f => exact congrArg Except.ok f.type.typeName_placeless

/-- A type is a relationship type, or none, or has a fault, whatever its places. -/
theorem of?_placeless (t : ObjectType) : of? t.placeless = Option.map placeless <$> of? t := by
  have hb : binding? t.placeless.directives = binding? t.directives :=
    binding?_placeless t.directives
  rw [of?, of?, hb, endpoint_placeless, endpoint_placeless]
  cases binding? t.directives with
  | none => rfl
  | some b =>
    dsimp only
    cases b.link.name.isGiven with
    | false => rfl
    | true => cases endpoint t fromField <;> cases endpoint t toField <;> rfl

/-- The same relationship types are found without places. -/
theorem collect_placeless (ts : List TypeDef) :
    collect (ts.map TypeDef.placeless) = List.map placeless <$> collect ts := by
  rw [collect_eq, collect_eq]
  refine flatMapM_map_comm fun t _ => ?_
  cases t with
  | object t =>
    rw [TypeDef.placeless, TypeDef.stripped, found, found, of?_placeless]
    rcases of? t with _ | _ | _ <;> rfl
  | _ => rfl

/-- The properties are the same fields without places. -/
theorem properties_placeless (r : RelationshipType) :
    r.placeless.properties = r.properties.map Field.placeless :=
  List.filter_map

end RelationshipType

namespace Relationship

/-- The relationship without any places. -/
def placeless (r : Relationship) : Relationship :=
  { r with
    inputs := r.inputs.map InputValue.placeless
    outputs := r.outputs.map Field.placeless }

/-- The relationship through a type, without places. -/
theorem throughType_placeless (n : String) (f : Field) (q : RelationshipType) :
    throughType n f.placeless q.placeless = (throughType n f q).placeless := by
  rw [throughType, throughType, placeless, q.properties_placeless, List.map_map, List.map_map]
  rfl

/-- The relationship through a field, or the fault, without places. -/
theorem throughField_placeless (n : String) (f : Field) (b : Binding) :
    throughField n f.placeless b = placeless <$> throughField n f b := by
  have htype : f.placeless.type.typeName = f.type.typeName := f.type.typeName_placeless
  unfold throughField
  rw [htype]
  cases b.link.name.isGiven with
  | false => rfl
  | true => cases isInward b.direction <;> rfl

section Search

variable (types : Registry String TypeDef) (relTypes : List RelationshipType)

/-- What is found at a field is found there without places. -/
theorem ofField?_placeless (n : String) (f : Field) :
    ofField? (types.map TypeDef.placeless) (relTypes.map RelationshipType.placeless) n f.placeless =
      Option.map placeless <$> ofField? types relTypes n f := by
  have hcomputed : isComputed f.placeless.directives = isComputed f.directives :=
    isComputed_placeless f.directives
  have hbinding : binding? f.placeless.directives = binding? f.directives :=
    binding?_placeless f.directives
  have hname : f.placeless.type.typeName = f.type.typeName := f.type.typeName_placeless
  have hfind : ((relTypes.map RelationshipType.placeless).find? fun r =>
      r.type.name.text = f.type.typeName) =
        (relTypes.find? fun r => r.type.name.text = f.type.typeName).map
          RelationshipType.placeless :=
    List.find?_map
  rw [ofField?, ofField?, hcomputed, hbinding, hname, hfind, types.find?_map]
  split_ifs
  · rfl
  · cases relTypes.find? fun r => r.type.name.text = f.type.typeName with
    | some q => exact congrArg (fun r => Except.ok (some r)) (throughType_placeless n f q)
    | none =>
      cases types.find? f.type.typeName with
      | none => rfl
      | some t =>
        cases t with
        | object t =>
          cases binding? f.directives with
          | none => rfl
          | some b =>
            change some <$> throughField n f.placeless b =
              Option.map placeless <$> some <$> throughField n f b
            rw [throughField_placeless]
            cases throughField n f b <;> rfl
        | _ => rfl

/-- What is found at a type is found there without places. -/
theorem ofType_placeless (t : TypeDef) :
    ofType (types.map TypeDef.placeless) (relTypes.map RelationshipType.placeless) t.placeless =
      List.map placeless <$> ofType types relTypes t := by
  cases t with
  | object t =>
    have hany : ((relTypes.map RelationshipType.placeless).any fun r =>
        r.type.name.text = t.name.text) = relTypes.any fun r => r.type.name.text = t.name.text :=
      List.any_map
    change (if ((relTypes.map RelationshipType.placeless).any fun r =>
      r.type.name.text = t.name.text) then _ else _) = _
    rw [hany, ofType]
    split_ifs
    · rfl
    · rw [ofFields_eq, ofFields_eq]
      refine flatMapM_map_comm fun f _ => (congrArg (Option.toList <$> ·)
        (ofField?_placeless types relTypes t.name.text f)).trans ?_
      rcases ofField? types relTypes t.name.text f with _ | _ | _ <;> rfl
  | _ => rfl

/-- The same relationships are found without places. -/
theorem collect_placeless :
    collect (types.map TypeDef.placeless) = List.map placeless <$> collect types := by
  rw [collect, collect, types.values_map, RelationshipType.collect_placeless]
  cases RelationshipType.collect types.values with
  | error e => rfl
  | ok relTypes =>
    change ofTypes _ _ _ = List.map placeless <$> ofTypes types relTypes types.values
    rw [ofTypes_eq, ofTypes_eq]
    exact flatMapM_map_comm fun t _ => ofType_placeless types relTypes t

end Search

end Relationship

/-! ## What is made for a mutation -/

/-- A directive that was made has no places. -/
theorem Binding.placeless_toDirective (b : Binding) : b.toDirective.placeless = b.toDirective := by
  rw [toDirective, optional, optional, optional]
  split_ifs <;> rfl

namespace Relationship

variable (r : Relationship)

/-- The arguments of a mutation, without places. -/
theorem arguments_placeless (a : Action) :
    r.placeless.arguments a = (r.arguments a).map InputValue.placeless := by
  have hempty : r.placeless.outputs.isEmpty = r.outputs.isEmpty := List.isEmpty_map
  unfold arguments
  rw [hempty]
  cases a with
  | create => cases r.outputs.isEmpty <;> rfl
  | delete => rfl

/-- The directives of a mutation are made, and so have no places. -/
theorem placeless_directives (s : Settings) (a : Action) :
    (r.directives s a).map Directive.placeless = r.directives s a := by
  rw [directives]
  split_ifs
  · have hscopes : (r.scopes a).toDirective.placeless = (r.scopes a).toDirective := rfl
    rw [List.map_cons, List.map_cons, hscopes]
    rfl
  · rfl

/-- The field of a mutation, without places. -/
theorem mutationField_placeless (s : Settings) (a : Action) (n : String) :
    r.placeless.mutationField s a n = (r.mutationField s a n).placeless := by
  have hdirectives : r.placeless.directives s a = r.directives s a := rfl
  rw [mutationField, arguments_placeless, hdirectives, ← placeless_directives]
  rfl

/-- The input type of the properties is there or not, and has no places. -/
theorem inputType?_placeless : r.placeless.inputType? = r.inputType?.map InputType.placeless := by
  have hempty : r.placeless.inputs.isEmpty = r.inputs.isEmpty := List.isEmpty_map
  rw [inputType?, inputType?, hempty]
  split_ifs
  · rfl
  · rw [Option.map_some, InputType.placeless, InputType.stripped, placeless]
    dsimp only
    have hcomputed : (fun v : InputValue => !isComputed v.directives) ∘ InputValue.placeless =
        fun v => !isComputed v.directives :=
      funext fun v => congrArg (!·) (isComputed_placeless v.directives)
    rw [List.filter_map, hcomputed, List.map_map, List.map_map]
    rfl

/-- The properties in a payload are the same fields without places. -/
theorem payloadProperties_placeless :
    r.placeless.payloadProperties = r.payloadProperties.map Field.placeless := by
  rw [payloadProperties, payloadProperties, placeless]
  dsimp only
  rw [List.map_map, List.map_map]
  refine List.map_congr_left fun f _ => ?_
  have hcomputed : isComputed f.placeless.directives = isComputed f.directives :=
    isComputed_placeless f.directives
  rw [Function.comp_apply, Function.comp_apply, hcomputed]
  split_ifs <;> rfl

/-- The payload type of a mutation, without places. -/
theorem payloadType_placeless (a : Action) (n : String) :
    r.placeless.payloadType a n = (r.payloadType a n).placeless := by
  have hdirectives : [(Binding.mk r.link .missing).toDirective] =
      [(Binding.mk r.link .missing).toDirective].map Directive.placeless := by
    rw [List.map_singleton, Binding.placeless_toDirective]
  have hlink : r.placeless.link = r.link := rfl
  unfold payloadType ObjectType.placeless ObjectType.stripped
  cases a with
  | create =>
    dsimp only
    rw [payloadProperties_placeless, List.map_append, hlink, ← hdirectives]
    rfl
  | delete =>
    dsimp only
    rw [hlink, ← hdirectives]
    rfl

/-- All types that a mutation generates, without places. -/
theorem generatedTypes_placeless (a : Action) (n : String) :
    r.placeless.generatedTypes a n = (r.generatedTypes a n).map TypeDef.placeless := by
  unfold generatedTypes
  rw [payloadType_placeless, inputType?_placeless, List.map_append]
  cases a with
  | create => cases r.inputType? <;> rfl
  | delete => rfl

end Relationship

namespace Mutation

/-- The mutation without any places. -/
def placeless (m : Mutation) : Mutation := { m with relationship := m.relationship.placeless }

/-- Types are entered under their names, stripped or not. -/
theorem entries_stripped (f : Scalar → Scalar) (ts : List TypeDef) :
    (ts.map (TypeDef.stripped f)).map (fun t => (t.name, Definition.typeDef t)) =
      (ts.map fun t => (t.name, Definition.typeDef t)).map
        (Prod.map id (Definition.stripped f)) := by
  rw [List.map_map, List.map_map]
  exact List.map_congr_left fun t _ => Prod.ext (t.name_stripped f) rfl

/-- What a mutation generates is entered under the same names without places. -/
theorem generated_placeless (m : Mutation) :
    m.placeless.generated = m.generated.map (Prod.map id Definition.placeless) := by
  have htypes : m.placeless.relationship.generatedTypes m.placeless.action m.placeless.name =
      (m.relationship.generatedTypes m.action m.name).map TypeDef.placeless :=
    m.relationship.generatedTypes_placeless m.action m.name
  rw [generated, generated, htypes]
  exact entries_stripped id _

end Mutation

namespace Schema

/-! ## Offers -/

namespace Types

/-- The types, stripped. -/
def stripped (f : Scalar → Scalar) (t : Types) : Types :=
  ⟨t.defined.map (TypeDef.stripped f), t.generated.map (Definition.stripped f),
    t.roots.map (ObjectType.stripped f)⟩

/-- The types without any places. -/
abbrev placeless (t : Types) : Types := t.stripped id

/-- A root type is found by its kind, stripped like the types. -/
theorem find?_roots_stripped (f : Scalar → Scalar) (t : Types) (k : OperationKind) :
    (t.stripped f).roots.find? k = (t.roots.find? k).map (ObjectType.stripped f) :=
  Registry.find?_map _ t.roots k

/-- An offer to stripped types gives what an offer to the types gives, stripped, if what is made for
the one mutation is what is made for the other, stripped. -/
theorem offer_stripped {f : Scalar → Scalar} (s : Settings) (t : Types) {m m' : Mutation}
    (hgenerated : m'.generated = m.generated.map (Prod.map id (Definition.stripped f)))
    (hfield : m'.field s = (m.field s).stripped f) (hname : m'.name = m.name) :
    (t.stripped f).offer s m' = (t.offer s m).stripped f := by
  cases hroot : t.roots.find? .mutation with
  | none =>
    rw [offer_of_none s t m hroot]
    exact offer_of_none s _ _ (by rw [find?_roots_stripped, hroot]; rfl)
  | some root =>
    have hroot' : (t.stripped f).roots.find? .mutation = some (root.stripped f) := by
      rw [find?_roots_stripped, hroot]
      rfl
    have hthere : ((root.stripped f).field? m'.name).isSome = (root.field? m.name).isSome := by
      rw [hname, root.field?_stripped, Option.isSome_map]
    have happend : (root.stripped f).append (m'.field s) =
        (root.append (m.field s)).stripped f := by
      rw [hfield, ObjectType.append, ObjectType.append, ObjectType.stripped, ObjectType.stripped,
        List.map_append]
      rfl
    rw [offer_of_some s _ m' hroot', offer_of_some s t m hroot, hthere]
    split_ifs
    · rfl
    · rw [happend, hgenerated, stripped, stripped, ← Registry.insertAll_map, ← Registry.insert_map]

/-- An offer without places to types without places. -/
theorem offer_placeless (s : Settings) (t : Types) (m : Mutation) :
    t.placeless.offer s m.placeless = (t.offer s m).placeless :=
  offer_stripped s t m.generated_placeless
    (m.relationship.mutationField_placeless s m.action m.name) rfl

/-- Offers one after another, without places. -/
theorem foldl_offer_placeless (s : Settings) (ms : List Mutation) (t : Types) :
    (ms.map Mutation.placeless).foldl (offer s) t.placeless =
      (ms.foldl (offer s) t).placeless := by
  induction ms generalizing t with
  | nil => rfl
  | cons m ms ih => rw [List.map_cons, List.foldl_cons, List.foldl_cons, offer_placeless, ih]

/-- The settings let the same mutations through. -/
theorem offers_placeless (s : Settings) (rs : List Relationship) :
    s.offers (rs.map Relationship.placeless) = (s.offers rs).map Mutation.placeless := by
  rw [Settings.offers, Settings.offers, List.filter_map, List.flatMap_map, List.map_flatMap]
  rfl

/-- Adding relationships fails or not, whatever the places. -/
theorem result_addRelationships_placeless (t : Types) (s : Settings) (rs : List Relationship) :
    (t.placeless.addRelationships s (rs.map Relationship.placeless)).result =
      placeless <$> (t.addRelationships s rs).result := by
  have hroot : (t.placeless.roots.find? .mutation).isSome = (t.roots.find? .mutation).isSome := by
    rw [find?_roots_stripped, Option.isSome_map]
  cases h : (t.addRelationships s rs).result with
  | error e =>
    rw [addRelationships_eq_error_iff] at h
    refine addRelationships_eq_error_iff.2 ⟨hroot ▸ h.1, ?_⟩
    rw [List.findSome?_map]
    exact h.2
  | ok t' =>
    obtain ⟨hadd, rfl⟩ := addRelationships_eq_ok_iff.1 h
    refine addRelationships_eq_ok_iff.2 ⟨fun hsome r hr => ?_, ?_⟩
    · obtain ⟨q, hq, rfl⟩ := List.mem_map.1 hr
      exact hadd (hroot ▸ hsome) q hq
    · rw [offers_placeless, foldl_offer_placeless]

end Types

/-! ## Sorting and putting together -/

variable (d : Document)

/-- The types that a document defines, without places. -/
theorem filterMap_type?_placeless : d.placeless.definitions.filterMap Definition.type? =
    (d.definitions.filterMap Definition.type?).map TypeDef.placeless := by
  rw [Document.definitions_stripped, List.filterMap_map, List.map_filterMap]
  refine List.filterMap_congr fun definition _ => ?_
  cases definition <;> rfl

/-- The names of the roots do not depend on places. -/
theorem rootNames_placeless : rootNames d.placeless = rootNames d := by
  rw [rootNames, Document.definitions_stripped, List.foldl_map, rootNames]
  congr 1
  funext names definition
  cases definition with
  | schema s =>
    change Registry.ofList (s.placeless.roots.map fun r => (r.2.text, r.1)) = _
    rw [SchemaDef.placeless, SchemaDef.stripped, List.map_map]
    rfl
  | _ => rfl

theorem definedObjects_placeless : definedObjects d.placeless = definedObjects d := by
  rw [definedObjects, Document.definitions_stripped, List.filterMap_map, definedObjects]
  refine List.filterMap_congr fun definition _ => ?_
  cases definition with
  | typeDef t => cases t <;> rfl
  | _ => rfl

/-- The extensions of a type are found by its name. -/
theorem extensionsOf_placeless (n : String) :
    extensionsOf d.placeless n = (extensionsOf d n).map ObjectType.placeless := by
  rw [extensionsOf, Document.definitions_stripped, List.filterMap_map, extensionsOf,
    List.map_filterMap]
  refine List.filterMap_congr fun definition _ => ?_
  cases definition with
  | typeExtension t =>
    cases t with
    | object e =>
      change Option.filter (fun e : ObjectType => e.name.text = n) (some e.placeless) =
        (Option.filter (fun e : ObjectType => e.name.text = n) (some e)).map ObjectType.placeless
      rw [Option.filter_some, Option.filter_some]
      by_cases h : e.name.text = n <;> simp [h, ObjectType.stripped, Name.placeless]
    | _ => rfl
  | _ => rfl

/-- A type is extended by the same parts. -/
theorem extended_placeless (t : ObjectType) :
    extended d.placeless t.placeless = (extended d t).placeless := by
  have hextensions : extensionsOf d.placeless t.placeless.name.text =
      (extensionsOf d t.name.text).map ObjectType.placeless :=
    extensionsOf_placeless d t.name.text
  rw [extended, hextensions, List.foldl_map, extended]
  exact List.foldl_hom ObjectType.placeless (ObjectType.merge_stripped id)

/-- A definition is a root or not, whatever its places. -/
theorem asRoot?_placeless (definition : Definition) : asRoot? d.placeless definition.placeless =
    (asRoot? d definition).map (Prod.map id ObjectType.placeless) := by
  cases definition with
  | typeDef t =>
    cases t with
    | object t =>
      change ((rootNames d.placeless).find? t.name.text).map _ =
        (((rootNames d).find? t.name.text).map _).map _
      rw [rootNames_placeless, extended_placeless, Option.map_map]
      rfl
    | _ => rfl
  | _ => rfl

/-- A definition is an entry among the types or not, whatever its places. -/
theorem asDefined?_placeless (definition : Definition) :
    asDefined? d.placeless definition.placeless =
      (asDefined? d definition).map (Prod.map id TypeDef.placeless) := by
  cases definition with
  | typeDef t =>
    cases t with
    | object t =>
      change (if ((rootNames d.placeless).find? t.name.text).isSome then none
        else some (t.name.text, TypeDef.object (extended d.placeless t.placeless))) = _
      rw [rootNames_placeless, extended_placeless, asDefined?]
      split_ifs <;> rfl
    | _ => rfl
  | _ => rfl

/-- The types of a document are sorted in the same way. -/
theorem sorted_placeless : sorted d.placeless = (sorted d).placeless := by
  have hdefined : d.placeless.definitions.filterMap (asDefined? d.placeless) =
      (d.definitions.filterMap (asDefined? d)).map (Prod.map id TypeDef.placeless) := by
    rw [Document.definitions_stripped, List.filterMap_map, List.map_filterMap]
    exact List.filterMap_congr fun definition _ => asDefined?_placeless d definition
  have hroots : d.placeless.definitions.filterMap (asRoot? d.placeless) =
      (d.definitions.filterMap (asRoot? d)).map (Prod.map id ObjectType.placeless) := by
    rw [Document.definitions_stripped, List.filterMap_map, List.map_filterMap]
    exact List.filterMap_congr fun definition _ => asRoot?_placeless d definition
  rw [sorted, hdefined, hroots, Registry.ofList_map, Registry.ofList_map]
  rfl

/-- What takes the place of a definition does not depend on places. -/
theorem rebuilt_placeless (types : Types) (definition : Definition) :
    rebuilt d.placeless types.placeless definition.placeless =
      (rebuilt d types definition).map Definition.placeless := by
  cases definition with
  | typeDef t =>
    cases t with
    | object t =>
      have hroot : ((rootNames d.placeless).find? t.placeless.name.text).bind
          types.placeless.roots.find? =
            (((rootNames d).find? t.name.text).bind types.roots.find?).map
              ObjectType.placeless := by
        rw [rootNames_placeless, Option.map_bind]
        exact congrArg (Option.bind _) (funext (types.find?_roots_stripped id))
      have hdefined : types.placeless.defined.find? t.placeless.name.text =
          (types.defined.find? t.name.text).map TypeDef.placeless :=
        types.defined.find?_map _ t.name.text
      rw [Definition.placeless, Definition.stripped, TypeDef.stripped, rebuilt, rebuilt, hroot,
        hdefined]
      cases ((rootNames d).find? t.name.text).bind types.roots.find? with
      | some root => rfl
      | none => cases types.defined.find? t.name.text <;> rfl
    | _ => rfl
  | typeExtension t =>
    cases t with
    | object t =>
      change (if (definedObjects d.placeless).contains t.name.text then none else _) = _
      rw [definedObjects_placeless, rebuilt]
      split_ifs <;> rfl
    | _ => rfl
  | _ => rfl

/-- The new document, without places. -/
theorem rebuild_placeless (types : Types) :
    rebuild d.placeless types.placeless = (rebuild d types).placeless := by
  have hgenerated : types.placeless.generated.values =
      types.generated.values.map Definition.placeless :=
    types.generated.values_map _
  rw [rebuild, rebuild, hgenerated, Document.placeless, Document.placeless, Document.stripped,
    Document.stripped, List.filterMap_map, List.map_append, List.map_filterMap]
  refine congrArg (fun ds => Document.mk (ds ++ _)) (List.filterMap_congr fun definition _ => ?_)
  exact rebuilt_placeless d types definition

/-- The types that a run ends with, or its fault. -/
theorem result_augmentedTypes_placeless (resolved : Except SettingsFault Settings) :
    (augmentedTypes d.placeless resolved).result =
      Types.placeless <$> (augmentedTypes d resolved).result := by
  rw [augmentedTypes, augmentedTypes, Run.result_bind, Run.result_bind, result_ofDocument,
    result_ofDocument, sorted_placeless]
  change ((sorted d).placeless.augment resolved).result =
    Types.placeless <$> ((sorted d).augment resolved).result
  rw [Types.augment, Types.augment]
  cases resolved with
  | error e => rfl
  | ok s =>
    simp only [Run.result_bind, Run.result_ofExcept]
    change ((Relationship.collect ((sorted d).defined.map TypeDef.placeless)) >>= fun found =>
      ((sorted d).placeless.addRelationships s found).result) =
        Types.placeless <$> (Relationship.collect (sorted d).defined >>= fun found =>
          ((sorted d).addRelationships s found).result)
    rw [Relationship.collect_placeless]
    cases Relationship.collect (sorted d).defined with
    | error e => rfl
    | ok found => exact (sorted d).result_addRelationships_placeless s found

/-- A run over the document without places. -/
theorem augment_placeless (resolved : Except SettingsFault Settings) :
    (augment d.placeless resolved).result = Document.placeless <$> (augment d resolved).result := by
  have htypes := result_augmentedTypes_placeless d resolved
  cases h : (augment d resolved).result with
  | error e =>
    rw [augment_eq_error_iff] at h
    rw [h] at htypes
    exact augment_eq_error_iff.2 htypes
  | ok out =>
    obtain ⟨types, hrun, rfl⟩ := augment_eq_ok_iff.1 h
    rw [hrun] at htypes
    exact augment_eq_ok_iff.2 ⟨_, htypes, (rebuild_placeless d types).symm⟩

/-- Documents that are equal up to places have outputs that are. -/
theorem exists_augment_of_placeless_eq {resolved : Except SettingsFault Settings}
    {d d' out : Document} (h : d'.placeless = d.placeless)
    (hrun : (augment d resolved).result = .ok out) :
    ∃ out', (augment d' resolved).result = .ok out' ∧ out'.placeless = out.placeless := by
  have hrun' := augment_placeless d' resolved
  rw [h, augment_placeless, hrun] at hrun'
  exact except_map_eq_ok_iff.1 hrun'.symm

end Schema

end RelationApi

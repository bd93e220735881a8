import Mathlib.Data.List.Nodup
import RelationApi.Proofs.Mutation.Order
import RelationApi.Proofs.Relationship.Discovery

/-!
# Sorted types

How a document's definitions become the types of a schema, one definition at a time. Each definition
has at most one entry, among the roots (`asRoot?`) or among the other types (`asDefined?`), and
`sorted` collects these. `mem_of_find?_roots` and `mem_of_find?_defined` lead from a type that is
found back to its definition.

`augment_eq_ok_iff` takes a whole run apart : the settings, the relationships found among the sorted
types, the row of offers, and the document put together again. `augmentedTypes_eq_error_iff` says
where a run with settings fails.
-/

namespace RelationApi.Schema

open Sdl

variable (d : Document)

/-! ## Extensions -/

theorem foldl_merge (t : ObjectType) (es : List ObjectType) :
    es.foldl ObjectType.merge t =
      { t with
        interfaces := t.interfaces ++ es.flatMap ObjectType.interfaces
        directives := t.directives ++ es.flatMap ObjectType.directives
        fields := t.fields ++ es.flatMap ObjectType.fields } := by
  induction es generalizing t with
  | nil => simp
  | cons e es ih => simp [ih, ObjectType.merge]

/-- A type with all its extensions has the parts of each after its own, in order. -/
theorem extended_eq (t : ObjectType) : extended d t =
    { t with
      interfaces := t.interfaces ++ (extensionsOf d t.name.text).flatMap ObjectType.interfaces
      directives := t.directives ++ (extensionsOf d t.name.text).flatMap ObjectType.directives
      fields := t.fields ++ (extensionsOf d t.name.text).flatMap ObjectType.fields } :=
  foldl_merge t _

@[simp] theorem name_extended (t : ObjectType) : (extended d t).name = t.name := by
  rw [extended_eq]

theorem extended_of_eq_nil {t : ObjectType} (h : extensionsOf d t.name.text = []) :
    extended d t = t := by
  rw [extended, h]
  rfl

/-! ## Entries -/

/-- The entry of a definition among the roots. -/
def asRoot? : Definition → Option (OperationKind × ObjectType)
  | .typeDef (.object t) => ((rootNames d).find? t.name.text).map fun k => (k, extended d t)
  | _ => none

/-- The entry of a definition among the other types. -/
def asDefined? : Definition → Option (String × TypeDef)
  | .typeDef (.object t) =>
    if ((rootNames d).find? t.name.text).isSome then none
    else some (t.name.text, .object (extended d t))
  | .typeDef t => some (t.name, t)
  | _ => none

variable {d} in
/-- A definition has the same entry in documents with the same roots, if it is not an object type
that they extend in different ways. -/
theorem asDefined?_congr {d' : Document} {definition : Definition}
    (hroots : rootNames d' = rootNames d)
    (hextended : ∀ t, definition = .typeDef (.object t) → extended d' t = extended d t) :
    asDefined? d' definition = asDefined? d definition := by
  unfold asDefined?
  split
  · next t => rw [hroots, hextended t rfl]
  · rfl
  · rfl

variable {d} in
theorem asRoot?_congr {d' : Document} {definition : Definition}
    (hroots : rootNames d' = rootNames d)
    (hextended : ∀ t, definition = .typeDef (.object t) → extended d' t = extended d t) :
    asRoot? d' definition = asRoot? d definition := by
  unfold asRoot?
  split
  · next t => rw [hroots, hextended t rfl]
  · rfl

/-- The types of a document, sorted. -/
def sorted : Types where
  defined := .ofList (d.definitions.filterMap (asDefined? d))
  generated := .empty
  roots := .ofList (d.definitions.filterMap (asRoot? d))

theorem addType_eq (types : Types) (t : TypeDef) : Types.addType d types t =
    { types with
      defined := types.defined.insertAll (asDefined? d (.typeDef t)).toList
      roots := types.roots.insertAll (asRoot? d (.typeDef t)).toList } := by
  cases t with
  | object t =>
    rw [Types.addType, asDefined?, asRoot?]
    cases (rootNames d).find? t.name.text <;> rfl
  | _ => rfl

theorem foldl_addType (ds : List Definition) (types : Types) :
    (ds.filterMap Definition.type?).foldl (Types.addType d) types =
      { types with
        defined := types.defined.insertAll (ds.filterMap (asDefined? d))
        roots := types.roots.insertAll (ds.filterMap (asRoot? d)) } := by
  induction ds generalizing types with
  | nil => rfl
  | cons definition ds ih =>
    simp only [List.filterMap_eq_flatMap_toList] at ih ⊢
    simp only [List.flatMap_cons, List.foldl_append, ih, Registry.insertAll_append]
    cases definition with
    | typeDef t =>
      change Types.mk ((Types.addType d types t).defined.insertAll _)
        (Types.addType d types t).generated ((Types.addType d types t).roots.insertAll _) = _
      rw [addType_eq]
    | _ => rfl

theorem result_ofDocument : (Types.ofDocument d).result = .ok (sorted d) := by
  rw [Types.ofDocument, Run.result_bind]
  exact congrArg Except.ok (foldl_addType d d.definitions .empty)

/-! ## From a type back to its definition -/

variable {d}

theorem objectType?_eq_some_iff {definition : Definition} {t : ObjectType} :
    definition.objectType? = some t ↔ definition = .typeDef (.object t) := by
  cases definition with
  | typeDef u => cases u <;> simp [Definition.objectType?]
  | _ => simp [Definition.objectType?]

theorem objectExtension?_eq_some_iff {definition : Definition} {t : ObjectType} :
    definition.objectExtension? = some t ↔ definition = .typeExtension (.object t) := by
  cases definition with
  | typeExtension u => cases u <;> simp [Definition.objectExtension?]
  | _ => simp [Definition.objectExtension?]

theorem mem_extensionsOf_iff {n : String} {e : ObjectType} :
    e ∈ extensionsOf d n ↔ .typeExtension (.object e) ∈ d.definitions ∧ e.name.text = n := by
  simp [extensionsOf, Option.filter_eq_some_iff, objectExtension?_eq_some_iff]

theorem mem_definedObjects_iff {n : String} :
    n ∈ definedObjects d ↔ ∃ t, .typeDef (.object t) ∈ d.definitions ∧ t.name.text = n := by
  simp [definedObjects, objectType?_eq_some_iff]

/-- A root comes from a definition under a name of the operation. -/
theorem mem_of_find?_roots {k : OperationKind} {root : ObjectType}
    (h : (sorted d).roots.find? k = some root) :
    ∃ t, .typeDef (.object t) ∈ d.definitions ∧
      (rootNames d).find? t.name.text = some k ∧ root = extended d t := by
  have hmem := Registry.mem_of_find?_ofList h
  obtain ⟨definition, hd, he⟩ := List.mem_filterMap.1 hmem
  unfold asRoot? at he
  split at he
  · next t =>
    obtain ⟨k', hk', he⟩ := Option.map_eq_some_iff.1 he
    obtain ⟨rfl, rfl⟩ := Prod.mk.inj he
    exact ⟨t, hd, hk', rfl⟩
  · cases he

/-- Any other type comes from a definition of its name : from that of an object type, which is no
root, or from that of another kind of type, which is kept as it is. -/
theorem mem_of_find?_defined {n : String} {u : TypeDef}
    (h : (sorted d).defined.find? n = some u) :
    ∃ t, .typeDef t ∈ d.definitions ∧ t.name = n ∧
      ((∃ o, t = .object o ∧ (rootNames d).find? n = none ∧ u = .object (extended d o)) ∨
        t.object? = none ∧ u = t) := by
  have hmem := Registry.mem_of_find?_ofList h
  obtain ⟨definition, hd, he⟩ := List.mem_filterMap.1 hmem
  unfold asDefined? at he
  split at he
  · next o =>
    split at he
    · cases he
    · next hroot =>
      obtain ⟨rfl, rfl⟩ := Prod.mk.inj (Option.some.inj he)
      exact ⟨_, hd, rfl, Or.inl ⟨o, rfl, by simpa using hroot, rfl⟩⟩
  · next t ht =>
    obtain ⟨rfl, rfl⟩ := Prod.mk.inj (Option.some.inj he)
    refine ⟨t, hd, rfl, Or.inr ⟨?_, rfl⟩⟩
    cases t <;> simp_all [TypeDef.object?]
  · cases he

/-- The types other than roots are found under their names. -/
theorem name_of_find?_defined {n : String} {u : TypeDef}
    (h : (sorted d).defined.find? n = some u) : u.name = n := by
  obtain ⟨t, -, rfl, ⟨o, rfl, -, rfl⟩ | ⟨-, rfl⟩⟩ := mem_of_find?_defined h
  · exact congrArg Name.text (name_extended d o)
  · rfl

/-- An object type that is no root has the parts of its definition and of all extensions of this. -/
theorem exists_extended_of_find?_defined {n : String} {o : ObjectType}
    (h : (sorted d).defined.find? n = some (.object o)) :
    ∃ u, .typeDef (.object u) ∈ d.definitions ∧ o = extended d u := by
  obtain ⟨t, ht, -, ⟨u, rfl, -, ho⟩ | ⟨hnone, rfl⟩⟩ := mem_of_find?_defined h
  · exact ⟨u, ht, TypeDef.object.inj ho⟩
  · cases hnone

theorem isSome_roots_of_mem {t : ObjectType} {k : OperationKind}
    (hd : .typeDef (.object t) ∈ d.definitions) (hk : (rootNames d).find? t.name.text = some k) :
    ((sorted d).roots.find? k).isSome := by
  rw [Registry.isSome_find?_iff]
  refine Registry.mem_keys_insertAll.2 (Or.inr (List.mem_map.2 ⟨(k, extended d t), ?_, rfl⟩))
  exact List.mem_filterMap.2 ⟨_, hd, by rw [asRoot?, hk]; rfl⟩

theorem isSome_defined_of_mem {t : ObjectType} (hd : .typeDef (.object t) ∈ d.definitions)
    (hk : (rootNames d).find? t.name.text = none) :
    ((sorted d).defined.find? t.name.text).isSome := by
  rw [Registry.isSome_find?_iff]
  refine Registry.mem_keys_insertAll.2
    (Or.inr (List.mem_map.2 ⟨(t.name.text, .object (extended d t)), ?_, rfl⟩))
  exact List.mem_filterMap.2 ⟨_, hd, by rw [asDefined?, hk]; rfl⟩

/-! ## A whole run -/

variable (d)

/-- The types of a document, with the mutations for its relationships. -/
def augmentedTypes (resolved : Except SettingsFault Settings) : Run Fault Types := do
  (← Types.ofDocument d).augment resolved

variable {d} {resolved : Except SettingsFault Settings}

/-- A run succeeds if the settings are there, the relationships are found, and each of them can be
added. It offers their mutations to the sorted types. -/
theorem augmentedTypes_eq_ok_iff {types : Types} :
    (augmentedTypes d resolved).result = .ok types ↔ ∃ s found, resolved = .ok s ∧
      Relationship.collect (sorted d).defined = .ok found ∧
      (((sorted d).roots.find? .mutation).isSome → ∀ r ∈ found, s.CanAdd r) ∧
      types = (s.offers found).foldl (Types.offer s) (sorted d) := by
  rw [augmentedTypes, Run.result_bind, result_ofDocument]
  change (Types.augment (sorted d) resolved).result = _ ↔ _
  simp only [Types.augment, Run.result_bind_eq_ok_iff, Run.result_ofExcept, Run.result_emit,
    mapError_eq_ok_iff, Types.addRelationships_eq_ok_iff]
  constructor
  · rintro ⟨s, hs, found, hfound, -, -, hadd, rfl⟩
    exact ⟨s, found, hs, hfound, hadd, rfl⟩
  · rintro ⟨s, found, hs, hfound, hadd, rfl⟩
    exact ⟨s, hs, found, hfound, (), trivial, hadd, rfl⟩

/-- A run with settings fails while it looks for relationships, or at the first one that cannot be
added. -/
theorem augmentedTypes_eq_error_iff {s : Settings} {e : Fault} :
    (augmentedTypes d (.ok s)).result = .error e ↔
      Relationship.collect (sorted d).defined = .error e ∨
        ((sorted d).roots.find? .mutation).isSome ∧ ∃ found,
          Relationship.collect (sorted d).defined = .ok found ∧
          found.findSome? s.fault? = some e := by
  rw [augmentedTypes, Run.result_bind, result_ofDocument]
  change (Types.augment (sorted d) (.ok s)).result = _ ↔ _
  simp only [Types.augment, Run.result_bind_eq_error_iff, Run.result_ofExcept, Run.result_emit,
    mapError_eq_ok_iff, Types.addRelationships_eq_error_iff]
  constructor
  · rintro (he | ⟨s', hs, he | ⟨found, hfound, he | ⟨-, -, hroot, he⟩⟩⟩)
    · cases he
    · exact Or.inl he
    · cases he
    · obtain rfl := Except.ok.inj hs
      exact Or.inr ⟨hroot, found, hfound, he⟩
  · rintro (he | ⟨hroot, found, hfound, he⟩)
    · exact Or.inr ⟨s, rfl, Or.inl he⟩
    · exact Or.inr ⟨s, rfl, Or.inr ⟨found, hfound, Or.inr ⟨(), trivial, hroot, he⟩⟩⟩

/-- A run sees nothing of a document but its sorted types. -/
theorem result_augmentedTypes_of_sorted_eq {d' : Document} (h : sorted d' = sorted d) :
    (augmentedTypes d' resolved).result = (augmentedTypes d resolved).result := by
  rw [augmentedTypes, augmentedTypes, Run.result_bind, Run.result_bind, result_ofDocument,
    result_ofDocument, h]

/-- Runs that find the same relationships, both with a mutation root or both without one, fail with
the same fault or make the same offers. -/
theorem augmentedTypes_congr {d' : Document}
    (hcollect : Relationship.collect (sorted d').defined = Relationship.collect (sorted d).defined)
    (hroot : ((sorted d').roots.find? .mutation).isSome = ((sorted d).roots.find? .mutation).isSome)
    (resolved : Except SettingsFault Settings) :
    (∃ fault, (augmentedTypes d resolved).result = .error fault ∧
      (augmentedTypes d' resolved).result = .error fault) ∨
    ∃ (s : Settings) (found : List Relationship),
      (augmentedTypes d resolved).result = .ok ((s.offers found).foldl (Types.offer s) (sorted d)) ∧
      (augmentedTypes d' resolved).result =
        .ok ((s.offers found).foldl (Types.offer s) (sorted d')) := by
  cases hrun : (augmentedTypes d resolved).result with
  | ok types =>
    obtain ⟨s, found, hs, hfound, hadd, rfl⟩ := augmentedTypes_eq_ok_iff.1 hrun
    refine Or.inr ⟨s, found, rfl, augmentedTypes_eq_ok_iff.2 ⟨s, found, hs, ?_, ?_, rfl⟩⟩
    · exact hcollect.trans hfound
    · rwa [hroot]
  | error fault =>
    refine Or.inl ⟨fault, rfl, ?_⟩
    cases resolved with
    | error e =>
      rw [augmentedTypes, Run.result_bind, result_ofDocument] at hrun ⊢
      exact hrun
    | ok s =>
      refine augmentedTypes_eq_error_iff.2 ?_
      rw [hroot, hcollect]
      exact augmentedTypes_eq_error_iff.1 hrun

theorem augment_eq_ok_iff {d' : Document} : (augment d resolved).result = .ok d' ↔
    ∃ types, (augmentedTypes d resolved).result = .ok types ∧ d' = rebuild d types := by
  rw [augment, augmentedTypes, Run.result_bind, Run.result_bind, result_ofDocument]
  change ((Types.augment (sorted d) resolved >>= fun types => pure (rebuild d types) :
    Run Fault Document)).result = _ ↔ ∃ types, (Types.augment (sorted d) resolved).result = _ ∧ _
  rw [Run.result_bind_eq_ok_iff]
  simp [eq_comm]

theorem augment_eq_error_iff {e : Fault} : (augment d resolved).result = .error e ↔
    (augmentedTypes d resolved).result = .error e := by
  rw [augment, augmentedTypes, Run.result_bind, Run.result_bind, result_ofDocument]
  change ((Types.augment (sorted d) resolved >>= fun types => pure (rebuild d types) :
    Run Fault Document)).result = _ ↔ (Types.augment (sorted d) resolved).result = _
  rw [Run.result_bind_eq_error_iff]
  simp

/-- At the end of a run, an object type of the document that no root is found for is found among the
other types. -/
theorem found_of_mem {t : ObjectType} (ht : .typeDef (.object t) ∈ d.definitions) {types : Types}
    (htypes : (augmentedTypes d resolved).result = .ok types)
    (hroot : ((rootNames d).find? t.name.text).bind types.roots.find? = none) :
    (rootNames d).find? t.name.text = none ∧
      ∃ u, types.defined.find? t.name.text = some u ∧ u.name = t.name.text := by
  obtain ⟨s, found, -, -, -, rfl⟩ := augmentedTypes_eq_ok_iff.1 htypes
  obtain ⟨hdefined, hkeys, -⟩ := Types.foldl_offer_frame s (sorted d) (s.offers found)
  cases hk : (rootNames d).find? t.name.text with
  | none =>
    obtain ⟨u, hu⟩ := Option.isSome_iff_exists.1 (isSome_defined_of_mem ht hk)
    exact ⟨rfl, u, hdefined ▸ hu, name_of_find?_defined hu⟩
  | some k =>
    -- Offers replace the mutation root but do not change which operations have one.
    have hsome := isSome_roots_of_mem ht hk
    rw [Registry.isSome_find?_iff, ← hkeys, ← Registry.isSome_find?_iff] at hsome
    rw [hk, Option.bind_some] at hroot
    rw [hroot] at hsome
    cases hsome

end RelationApi.Schema

import RelationApi.Proofs.Schema.Sorting

/-!
# Sorting a document that was put together

A document that was put together from the types of a run can be sorted again. If nothing in the old
document mentions a generated type (`Types.Extends`), the new one has the same root names, none of
its object types has an extension, and sorting it finds the same types again : the roots with what
was added to them, and behind the other types the generated ones (`find?_roots_rebuild`,
`entries_defined_rebuild`). So putting it together once more gives the same document
(`rebuild_rebuild`).
-/

namespace RelationApi

open Sdl

namespace Sdl

/-! ## The names in a document -/

/-- The types that a field refers to, with its arguments. -/
def Field.typeNames (f : Field) : List String :=
  f.type.typeName :: f.arguments.map fun v => v.type.typeName

/-- The name of a type and those in all its type references. -/
def TypeDef.typeNames : TypeDef → List String
  | .object t | .interface t => t.name.text :: t.fields.flatMap Field.typeNames
  | .input t => t.name.text :: t.fields.map fun v => v.type.typeName
  | t => [t.name]

/-- The names of types in a definition : the type that is defined or extended, the roots of a schema
definition, and those in all type references. -/
def Definition.typeNames : Definition → List String
  | .typeDef t | .typeExtension t => t.typeNames
  | .schema s => s.roots.map fun r => r.2.text
  | .directiveDef x => x.arguments.map fun v => v.type.typeName
  | .operation o => o.variableDefs.map fun v => v.type.typeName
  | _ => []

/-- The names of types in a document. -/
def Document.typeNames (d : Document) : List String :=
  d.definitions.flatMap Definition.typeNames

theorem TypeDef.name_mem_typeNames (t : TypeDef) : t.name ∈ t.typeNames := by
  cases t <;> exact List.mem_cons_self

theorem Document.mem_typeNames {d : Document} {definition : Definition}
    (hd : definition ∈ d.definitions) {n : String} (hn : n ∈ definition.typeNames) :
    n ∈ d.typeNames :=
  List.mem_flatMap.2 ⟨definition, hd, hn⟩

/-- The schema definition, if it is one. -/
def Definition.schema? : Definition → Option SchemaDef
  | .schema s => some s
  | _ => none

end Sdl

namespace Schema

/-! ## The names of the roots -/

/-- The last schema definition says what the names of the roots are. -/
theorem rootNames_eq (d : Document) : rootNames d =
    ((d.definitions.filterMap Definition.schema?).getLast?.map fun s =>
      .ofList (s.roots.map fun r => (r.2.text, r.1))).getD defaultRootNames := by
  unfold rootNames
  generalize defaultRootNames = names
  induction d.definitions generalizing names with
  | nil => rfl
  | cons definition ds ih =>
    rw [List.foldl_cons, ih]
    cases definition with
    | schema s =>
      change _ = ((s :: ds.filterMap Definition.schema?).getLast?.map _).getD names
      rw [List.getLast?_cons]
      cases (ds.filterMap Definition.schema?).getLast? <;> rfl
    | _ => rfl

theorem eq_rootName_of_default {n : String} {k : OperationKind}
    (h : defaultRootNames.find? n = some k) : n = k.rootName := by
  have hmem := Registry.mem_of_find?_ofList h
  obtain ⟨k', -, he⟩ := List.mem_map.1 hmem
  obtain ⟨rfl, rfl⟩ := Prod.mk.inj he
  rfl

/-- A root has its name from a schema definition, or it has the name of its operation. -/
theorem mem_typeNames_of_rootNames {d : Document} {n : String} {k : OperationKind}
    (h : (rootNames d).find? n = some k) : n ∈ d.typeNames ∨ n = k.rootName := by
  rw [rootNames_eq] at h
  cases hs : (d.definitions.filterMap Definition.schema?).getLast? with
  | none =>
    rw [hs] at h
    exact Or.inr (eq_rootName_of_default h)
  | some s =>
    rw [hs] at h
    have hmem := Registry.mem_of_find?_ofList h
    obtain ⟨r, hr, he⟩ := List.mem_map.1 hmem
    obtain ⟨rfl, -⟩ := Prod.mk.inj he
    obtain ⟨definition, hd, hschema⟩ := List.mem_filterMap.1 (List.mem_of_getLast? hs)
    refine Or.inl (Document.mem_typeNames hd ?_)
    cases definition <;> cases hschema
    exact List.mem_map.2 ⟨r, hr, rfl⟩

/-! ## What a run makes of the types -/

namespace Types

/-- The generated types. -/
def added (types : Types) : List TypeDef :=
  types.generated.values.filterMap Definition.type?

/-- The types extend those of a document : each root has kept its name, the other types are the
same, and what was generated are types that the document does not mention. -/
structure Extends (types : Types) (d : Document) : Prop where
  defined : types.defined = (sorted d).defined
  roots : ∀ k, (types.roots.find? k).map ObjectType.name =
    ((sorted d).roots.find? k).map ObjectType.name
  generated : types.generated.entries = types.added.map fun t => (t.name, .typeDef t)
  new : ∀ t ∈ types.added, t.name ∉ d.typeNames
  noRoot : ∀ t ∈ types.added, ∀ k : OperationKind, t.name ≠ k.rootName

/-- What stands for a definition in the new document : for an object type the root or the other type
that is found under its name, nothing for an extension that was folded into its type, and for all
else the definition itself. -/
inductive Replaces (d : Document) (types : Types) : Definition → Option Definition → Prop
  | root {t root : ObjectType} {k : OperationKind} :
      (rootNames d).find? t.name.text = some k → types.roots.find? k = some root →
        Replaces d types (.typeDef (.object t)) (some (.typeDef (.object root)))
  | object {t : ObjectType} {u : TypeDef} :
      (rootNames d).find? t.name.text = none → types.defined.find? t.name.text = some u →
        Replaces d types (.typeDef (.object t)) (some (.typeDef u))
  | folded {e : ObjectType} : Replaces d types (.typeExtension (.object e)) none
  | kept {definition : Definition} : definition.objectType? = none →
      (∀ e, definition = .typeExtension (.object e) → e.name.text ∉ definedObjects d) →
        Replaces d types definition (some definition)

theorem mem_added_iff {types : Types} {t : TypeDef} :
    t ∈ types.added ↔ ∃ n, (n, .typeDef t) ∈ types.generated.entries := by
  simp [added, Registry.values, Definition.type?_eq_some_iff]

namespace Extends

variable {types : Types} {d : Document} (h : types.Extends d)
include h

theorem values_generated : types.generated.values = types.added.map .typeDef := by
  rw [Registry.values, h.generated, List.map_map]
  rfl

theorem mem_rebuild {definition : Definition} : definition ∈ (rebuild d types).definitions ↔
    (∃ old ∈ d.definitions, rebuilt d types old = some definition) ∨
      ∃ t ∈ types.added, .typeDef t = definition := by
  rw [rebuild, h.values_generated, List.mem_append, List.mem_filterMap, List.mem_map]

/-- A root of the operation is found under each of its names, and has one of them. -/
theorem find?_roots {k : OperationKind} {root : ObjectType}
    (hroot : types.roots.find? k = some root) :
    ∃ t, .typeDef (.object t) ∈ d.definitions ∧
      (rootNames d).find? t.name.text = some k ∧ root.name = t.name := by
  have hname := h.roots k
  rw [hroot, Option.map_some, eq_comm, Option.map_eq_some_iff] at hname
  obtain ⟨old, hold, hname⟩ := hname
  obtain ⟨t, ht, hk, rfl⟩ := mem_of_find?_roots hold
  exact ⟨t, ht, hk, by rw [← hname, name_extended]⟩

theorem find?_rootNames_of_added {t : TypeDef} (ht : t ∈ types.added) :
    (rootNames d).find? t.name = none := by
  refine Option.eq_none_iff_forall_ne_some.2 fun k hk => ?_
  exact (mem_typeNames_of_rootNames hk).elim (h.new t ht) (h.noRoot t ht k)

/-- A definition stands in the new document as it has to. -/
theorem replaces {definition : Definition} (hd : definition ∈ d.definitions) :
    Replaces d types definition (rebuilt d types definition) := by
  unfold rebuilt
  split
  · next t =>
    cases hk : (rootNames d).find? t.name.text with
    | some k =>
      have hsome := isSome_roots_of_mem hd hk
      rw [← Option.isSome_map (f := ObjectType.name), ← h.roots k, Option.isSome_map] at hsome
      obtain ⟨root, hroot⟩ := Option.isSome_iff_exists.1 hsome
      rw [Option.bind_some, hroot]
      exact .root hk hroot
    | none =>
      obtain ⟨u, hu⟩ := Option.isSome_iff_exists.1 (isSome_defined_of_mem hd hk)
      rw [← h.defined] at hu
      rw [hu]
      exact .object hk hu
  · next t =>
    split
    · exact .folded
    · next ht =>
      refine .kept rfl fun e he => ?_
      cases he
      simpa using ht
  · next hobject hextension =>
    refine .kept ?_ fun e he => (hextension e he).elim
    exact Option.eq_none_iff_forall_ne_some.2 fun t ht => hobject t (objectType?_eq_some_iff.1 ht)

/-! ## Sorting again -/

theorem rootNames_rebuild : rootNames (rebuild d types) = rootNames d := by
  have hold : d.definitions.filterMap (fun x => (rebuilt d types x).bind Definition.schema?) =
      d.definitions.filterMap Definition.schema? := by
    refine List.filterMap_congr fun definition hd => ?_
    have hr := h.replaces hd
    generalize rebuilt d types definition = new at hr
    cases hr <;> rfl
  have hadded : (types.added.map Definition.typeDef).filterMap Definition.schema? = [] := by
    rw [List.filterMap_map]
    exact List.filterMap_eq_nil_iff.2 fun _ _ => rfl
  rw [rootNames_eq, rootNames_eq, rebuild, h.values_generated, List.filterMap_append,
    List.filterMap_filterMap, hold, hadded, List.append_nil]

/-- An object type of the new document is the root that is found under its name, or the other type,
or a generated type. -/
theorem object_cases {t : ObjectType}
    (ht : .typeDef (.object t) ∈ (rebuild d types).definitions) :
    (∃ k, (rootNames d).find? t.name.text = some k ∧ types.roots.find? k = some t) ∨
      (rootNames d).find? t.name.text = none ∧
        (types.defined.find? t.name.text = some (.object t) ∨ .object t ∈ types.added) := by
  rcases h.mem_rebuild.1 ht with ⟨old, hold, hold'⟩ | ⟨u, hu, he⟩
  · have hr := h.replaces hold
    rw [hold'] at hr
    cases hr with
    | root hk hroot =>
      obtain ⟨v, -, hk', hname⟩ := h.find?_roots hroot
      exact Or.inl ⟨_, hname ▸ hk', hroot⟩
    | @object u _ hk hu =>
      have hname : t.name.text = u.name.text := by
        rw [h.defined] at hu
        exact name_of_find?_defined hu
      rw [hname]
      exact Or.inr ⟨hk, Or.inl hu⟩
    | kept hnone => cases hnone
  · cases he
    exact Or.inr ⟨h.find?_rootNames_of_added hu, Or.inr hu⟩

/-- An object type of the new document has no extensions there. -/
theorem extensionsOf_rebuild {t : ObjectType}
    (ht : .typeDef (.object t) ∈ (rebuild d types).definitions) :
    extensionsOf (rebuild d types) t.name.text = [] := by
  have hname : t.name.text ∈ definedObjects d ∨ ∃ u ∈ types.added, u.name = t.name.text := by
    rcases h.object_cases ht with ⟨k, -, hroot⟩ | ⟨-, hdefined | hadded⟩
    · obtain ⟨u, hu, -, hname⟩ := h.find?_roots hroot
      exact Or.inl (mem_definedObjects_iff.2 ⟨u, hu, by rw [hname]⟩)
    · rw [h.defined] at hdefined
      obtain ⟨u, hu, hname, ⟨o, rfl, -⟩ | ⟨hnone, rfl⟩⟩ := mem_of_find?_defined hdefined
      · exact Or.inl (mem_definedObjects_iff.2 ⟨o, hu, hname⟩)
      · cases hnone
    · exact Or.inr ⟨_, hadded, rfl⟩
  refine List.eq_nil_iff_forall_not_mem.2 fun e he => ?_
  obtain ⟨he, hename⟩ := mem_extensionsOf_iff.1 he
  rcases h.mem_rebuild.1 he with ⟨old, hold, hold'⟩ | ⟨u, -, hu⟩
  · have hr := h.replaces hold
    rw [hold'] at hr
    cases hr with
    | kept _ hbase =>
      rcases hname with hname | ⟨u, hu, hname⟩
      · exact hbase e rfl (hename ▸ hname)
      · refine h.new u hu (Document.mem_typeNames hold ?_)
        rw [hname, ← hename]
        exact (TypeDef.object e).name_mem_typeNames
  · cases hu

theorem extended_rebuild {t : ObjectType}
    (ht : .typeDef (.object t) ∈ (rebuild d types).definitions) :
    extended (rebuild d types) t = t :=
  extended_of_eq_nil _ (h.extensionsOf_rebuild ht)

/-- Sorting finds the same roots. -/
theorem find?_roots_rebuild (k : OperationKind) :
    (sorted (rebuild d types)).roots.find? k = types.roots.find? k := by
  have hsub : ∀ root, (sorted (rebuild d types)).roots.find? k = some root →
      types.roots.find? k = some root := by
    intro root hroot
    obtain ⟨t, ht, hk, rfl⟩ := mem_of_find?_roots hroot
    rw [h.rootNames_rebuild] at hk
    rw [h.extended_rebuild ht]
    rcases h.object_cases ht with ⟨k', hk', hroot'⟩ | ⟨hnone, -⟩
    · rw [hk] at hk'
      cases hk'
      exact hroot'
    · rw [hk] at hnone
      cases hnone
  refine Option.ext fun root => ⟨hsub root, fun hroot => ?_⟩
  obtain ⟨t, ht, hk, hname⟩ := h.find?_roots hroot
  have hr : rebuilt d types (.typeDef (.object t)) = some (.typeDef (.object root)) := by
    rw [rebuilt, hk, Option.bind_some, hroot]
  rw [← hname, ← h.rootNames_rebuild] at hk
  obtain ⟨root', hroot'⟩ := Option.isSome_iff_exists.1
    (isSome_roots_of_mem (h.mem_rebuild.2 (Or.inl ⟨_, ht, hr⟩)) hk)
  rw [hroot', ← hsub root' hroot', hroot]

theorem asDefined?_rebuild {u : TypeDef} (hu : .typeDef u ∈ (rebuild d types).definitions)
    (hroot : (rootNames d).find? u.name = none) :
    asDefined? (rebuild d types) (.typeDef u) = some (u.name, u) := by
  cases u with
  | object t =>
    have hroot' : (rootNames d).find? t.name.text = none := hroot
    rw [asDefined?, h.rootNames_rebuild, hroot', h.extended_rebuild hu]
    rfl
  | _ => rfl

/-- What stands for a definition has the same entry among the types as the definition, or at its
place the type that counts in the end. -/
theorem asDefined?_rebuilt {definition : Definition} (hd : definition ∈ d.definitions) :
    (rebuilt d types definition).bind (asDefined? (rebuild d types)) = asDefined? d definition ∨
      ∃ n u v, asDefined? d definition = some (n, u) ∧ types.defined.find? n = some v ∧
        (rebuilt d types definition).bind (asDefined? (rebuild d types)) = some (n, v) := by
  have hr := h.replaces hd
  generalize hnew : rebuilt d types definition = new at hr
  cases hr with
  | root hk hroot =>
    obtain ⟨v, -, hk', hname⟩ := h.find?_roots hroot
    rw [← hname, ← h.rootNames_rebuild] at hk'
    exact Or.inl (by rw [Option.bind_some, asDefined?, asDefined?, hk, hk']; rfl)
  | @object t u hk hu =>
    have hname : u.name = t.name.text := by
      rw [h.defined] at hu
      exact name_of_find?_defined hu
    have hu' := h.asDefined?_rebuild (h.mem_rebuild.2 (Or.inl ⟨_, hd, hnew⟩)) (hname ▸ hk)
    refine Or.inr ⟨_, _, u, by rw [asDefined?, hk]; rfl, hu, ?_⟩
    rw [Option.bind_some, hu', hname]
  | folded => exact Or.inl rfl
  | kept hnone =>
    refine Or.inl ?_
    cases definition with
    | typeDef t => cases t <;> first | rfl | cases hnone
    | _ => rfl

theorem notMem_keys_defined {t : TypeDef} (ht : t ∈ types.added) : t.name ∉ types.defined.keys := by
  intro hkey
  obtain ⟨u, hu⟩ := Option.isSome_iff_exists.1 ((types.defined.isSome_find?_iff t.name).2 hkey)
  rw [h.defined] at hu
  obtain ⟨v, hv, hname, -⟩ := mem_of_find?_defined hu
  exact h.new t ht (Document.mem_typeNames hv (hname ▸ v.name_mem_typeNames))

/-- Sorting finds the same types, and behind them the generated ones. -/
theorem entries_defined_rebuild : (sorted (rebuild d types)).defined.entries =
    types.defined.entries ++ types.added.map fun t => (t.name, t) := by
  have hdefinitions : (rebuild d types).definitions =
      d.definitions.filterMap (rebuilt d types) ++ types.added.map .typeDef := by
    rw [rebuild, h.values_generated]
  have hold : Registry.empty.insertAll (d.definitions.filterMap fun x =>
      (rebuilt d types x).bind (asDefined? (rebuild d types))) = types.defined := by
    rw [h.defined]
    refine Registry.insertAll_filterMap_congr (fun x hx => ?_) (fun x hx e he => ?_) rfl
      fun _ => Or.inl rfl
    · rcases h.asDefined?_rebuilt hx with hx | ⟨n, u, v, hu, -, hv⟩
      · rw [hx]
      · rw [hu, hv]
        rfl
    · rcases h.asDefined?_rebuilt hx with hx | ⟨n, u, v, -, hfind, hv⟩
      · exact Or.inl (hx ▸ he)
      · rw [hv] at he
        cases he
        rw [h.defined] at hfind
        exact Or.inr hfind
  have hadded : (types.added.map Definition.typeDef).filterMap (asDefined? (rebuild d types)) =
      types.added.map fun t => (t.name, t) := by
    rw [List.filterMap_map, ← List.filterMap_eq_map]
    refine List.filterMap_congr fun t ht => ?_
    exact h.asDefined?_rebuild (h.mem_rebuild.2 (Or.inr ⟨t, ht, rfl⟩))
      (h.find?_rootNames_of_added ht)
  have hkeys : (types.added.map fun t => (t.name, t)).map Prod.fst = types.generated.keys := by
    rw [Registry.keys, h.generated, List.map_map, List.map_map]
    rfl
  change (Registry.empty.insertAll ((rebuild d types).definitions.filterMap
    (asDefined? (rebuild d types)))).entries = _
  rw [hdefinitions, List.filterMap_append, List.filterMap_filterMap, hadded,
    Registry.insertAll_append, hold]
  refine Registry.entries_insertAll_of_nodup (hkeys ▸ types.generated.nodup_keys) fun k hk => ?_
  rw [List.map_map] at hk
  obtain ⟨t, ht, rfl⟩ := List.mem_map.1 hk
  exact h.notMem_keys_defined ht

/-- Sorted and put together once more, the new document stays as it is. -/
theorem rebuild_rebuild :
    rebuild (rebuild d types) (sorted (rebuild d types)) = rebuild d types := by
  have hsome : ∀ definition ∈ (rebuild d types).definitions,
      rebuilt (rebuild d types) (sorted (rebuild d types)) definition = some definition := by
    intro definition hd
    unfold rebuilt
    split
    · next t =>
      rw [h.rootNames_rebuild]
      rcases h.object_cases hd with ⟨k, hk, hroot⟩ | ⟨hk, ht⟩
      · rw [hk, Option.bind_some, h.find?_roots_rebuild, hroot]
      · have hmem : (t.name.text, .object t) ∈ (sorted (rebuild d types)).defined.entries := by
          rw [h.entries_defined_rebuild]
          rcases ht with ht | ht
          · exact List.mem_append_left _ (Registry.mem_entries_iff.2 ht)
          · exact List.mem_append_right _ (List.mem_map.2 ⟨_, ht, rfl⟩)
        rw [hk, Registry.mem_entries_iff.1 hmem]
        rfl
    · next e =>
      split
      · next he =>
        obtain ⟨t, ht, hname⟩ := mem_definedObjects_iff.1 (List.contains_iff_mem.1 he)
        have hnil := h.extensionsOf_rebuild ht
        rw [hname] at hnil
        exact absurd (mem_extensionsOf_iff.2 ⟨hd, rfl⟩) (hnil ▸ List.not_mem_nil)
      · rfl
    · rfl
  change Document.mk ((rebuild d types).definitions.filterMap
    (rebuilt (rebuild d types) (sorted (rebuild d types))) ++ []) = _
  rw [List.append_nil, List.filterMap_congr hsome, List.filterMap_some]

end Extends

end Types

end Schema

end RelationApi

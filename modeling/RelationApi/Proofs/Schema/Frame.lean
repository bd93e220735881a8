import RelationApi.Proofs.Schema.Sorting

/-!
# What a run leaves alone

Sorting a document and putting it together again are two passes with lookups of their own. They
agree if the type definitions have different names and no two object types are roots of the same
operation : then each object type finds itself again, with its extensions, and only the mutation
root gets more (`rebuilt_eq_survivor`).

`augment_definitions` is the shape of the new document : the old definitions at their places,
without the extensions that were folded into their types, and the generated types at the end.
-/

namespace RelationApi.Schema

open Sdl

/-- The type definitions of the document have different names. -/
def DistinctNames (d : Document) : Prop :=
  ((d.definitions.filterMap Definition.type?).map TypeDef.name).Nodup

instance (d : Document) : Decidable (DistinctNames d) := inferInstanceAs (Decidable (List.Nodup _))

/-- Each operation has at most one of the document's object types as its root. -/
def SingleRoots (d : Document) : Prop :=
  ∀ n ∈ definedObjects d, ∀ n' ∈ definedObjects d, ∀ k,
    (rootNames d).find? n = some k → (rootNames d).find? n' = some k → n = n'

instance (d : Document) : Decidable (SingleRoots d) :=
  decidable_of_iff (∀ n ∈ definedObjects d, ∀ n' ∈ definedObjects d, ∀ k ∈ (rootNames d).find? n,
    (rootNames d).find? n' = some k → n = n') (by simp [SingleRoots])

/-- What becomes of a definition : an object type has the parts of its extensions after its own, and
the mutation root the added fields after these; the extensions of object types that are defined
vanish; all else is kept. -/
def survivor (d : Document) (added : List Field) : Definition → Option Definition
  | .typeDef (.object t) =>
    some (.typeDef (.object { t with
      interfaces := t.interfaces ++ (extensionsOf d t.name.text).flatMap ObjectType.interfaces
      directives := t.directives ++ (extensionsOf d t.name.text).flatMap ObjectType.directives
      fields := t.fields ++ (extensionsOf d t.name.text).flatMap ObjectType.fields ++
        if (rootNames d).find? t.name.text = some .mutation then added else [] }))
  | .typeExtension (.object e) =>
    if e.name.text ∈ definedObjects d then none else some (.typeExtension (.object e))
  | definition => some definition

variable {d : Document}

theorem survivor_object (added : List Field) (t : ObjectType) :
    survivor d added (.typeDef (.object t)) = some (.typeDef (.object ((extended d t).extend
      (if (rootNames d).find? t.name.text = some .mutation then added else [])))) := by
  rw [survivor, extended_eq]
  rfl

/-! ## Types find themselves again -/

theorem DistinctNames.eq_of_name_eq (h : DistinctNames d) {t u : TypeDef}
    (ht : .typeDef t ∈ d.definitions) (hu : .typeDef u ∈ d.definitions) (hn : t.name = u.name) :
    t = u := by
  have hmem : ∀ {v : TypeDef}, .typeDef v ∈ d.definitions →
      v ∈ d.definitions.filterMap Definition.type? := fun hv => List.mem_filterMap.2 ⟨_, hv, rfl⟩
  exact List.inj_on_of_nodup_map h (hmem ht) (hmem hu) hn

/-- A type has a name that no other definition of a type has. -/
theorem DistinctNames.name_ne (h : DistinctNames d) {before after : List Definition}
    {t u : TypeDef} (hd : d.definitions = before ++ .typeDef t :: after)
    (hu : .typeDef u ∈ before ++ after) : u.name ≠ t.name := by
  intro hname
  have ht : Definition.type? (.typeDef t) = some t := rfl
  rw [DistinctNames, hd, List.filterMap_append, List.filterMap_cons_some ht, List.map_append,
    List.map_cons, List.nodup_middle, List.nodup_cons, ← List.map_append,
    ← List.filterMap_append] at h
  exact h.1 (List.mem_map.2 ⟨u, List.mem_filterMap.2 ⟨_, hu, rfl⟩, hname⟩)

theorem find?_defined_sorted (h : DistinctNames d) {t : ObjectType}
    (ht : .typeDef (.object t) ∈ d.definitions) (hroot : (rootNames d).find? t.name.text = none) :
    (sorted d).defined.find? t.name.text = some (.object (extended d t)) := by
  obtain ⟨u, hu⟩ := Option.isSome_iff_exists.1 (isSome_defined_of_mem ht hroot)
  obtain ⟨v, hv, hname, hcase⟩ := mem_of_find?_defined hu
  obtain rfl := h.eq_of_name_eq hv ht hname
  rcases hcase with ⟨o, ho, -, rfl⟩ | ⟨hnone, -⟩
  · rw [hu, TypeDef.object.inj ho]
  · cases hnone

theorem find?_roots_sorted (h : DistinctNames d) (hroots : SingleRoots d) {t : ObjectType}
    (ht : .typeDef (.object t) ∈ d.definitions) {k : OperationKind}
    (hk : (rootNames d).find? t.name.text = some k) :
    (sorted d).roots.find? k = some (extended d t) := by
  obtain ⟨root, hroot⟩ := Option.isSome_iff_exists.1 (isSome_roots_of_mem ht hk)
  obtain ⟨u, hu, hk', rfl⟩ := mem_of_find?_roots hroot
  have hname : u.name.text = t.name.text :=
    hroots _ (mem_definedObjects_iff.2 ⟨u, hu, rfl⟩) _ (mem_definedObjects_iff.2 ⟨t, ht, rfl⟩) k
      hk' hk
  rw [hroot, TypeDef.object.inj (h.eq_of_name_eq hu ht hname)]

/-- A type is the root of an operation if the operation's root has its name. -/
theorem find?_rootNames_eq_some_iff (h : DistinctNames d) (hroots : SingleRoots d) {t : ObjectType}
    (ht : .typeDef (.object t) ∈ d.definitions) {k : OperationKind} :
    (rootNames d).find? t.name.text = some k ↔
      ((sorted d).roots.find? k).map (fun root => root.name.text) = some t.name.text := by
  constructor
  · intro hk
    rw [find?_roots_sorted h hroots ht hk, Option.map_some, name_extended]
  · intro hname
    obtain ⟨root, hroot, hname⟩ := Option.map_eq_some_iff.1 hname
    obtain ⟨u, -, hk, rfl⟩ := mem_of_find?_roots hroot
    rw [name_extended] at hname
    rwa [← hname]

/-- Each definition is replaced by what is to become of it. -/
theorem rebuilt_eq_survivor (h : DistinctNames d) (hroots : SingleRoots d) (s : Settings)
    (ms : List Mutation) {definition : Definition} (hd : definition ∈ d.definitions) :
    rebuilt d (ms.foldl (Types.offer s) (sorted d)) definition =
      survivor d (((sorted d).taken ms).map fun m => m.field s) definition := by
  obtain ⟨hdefined, -, hothers⟩ := Types.foldl_offer_frame s (sorted d) ms
  unfold rebuilt
  split
  · next t =>
    rw [survivor_object]
    cases hk : (rootNames d).find? t.name.text with
    | none =>
      rw [hdefined, find?_defined_sorted h hd hk]
      simp
    | some k =>
      have hroot := find?_roots_sorted h hroots hd hk
      by_cases hkm : k = .mutation
      · subst hkm
        simp [Types.find?_roots_foldl_offer, hroot]
      · simp [hothers k hkm, hroot, hkm]
  · next t => simp [survivor]
  · next h1 h2 => cases definition <;> simp_all [survivor]

/-- The new document, if the type definitions have different names and no two object types are roots
of the same operation. -/
theorem augment_definitions {d' : Document} {resolved : Except SettingsFault Settings}
    (hnames : DistinctNames d) (hroots : SingleRoots d)
    (h : (augment d resolved).result = .ok d') :
    ∃ s found types, resolved = .ok s ∧ Relationship.collect (sorted d).defined = .ok found ∧
      (augmentedTypes d resolved).result = .ok types ∧
      types.generated = .ofList (((sorted d).taken (s.offers found)).flatMap Mutation.generated) ∧
      d'.definitions =
        d.definitions.filterMap
          (survivor d (((sorted d).taken (s.offers found)).map fun m => m.field s)) ++
        types.generated.values := by
  obtain ⟨types, htypes, rfl⟩ := augment_eq_ok_iff.1 h
  obtain ⟨s, found, hs, hfound, -, hoffers⟩ := augmentedTypes_eq_ok_iff.1 htypes
  refine ⟨s, found, types, hs, hfound, htypes, ?_, ?_⟩
  · rw [hoffers, Types.generated_foldl_offer]
    rfl
  · refine congrArg (· ++ types.generated.values) (List.filterMap_congr fun definition hd => ?_)
    rw [hoffers]
    exact rebuilt_eq_survivor hnames hroots s _ hd

/-- An extension before its type, one without a type, and a mutation root of another name : the
first vanishes, the second stays, and the fields are added to the root. -/
theorem augment_definitions_extension_first :
    let since : Field := { name := { text := "since" }, type := .ofName "Int" }
    let knows : Field := {
      name := { text := "knows" }, type := .ofName "Person"
      directives := [(Binding.mk ⟨.text "KNOWS", .missing, .missing⟩ .missing).toDirective] }
    let ghost : Definition :=
      .typeExtension (.object { name := { text := "Ghost" }, fields := [since] })
    let schema : Definition := .schema { roots := [(.mutation, { text := "Change" })] }
    let d : Document := ⟨[
      .typeExtension (.object { name := { text := "Person" }, fields := [since] }), schema,
      .typeDef (.object { name := { text := "Person" }, fields := [knows] }), ghost,
      .typeDef (.object { name := { text := "Change" } })]⟩
    DistinctNames d ∧ SingleRoots d ∧ ∃ d' types added, (augment d (.ok {})).result = .ok d' ∧
      (augmentedTypes d (.ok {})).result = .ok types ∧
      d'.definitions = [schema,
        .typeDef (.object { name := { text := "Person" }, fields := [knows, since] }), ghost,
        .typeDef (.object { name := { text := "Change" }, fields := added })] ++
        types.generated.values := by
  intro since knows ghost schema d
  have hnames : DistinctNames d := by
    unfold DistinctNames
    decide
  have hroot : ∀ {n k}, (Registry.ofList [("Change", OperationKind.mutation)]).find? n = some k →
      n = "Change" := fun h =>
    (Prod.mk.inj (List.mem_singleton.1 (Registry.mem_of_find?_ofList h))).1
  have hroots : SingleRoots d := fun n _ n' _ k hk hk' => (hroot hk).trans (hroot hk').symm
  have hok : (augment d (.ok {})).result.isOk = true := by decide
  cases h : (augment d (.ok {})).result with
  | error e => simp [h, Except.isOk, Except.toBool] at hok
  | ok d' =>
    obtain ⟨s, found, types, -, -, htypes, -, hd'⟩ := augment_definitions hnames hroots h
    exact ⟨hnames, hroots, d', types, _, rfl, htypes, hd'⟩

end RelationApi.Schema

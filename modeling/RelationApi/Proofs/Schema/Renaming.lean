import RelationApi.Proofs.Schema.Places
import RelationApi.Proofs.Schema.Rebuilding

/-!
# The name of the mutation root

Without a schema definition the mutation root is the object type `Mutation`. It may as well have
another name, if a schema definition says so (`Document.renamed`). A run over the renamed document
fails as the run over the document itself does, or gives the same document with the root renamed and
the schema definition behind the user's definitions, and the same generated types
(`augment_renamed`).

Only the definitions and extensions of the root get the new name, references to it keep the old one.
This makes no difference : a root is never looked up by a reference. So sorting the renamed document
finds the same types, apart from the name of the root (`sorted_renamed`), and all that follows
either leaves this name alone or copies it.
-/

namespace RelationApi

open Sdl

namespace Sdl

/-! ## Renamed documents -/

/-- The name of a type where the mutation root is called `m`. -/
def renameRoot (m n : String) : String := if n = "Mutation" then m else n

theorem renameRoot_of_ne (m : String) {n : String} (h : n ≠ "Mutation") : renameRoot m n = n :=
  if_neg h

/-- Names other than the new one stay apart. -/
theorem renameRoot_inj {m n n' : String} (hn : n ≠ m) (hn' : n' ≠ m) :
    renameRoot m n = renameRoot m n' ↔ n = n' := by
  unfold renameRoot
  split_ifs with h h' h'
  · simp [h, h']
  · exact iff_of_false (fun he => hn' he.symm) (fun he => h' (he ▸ h))
  · exact iff_of_false hn (fun he => h (he ▸ h'))
  · exact Iff.rfl

/-- The type or extension, with the new name if it is that of the mutation root. -/
def ObjectType.renamed (m : String) (t : ObjectType) : ObjectType :=
  { t with name := { t.name with text := renameRoot m t.name.text } }

/-- A type with another name stays as it is. -/
theorem ObjectType.renamed_of_ne (m : String) {t : ObjectType} (h : t.name.text ≠ "Mutation") :
    t.renamed m = t := by
  rw [renamed, renameRoot_of_ne m h]

/-- The definition, where definitions and extensions of the mutation root have the new name. -/
def Definition.renamed (m : String) : Definition → Definition
  | typeDef (.object t) => typeDef (.object (t.renamed m))
  | typeExtension (.object e) => typeExtension (.object (e.renamed m))
  | definition => definition

/-- A definition with another name stays as it is. -/
theorem Definition.renamed_of_ne (m : String) {definition : Definition}
    (h : definition.name? ≠ some "Mutation") : definition.renamed m = definition := by
  unfold renamed
  split
  · rw [ObjectType.renamed_of_ne m fun he => h (congrArg some he)]
  · rw [ObjectType.renamed_of_ne m fun he => h (congrArg some he)]
  · rfl

/-- The schema definition that calls the mutation root `m`, and each other root what it is called
anyway. -/
def namingSchema (m : String) : Definition :=
  .schema {
    roots := [(.query, { text := "Query" }), (.mutation, { text := m }),
      (.subscription, { text := "Subscription" })] }

/-- The document with the mutation root renamed, and a schema definition that says so. -/
def Document.renamed (m : String) (d : Document) : Document :=
  ⟨d.definitions.map (Definition.renamed m) ++ [namingSchema m]⟩

/-- What is taken from a renamed document, if nothing is taken from the schema definition at its
end. -/
theorem Document.filterMap_renamed {β : Type} (m : String) (d : Document)
    {f : Definition → Option β} (h : f (namingSchema m) = none) :
    (d.renamed m).definitions.filterMap f =
      d.definitions.filterMap fun definition => f (definition.renamed m) := by
  rw [renamed, List.filterMap_append, List.filterMap_map, List.filterMap_cons_none h,
    List.filterMap_nil, List.append_nil]
  rfl

end Sdl

namespace Schema

/-- The types with the mutation root renamed. -/
def Types.renamed (m : String) (types : Types) : Types :=
  { types with roots := types.roots.map (ObjectType.renamed m) }

/-- The mutation root of the document has the name that it has without a schema definition, and it
can be called `m` : nothing else is. -/
structure FreshRoot (m : String) (d : Document) : Prop where
  no_schema : ∀ s, .schema s ∉ d.definitions
  unnamed : ∀ definition ∈ d.definitions, definition.name? ≠ some m
  ne_query : m ≠ "Query"
  ne_subscription : m ≠ "Subscription"

variable {m : String} {d : Document}

/-! ## Lookups -/

/-- No type of the document has the new name. -/
theorem FreshRoot.name_ne (h : FreshRoot m d) {t : TypeDef}
    (ht : .typeDef t ∈ d.definitions ∨ .typeExtension t ∈ d.definitions) : t.name ≠ m := by
  rintro rfl
  exact ht.elim (h.unnamed _ · rfl) (h.unnamed _ · rfl)

/-- Without a schema definition the roots have their usual names. -/
theorem FreshRoot.rootNames_eq (h : FreshRoot m d) : rootNames d = defaultRootNames := by
  have hnone : d.definitions.filterMap Definition.schema? = [] := by
    refine List.filterMap_eq_nil_iff.2 fun definition hd => ?_
    cases definition with
    | schema s => exact (h.no_schema s hd).elim
    | _ => rfl
  rw [Schema.rootNames_eq, hnone]
  rfl

/-- The new root is the root of mutations, and else nothing has changed. -/
theorem find?_rootNames_renamed (h : FreshRoot m d) {n : String} (hn : n ≠ m) :
    (rootNames (d.renamed m)).find? (renameRoot m n) = (rootNames d).find? n := by
  have hrenamed : rootNames (d.renamed m) =
      .ofList [("Query", .query), (m, .mutation), ("Subscription", .subscription)] := by
    rw [Schema.rootNames_eq, Document.renamed, List.filterMap_append]
    exact congrArg (fun s => (Option.map _ s).getD _) List.getLast?_concat
  have hdefault : defaultRootNames =
      .ofList [("Query", .query), ("Mutation", .mutation), ("Subscription", .subscription)] :=
    rfl
  rw [hrenamed, h.rootNames_eq, hdefault, renameRoot]
  split_ifs with hmutation
  · simp [Registry.ofList, Registry.find?_insert, hmutation, h.ne_subscription]
  · simp [Registry.ofList, Registry.find?_insert, hmutation, hn]

/-- The same object types are defined, under their new names. -/
theorem definedObjects_renamed (m : String) (d : Document) :
    definedObjects (d.renamed m) = (definedObjects d).map (renameRoot m) := by
  rw [definedObjects, d.filterMap_renamed m rfl, definedObjects, List.map_filterMap]
  refine List.filterMap_congr fun definition _ => ?_
  cases definition with
  | typeDef t => cases t <;> rfl
  | typeExtension t => cases t <;> rfl
  | _ => rfl

/-- A type has the same extensions under its new name. -/
theorem extensionsOf_renamed (h : FreshRoot m d) {n : String} (hn : n ≠ m) :
    extensionsOf (d.renamed m) (renameRoot m n) =
      (extensionsOf d n).map (ObjectType.renamed m) := by
  rw [extensionsOf, d.filterMap_renamed m rfl, extensionsOf, List.map_filterMap]
  refine List.filterMap_congr fun definition hd => ?_
  cases definition with
  | typeDef t => cases t <;> rfl
  | typeExtension t =>
    cases t with
    | object e =>
      have hname : renameRoot m e.name.text = renameRoot m n ↔ e.name.text = n :=
        renameRoot_inj (h.name_ne (Or.inr hd)) hn
      change Option.filter _ (some (e.renamed m)) = (Option.filter _ (some e)).map _
      rw [Option.filter_some, Option.filter_some]
      by_cases he : e.name.text = n
      · simp [he, ObjectType.renamed]
      · simp [he, ObjectType.renamed, hname]
    | _ => rfl
  | _ => rfl

/-- A type is extended by the same parts under its new name. -/
theorem extended_renamed (h : FreshRoot m d) {t : ObjectType} (ht : t.name.text ≠ m) :
    extended (d.renamed m) (t.renamed m) = (extended d t).renamed m := by
  rw [extended, extended]
  change (extensionsOf (d.renamed m) (renameRoot m t.name.text)).foldl _ _ = _
  rw [extensionsOf_renamed h ht, List.foldl_map]
  exact List.foldl_hom (ObjectType.renamed m) fun _ _ => rfl

/-! ## Sorting -/

/-- A definition is a root or not, as before. -/
theorem asRoot?_renamed (h : FreshRoot m d) {definition : Definition}
    (hd : definition ∈ d.definitions) : asRoot? (d.renamed m) (definition.renamed m) =
      (asRoot? d definition).map (Prod.map id (ObjectType.renamed m)) := by
  cases definition with
  | typeDef t =>
    cases t with
    | object t =>
      have ht : t.name.text ≠ m := h.name_ne (Or.inl hd)
      change ((rootNames (d.renamed m)).find? (renameRoot m t.name.text)).map _ =
        (((rootNames d).find? t.name.text).map _).map _
      rw [find?_rootNames_renamed h ht, extended_renamed h ht, Option.map_map]
      rfl
    | _ => rfl
  | typeExtension t => cases t <;> rfl
  | _ => rfl

/-- The type with the new name is a root, so it is none of the other types. -/
theorem asDefined?_renamed (h : FreshRoot m d) {definition : Definition}
    (hd : definition ∈ d.definitions) :
    asDefined? (d.renamed m) (definition.renamed m) = asDefined? d definition := by
  cases definition with
  | typeDef t =>
    cases t with
    | object t =>
      have ht : t.name.text ≠ m := h.name_ne (Or.inl hd)
      change (if ((rootNames (d.renamed m)).find? (renameRoot m t.name.text)).isSome then none
        else _) = _
      rw [find?_rootNames_renamed h ht, asDefined?, extended_renamed h ht]
      split_ifs with hroot
      · rfl
      · have hne : t.name.text ≠ "Mutation" := fun he => hroot (by rw [he, h.rootNames_eq]; rfl)
        rw [ObjectType.renamed_of_ne m hne, ObjectType.renamed_of_ne m (by rwa [name_extended])]
    | _ => rfl
  | typeExtension t => cases t <;> rfl
  | _ => rfl

/-- Sorting finds the same types, but for the name of the mutation root. -/
theorem sorted_renamed (h : FreshRoot m d) : sorted (d.renamed m) = (sorted d).renamed m := by
  have hdefined : (d.renamed m).definitions.filterMap (asDefined? (d.renamed m)) =
      d.definitions.filterMap (asDefined? d) := by
    rw [d.filterMap_renamed m rfl]
    exact List.filterMap_congr fun definition hd => asDefined?_renamed h hd
  have hroots : (d.renamed m).definitions.filterMap (asRoot? (d.renamed m)) =
      (d.definitions.filterMap (asRoot? d)).map (Prod.map id (ObjectType.renamed m)) := by
    rw [d.filterMap_renamed m rfl, List.map_filterMap]
    exact List.filterMap_congr fun definition hd => asRoot?_renamed h hd
  rw [sorted, hdefined, hroots, Registry.ofList_map]
  rfl

/-! ## Augmenting -/

theorem Types.find?_roots_renamed (m : String) (types : Types) (k : OperationKind) :
    (types.renamed m).roots.find? k = (types.roots.find? k).map (ObjectType.renamed m) :=
  types.roots.find?_map _ k

/-- A root takes the same mutations under any name of its own. -/
theorem Types.foldl_offer_renamed (m : String) (s : Settings) (ms : List Mutation)
    (types : Types) :
    ms.foldl (offer s) (types.renamed m) = (ms.foldl (offer s) types).renamed m := by
  cases hroot : types.roots.find? .mutation with
  | none =>
    rw [foldl_offer_of_none s types hroot]
    exact foldl_offer_of_none s _ (by rw [find?_roots_renamed, hroot]; rfl) ms
  | some root =>
    have hroot' : (types.renamed m).roots.find? .mutation = some (root.renamed m) := by
      rw [find?_roots_renamed, hroot]
      rfl
    rw [foldl_offer_of_some s ms hroot, foldl_offer_of_some s ms hroot', renamed, renamed,
      ← Registry.insert_map]
    rfl

/-- The types that a run ends with have the root renamed, or it has the same fault. -/
theorem result_augmentedTypes_renamed (h : FreshRoot m d)
    (resolved : Except SettingsFault Settings) : (augmentedTypes (d.renamed m) resolved).result =
      Types.renamed m <$> (augmentedTypes d resolved).result := by
  have hcollect : Relationship.collect (sorted (d.renamed m)).defined =
      Relationship.collect (sorted d).defined := by
    rw [sorted_renamed h]
    rfl
  have hroot : ((sorted (d.renamed m)).roots.find? .mutation).isSome =
      ((sorted d).roots.find? .mutation).isSome := by
    rw [sorted_renamed h, Types.find?_roots_renamed, Option.isSome_map]
  rcases augmentedTypes_congr hcollect hroot resolved with
    ⟨fault, hrun, hrun'⟩ | ⟨s, found, hrun, hrun'⟩
  · rw [hrun, hrun']
    rfl
  · rw [hrun, hrun', sorted_renamed h, Types.foldl_offer_renamed]
    rfl

/-! ## Putting together -/

variable {resolved : Except SettingsFault Settings} {types : Types}

/-- What takes the place of a definition has the root renamed. -/
theorem rebuilt_renamed (h : FreshRoot m d)
    (htypes : (augmentedTypes d resolved).result = .ok types) {definition : Definition}
    (hd : definition ∈ d.definitions) :
    rebuilt (d.renamed m) (types.renamed m) (definition.renamed m) =
      (rebuilt d types definition).map (Definition.renamed m) := by
  cases definition with
  | typeDef t =>
    cases t with
    | object t =>
      have ht : t.name.text ≠ m := h.name_ne (Or.inl hd)
      have hroot : ((rootNames (d.renamed m)).find? (t.renamed m).name.text).bind
          (types.renamed m).roots.find? =
            (((rootNames d).find? t.name.text).bind types.roots.find?).map
              (ObjectType.renamed m) := by
        rw [ObjectType.renamed, find?_rootNames_renamed h ht, Option.map_bind]
        exact congrArg (Option.bind _) (funext (types.find?_roots_renamed m))
      rw [Definition.renamed, rebuilt, rebuilt, hroot]
      cases hnone : ((rootNames d).find? t.name.text).bind types.roots.find? with
      | some root => rfl
      | none =>
        -- The type is no root, so neither it nor what is found for it has the old name.
        obtain ⟨hnoroot, u, hu, hname⟩ := found_of_mem hd htypes hnone
        have hne : t.name.text ≠ "Mutation" := fun he => by
          rw [he, h.rootNames_eq] at hnoroot
          cases hnoroot
        have hkeep : (Definition.typeDef u).renamed m = .typeDef u :=
          Definition.renamed_of_ne m fun he => hne (hname ▸ Option.some.inj he)
        change some (Definition.typeDef ((types.defined.find? (renameRoot m t.name.text)).getD _)) =
          some ((Definition.typeDef ((types.defined.find? t.name.text).getD _)).renamed m)
        rw [renameRoot_of_ne m hne, hu, Option.getD_some, Option.getD_some, hkeep]
    | _ => rfl
  | typeExtension t =>
    cases t with
    | object e =>
      have hcontains : (definedObjects (d.renamed m)).contains (renameRoot m e.name.text) =
          (definedObjects d).contains e.name.text := by
        have he : e.name.text ≠ m := h.name_ne (Or.inr hd)
        rw [definedObjects_renamed, Bool.eq_iff_iff, List.contains_iff_mem, List.contains_iff_mem,
          List.mem_map]
        constructor
        · rintro ⟨n, hn, hname⟩
          obtain ⟨t, ht, rfl⟩ := mem_definedObjects_iff.1 hn
          rwa [← (renameRoot_inj (h.name_ne (Or.inl ht)) he).1 hname]
        · exact fun hmem => ⟨_, hmem, rfl⟩
      change (if (definedObjects (d.renamed m)).contains (renameRoot m e.name.text) then none
        else _) = _
      rw [hcontains, rebuilt]
      split_ifs <;> rfl
    | _ => rfl
  | _ => rfl

/-- The new document has the root renamed in the user's part, and the schema definition before the
generated types. -/
theorem rebuild_renamed (h : FreshRoot m d)
    (htypes : (augmentedTypes d resolved).result = .ok types) :
    rebuild (d.renamed m) (types.renamed m) =
      ⟨(d.definitions.filterMap (rebuilt d types)).map (Definition.renamed m) ++
        namingSchema m :: types.generated.values⟩ := by
  have huser : d.definitions.filterMap (fun definition =>
      rebuilt (d.renamed m) (types.renamed m) (definition.renamed m)) =
        (d.definitions.filterMap (rebuilt d types)).map (Definition.renamed m) := by
    rw [List.map_filterMap]
    exact List.filterMap_congr fun definition hd => rebuilt_renamed h htypes hd
  have hschema : [namingSchema m].filterMap (rebuilt (d.renamed m) (types.renamed m)) =
      [namingSchema m] :=
    rfl
  rw [rebuild]
  change (Document.mk ((d.definitions.map (Definition.renamed m) ++ [namingSchema m]).filterMap _ ++
    types.generated.values)) = _
  rw [List.filterMap_append, List.filterMap_map, hschema, List.append_assoc]
  exact congrArg (fun ds => Document.mk (ds ++ _)) huser

/-- The mutation root can have any name. Let a document have no schema definition, and let `m` be
the name of nothing in it and of no other root. If `d'` is, up to places, the document with the
mutation root renamed to `m` and a schema definition at the end that says so, then a run fails on
both with the same fault, or succeeds on both. Then the user's part of the new document has the root
renamed as well, the schema definition follows, and the generated types are the same up to
places. -/
theorem augment_renamed (h : FreshRoot m d) {d' : Document}
    (hd' : d'.placeless = (d.renamed m).placeless) (resolved : Except SettingsFault Settings) :
    (∃ fault, (augment d resolved).result = .error fault ∧
      (augment d' resolved).result = .error fault) ∨
    ∃ types types' user out',
      (augmentedTypes d resolved).result = .ok types ∧
      (augmentedTypes d' resolved).result = .ok types' ∧
      (augment d resolved).result = .ok ⟨user ++ types.generated.values⟩ ∧
      (augment d' resolved).result = .ok out' ∧
      out'.placeless = Document.placeless
        ⟨user.map (Definition.renamed m) ++ namingSchema m :: types.generated.values⟩ ∧
      types'.generated.map Definition.placeless = types.generated.map Definition.placeless := by
  have htypes' : Types.placeless <$> (augmentedTypes d' resolved).result =
      Types.placeless <$> Types.renamed m <$> (augmentedTypes d resolved).result := by
    rw [← result_augmentedTypes_renamed h, ← result_augmentedTypes_placeless, hd',
      result_augmentedTypes_placeless]
  have hout' : Document.placeless <$> (augment d' resolved).result =
      Document.placeless <$> (augment (d.renamed m) resolved).result := by
    rw [← augment_placeless, hd', augment_placeless]
  have hrenamed := result_augmentedTypes_renamed h resolved
  cases hrun : (augmentedTypes d resolved).result with
  | error fault =>
    rw [hrun] at htypes'
    refine Or.inl ⟨fault, augment_eq_error_iff.2 hrun, augment_eq_error_iff.2 ?_⟩
    exact except_map_eq_error_iff.1 htypes'
  | ok types =>
    rw [hrun] at htypes' hrenamed
    obtain ⟨types', hrun', htypes'⟩ := except_map_eq_ok_iff.1 htypes'
    rw [augment_eq_ok_iff.2 ⟨_, hrenamed, rfl⟩, rebuild_renamed h hrun] at hout'
    obtain ⟨out', hout', hplaceless⟩ := except_map_eq_ok_iff.1 hout'
    refine Or.inr ⟨types, types', _, out', rfl, hrun', augment_eq_ok_iff.2 ⟨types, hrun, rfl⟩,
      hout', hplaceless, congrArg Types.generated htypes'⟩

/-- A root with an extension in front of it, and a field that refers to the root. The renamed
document has places of its own, and its field refers to a type that is not there. -/
theorem augment_renamed_extended :
    let field (name type : String) (ds : List Directive) : Field :=
      { name := { text := name }, type := .ofName type, directives := ds }
    let object (name : Name) (fs : List Field) : ObjectType := { name := name, fields := fs }
    let person : Definition := .typeDef (.object (object { text := "Person" } [
      field "last" "Mutation" [],
      field "knows" "Person"
        [(Binding.mk ⟨.text "KNOWS", .missing, .missing⟩ .missing).toDirective]]))
    let d : Document := ⟨[
      .typeExtension (.object (object { text := "Mutation" } [field "undo" "Int" []])), person,
      .typeDef (.object (object { text := "Mutation", span := some ⟨112, 120⟩ } []))]⟩
    let d' : Document := ⟨[
      .typeExtension (.object (object { text := "Change" } [field "undo" "Int" []])), person,
      .typeDef (.object (object { text := "Change", span := some ⟨110, 116⟩ } [])),
      namingSchema "Change"]⟩
    FreshRoot "Change" d ∧ d'.placeless = (d.renamed "Change").placeless ∧
      ∃ (types : Types) (user : List Definition) (out' : Document),
        (augment d (.ok {})).result = .ok ⟨user ++ types.generated.values⟩ ∧
        (augment d' (.ok {})).result = .ok out' ∧
        (user ++ types.generated.values).filterMap Definition.name? =
          ["Person", "Mutation", "_AddPersonKnowsPayload", "_RemovePersonKnowsPayload"] ∧
        out'.placeless = Document.placeless
          ⟨user.map (Definition.renamed "Change") ++
            namingSchema "Change" :: types.generated.values⟩ := by
  intro field object person d d'
  have hno : ∀ s, .schema s ∉ d.definitions := by simp [d, person]
  have h : FreshRoot "Change" d := ⟨hno, by decide, by decide, by decide⟩
  have hd' : d'.placeless = (d.renamed "Change").placeless := rfl
  have hrun : ∃ out, (augment d (.ok {})).result = .ok out ∧
      out.definitions.filterMap Definition.name? =
        ["Person", "Mutation", "_AddPersonKnowsPayload", "_RemovePersonKnowsPayload"] := by
    decide
  obtain ⟨out, hout, hnames⟩ := hrun
  refine ⟨h, hd', ?_⟩
  rcases augment_renamed h hd' (.ok {}) with
    ⟨fault, hfault, -⟩ | ⟨types, -, user, out', -, -, hok, hok', hplaceless, -⟩
  · rw [hout] at hfault
    cases hfault
  · obtain rfl := Except.ok.inj (hout.symm.trans hok)
    exact ⟨types, user, out', hok, hok', hnames, hplaceless⟩

end Schema

end RelationApi

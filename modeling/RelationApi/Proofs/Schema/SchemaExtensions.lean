import RelationApi.Proofs.Schema.DefinitionOrder
import RelationApi.Proofs.Schema.Splitting

/-!
# Roots in schema extensions

The roots of the operations are those that the schema definition names. An extension of it can name
more, but nothing looks at these : a run over a document with such an extension has the outcome that
it has without the extension (`Spread.outcome_extension`), which differs from what it would be if
the schema definition named all the roots itself (`roots_lost`).

`outcome_spread` says this, and when the two are the same after all : it takes nothing but the same
mutation root and the same relationships.
-/

namespace RelationApi.Schema

open Sdl

/-! ## Outcomes -/

/-- What a run leads to : the type definitions of the new document, and the generated types. -/
structure Outcome where
  definitions : List TypeDef
  generated : Registry String Definition

/-- The outcome without any places. -/
def Outcome.placeless (o : Outcome) : Outcome :=
  ⟨o.definitions.map TypeDef.placeless, o.generated.map Definition.placeless⟩

/-- The outcome of a run over the document, or the fault with which it fails. -/
def outcome (d : Document) (resolved : Except SettingsFault Settings) : Except Fault Outcome := do
  let types ← (augmentedTypes d resolved).result
  let out ← (augment d resolved).result
  return ⟨out.definitions.filterMap Definition.type?, types.generated⟩

/-- The outcome with the given types at the end. -/
def outcomeOf (d : Document) (types : Types) : Outcome :=
  ⟨(rebuild d types).definitions.filterMap Definition.type?, types.generated⟩

theorem outcome_eq (d : Document) (resolved : Except SettingsFault Settings) :
    outcome d resolved = outcomeOf d <$> (augmentedTypes d resolved).result := by
  cases h : (augmentedTypes d resolved).result with
  | error fault =>
    rw [outcome, h]
    rfl
  | ok types =>
    rw [outcome, h, augment_eq_ok_iff.2 ⟨types, h, rfl⟩]
    rfl

/-- A run has the same outcome without places, up to places. -/
theorem outcome_placeless (d : Document) (resolved : Except SettingsFault Settings) :
    outcome d.placeless resolved = Outcome.placeless <$> outcome d resolved := by
  rw [outcome_eq, outcome_eq, result_augmentedTypes_placeless]
  cases (augmentedTypes d resolved).result with
  | error fault => rfl
  | ok types =>
    change Except.ok (outcomeOf d.placeless types.placeless) = .ok (outcomeOf d types).placeless
    rw [outcomeOf, rebuild_placeless, filterMap_type?_placeless]
    rfl

theorem outcomeOf_eq (d : Document) (types : Types) : outcomeOf d types =
    ⟨(d.definitions.filterMap fun definition =>
      (rebuilt d types definition).bind Definition.type?) ++ types.added, types.generated⟩ := by
  rw [outcomeOf, rebuild, List.filterMap_append, List.filterMap_filterMap]
  rfl

/-! ## Roots that are spread -/

/-- `d` has one schema definition, which names the roots `o₁` and then `o₂`, and no operation twice.
The schema definition of `d₁` names `o₁` only, and `d'` has an extension besides that names `o₂`. -/
structure Spread (o₁ o₂ : List (OperationKind × Name)) (d d₁ d' : Document) : Prop where
  nodup : ((o₁ ++ o₂).map Prod.fst).Nodup
  definition : ∃ (s : SchemaDef) (before after : List Definition),
    d.definitions = before ++ .schema { s with roots := o₁ ++ o₂ } :: after ∧
    d₁.definitions = before ++ .schema { s with roots := o₁ } :: after ∧
    ∀ x ∈ before ++ after, x.schema? = none
  extension : ∃ front back : List Definition, d₁.definitions = front ++ back ∧
    d'.definitions = front ++ .schemaExtension { roots := o₂ } :: back

namespace Spread

variable {o₁ o₂ : List (OperationKind × Name)} {d d₁ d' : Document} {β : Type}

/-- The two schema definitions count for nothing that is not taken from schema definitions. -/
theorem filterMap_definition (h : Spread o₁ o₂ d d₁ d') {f : Definition → Option β}
    (hf : ∀ s, f (.schema s) = none) : d₁.definitions.filterMap f = d.definitions.filterMap f := by
  obtain ⟨s, before, after, hd, hd₁, -⟩ := h.definition
  rw [hd, hd₁, List.filterMap_append, List.filterMap_append, List.filterMap_cons_none (hf _),
    List.filterMap_cons_none (hf _)]

/-- The extension counts for nothing that is not taken from it. -/
theorem filterMap_extension (h : Spread o₁ o₂ d d₁ d') {f : Definition → Option β}
    (hf : f (.schemaExtension { roots := o₂ }) = none) :
    d'.definitions.filterMap f = d₁.definitions.filterMap f := by
  obtain ⟨front, back, hd₁, hd'⟩ := h.extension
  rw [hd', hd₁, List.filterMap_append, List.filterMap_append, List.filterMap_cons_none hf]

/-! ## The extension does not count -/

/-- An extension names no roots. -/
theorem rootNames_eq (h : Spread o₁ o₂ d d₁ d') : rootNames d' = rootNames d₁ := by
  rw [Schema.rootNames_eq, Schema.rootNames_eq, h.filterMap_extension rfl]

theorem definedObjects_eq (h : Spread o₁ o₂ d d₁ d') : definedObjects d' = definedObjects d₁ :=
  h.filterMap_extension rfl

theorem extended_eq (h : Spread o₁ o₂ d d₁ d') (t : ObjectType) :
    extended d' t = extended d₁ t := by
  have hextensions : extensionsOf d' t.name.text = extensionsOf d₁ t.name.text :=
    h.filterMap_extension rfl
  rw [extended, extended, hextensions]

/-- The types are sorted as if the extension were not there. -/
theorem sorted_eq (h : Spread o₁ o₂ d d₁ d') : sorted d' = sorted d₁ := by
  have hdefined : asDefined? d' = asDefined? d₁ :=
    funext fun _ => asDefined?_congr h.rootNames_eq fun t _ => h.extended_eq t
  have hroot : asRoot? d' = asRoot? d₁ :=
    funext fun _ => asRoot?_congr h.rootNames_eq fun t _ => h.extended_eq t
  rw [sorted, sorted, hdefined, hroot, h.filterMap_extension rfl, h.filterMap_extension rfl]

/-- The outcome is as if the extension were not there. -/
theorem outcome_extension (h : Spread o₁ o₂ d d₁ d') (resolved : Except SettingsFault Settings) :
    outcome d' resolved = outcome d₁ resolved := by
  have hrebuilt : rebuilt d' = rebuilt d₁ := by
    funext types definition
    simp only [rebuilt, h.rootNames_eq, h.definedObjects_eq]
  have houtcome : outcomeOf d' = outcomeOf d₁ := by
    funext types
    rw [outcomeOf_eq, outcomeOf_eq, hrebuilt, h.filterMap_extension rfl]
  rw [outcome_eq, outcome_eq, houtcome, result_augmentedTypes_of_sorted_eq h.sorted_eq]

/-! ## When the extension makes no difference -/

theorem filterMap_eq (h : Spread o₁ o₂ d d₁ d') {f : Definition → Option β}
    (hf : ∀ s, f (.schema s) = none) (hext : f (.schemaExtension { roots := o₂ }) = none) :
    d'.definitions.filterMap f = d.definitions.filterMap f :=
  (h.filterMap_extension hext).trans (h.filterMap_definition hf)

/-- Either document has one schema definition, with all roots or with the first ones. -/
theorem exists_schemas (h : Spread o₁ o₂ d d₁ d') : ∃ s s' : SchemaDef,
    d.definitions.filterMap Definition.schema? = [s] ∧ s.roots = o₁ ++ o₂ ∧
    d'.definitions.filterMap Definition.schema? = [s'] ∧ s'.roots = o₁ := by
  obtain ⟨s, before, after, hd, hd₁, hnone⟩ := h.definition
  have hbefore : before.filterMap Definition.schema? = [] :=
    List.filterMap_eq_nil_iff.2 fun x hx => hnone x (List.mem_append_left _ hx)
  have hafter : after.filterMap Definition.schema? = [] :=
    List.filterMap_eq_nil_iff.2 fun x hx => hnone x (List.mem_append_right _ hx)
  refine ⟨{ s with roots := o₁ ++ o₂ }, { s with roots := o₁ }, ?_, rfl, ?_, rfl⟩
  · rw [hd, List.filterMap_append, hbefore, List.filterMap_cons, hafter]
    rfl
  · rw [h.filterMap_extension rfl, hd₁, List.filterMap_append, hbefore, List.filterMap_cons, hafter]
    rfl

/-- No operation has two roots in either document. -/
theorem singleRoots (h : Spread o₁ o₂ d d₁ d') : SingleRoots d ∧ SingleRoots d' := by
  obtain ⟨s, s', hs, hroots, hs', hroots'⟩ := h.exists_schemas
  have hone : (o₁.map Prod.fst).Nodup :=
    h.nodup.sublist ((List.sublist_append_left o₁ o₂).map Prod.fst)
  refine ⟨OneSchema.singleRoots ⟨?_, ?_⟩, OneSchema.singleRoots ⟨?_, ?_⟩⟩
  · exact Nat.le_of_eq (congrArg List.length hs)
  · rw [hs, List.forall_mem_singleton, hroots]
    exact h.nodup
  · exact Nat.le_of_eq (congrArg List.length hs')
  · rw [hs', List.forall_mem_singleton, hroots']
    exact hone

/-- Types have different names in either document. -/
theorem distinctNames (h : Spread o₁ o₂ d d₁ d') (hn : DistinctNames d) : DistinctNames d' := by
  rwa [DistinctNames, h.filterMap_eq (fun _ => rfl) rfl]

/-- The documents define the same types. -/
theorem mem_iff (h : Spread o₁ o₂ d d₁ d') {t : TypeDef} :
    .typeDef t ∈ d'.definitions ↔ .typeDef t ∈ d.definitions := by
  have hmem : ∀ d : Document, .typeDef t ∈ d.definitions ↔
      t ∈ d.definitions.filterMap Definition.type? := by
    simp [Definition.type?_eq_some_iff]
  rw [hmem, hmem, h.filterMap_eq (fun _ => rfl) rfl]

/-- The same becomes of each definition, if the mutation root is the same. -/
theorem survivor_eq (h : Spread o₁ o₂ d d₁ d') (hn : DistinctNames d)
    (hroot : (sorted d').roots.find? .mutation = (sorted d).roots.find? .mutation)
    (added : List Field) {definition : Definition} (hd : definition ∈ d'.definitions) :
    survivor d' added definition = survivor d added definition := by
  have hobjects : definedObjects d' = definedObjects d := h.filterMap_eq (fun _ => rfl) rfl
  cases definition with
  | typeDef t =>
    cases t with
    | object t =>
      have hextensions : extensionsOf d' t.name.text = extensionsOf d t.name.text :=
        h.filterMap_eq (fun _ => rfl) rfl
      have hmutation : (rootNames d').find? t.name.text = some .mutation ↔
          (rootNames d).find? t.name.text = some .mutation := by
        rw [find?_rootNames_eq_some_iff (h.distinctNames hn) h.singleRoots.2 hd,
          find?_rootNames_eq_some_iff hn h.singleRoots.1 (h.mem_iff.1 hd), hroot]
      rw [survivor, survivor, hextensions]
      simp only [hmutation]
    | _ => rfl
  | typeExtension t =>
    cases t with
    | object e => rw [survivor, survivor, hobjects]
    | _ => rfl
  | _ => rfl

theorem outcomeOf_eq (h : Spread o₁ o₂ d d₁ d') (hn : DistinctNames d)
    (hroot : (sorted d').roots.find? .mutation = (sorted d).roots.find? .mutation) (s : Settings)
    (ms : List Mutation) : outcomeOf d' (ms.foldl (Types.offer s) (sorted d')) =
      outcomeOf d (ms.foldl (Types.offer s) (sorted d)) := by
  have htaken : (sorted d').taken ms = (sorted d).taken ms := by
    rw [Types.taken, Types.taken, hroot]
  have hgenerated : (ms.foldl (Types.offer s) (sorted d')).generated =
      (ms.foldl (Types.offer s) (sorted d)).generated := by
    rw [Types.generated_foldl_offer, Types.generated_foldl_offer, htaken]
    rfl
  let become (definition : Definition) : Option TypeDef :=
    (survivor d (((sorted d).taken ms).map fun m => m.field s) definition).bind Definition.type?
  have hwhole : d.definitions.filterMap (fun definition =>
      (rebuilt d (ms.foldl (Types.offer s) (sorted d)) definition).bind Definition.type?) =
        d.definitions.filterMap become :=
    List.filterMap_congr fun definition hd => by
      rw [rebuilt_eq_survivor hn h.singleRoots.1 s ms hd]
  have hspread : d'.definitions.filterMap (fun definition =>
      (rebuilt d' (ms.foldl (Types.offer s) (sorted d')) definition).bind Definition.type?) =
        d'.definitions.filterMap become :=
    List.filterMap_congr fun definition hd => by
      rw [rebuilt_eq_survivor (h.distinctNames hn) h.singleRoots.2 s ms hd, htaken,
        h.survivor_eq hn hroot _ hd]
  rw [Schema.outcomeOf_eq, Schema.outcomeOf_eq, Types.added, Types.added, hgenerated, hwhole,
    hspread, h.filterMap_eq (fun _ => rfl) rfl]

/-- Documents with the same mutation root and the same relationships have the same outcome. -/
theorem outcome_eq (h : Spread o₁ o₂ d d₁ d') (hn : DistinctNames d)
    (hroot : (sorted d').roots.find? .mutation = (sorted d).roots.find? .mutation)
    (hcollect : Relationship.collect (sorted d').defined = Relationship.collect (sorted d).defined)
    (resolved : Except SettingsFault Settings) : outcome d' resolved = outcome d resolved := by
  rw [Schema.outcome_eq, Schema.outcome_eq]
  rcases augmentedTypes_congr hcollect (congrArg Option.isSome hroot) resolved with
    ⟨fault, hrun, hrun'⟩ | ⟨s, found, hrun, hrun'⟩
  · rw [hrun, hrun']
    rfl
  · rw [hrun, hrun']
    exact congrArg Except.ok (h.outcomeOf_eq hn hroot s _)

end Spread

/-! ## A whole run -/

variable {o₁ o₂ : List (OperationKind × Name)} {d d₁ d' : Document}

/-- Roots do not count where an extension names them. Let the roots that the schema definition of
`d` names be spread, in `d'`, over the schema definition and an extension, and let `d₁` be `d'`
without the extension, all of this up to places. Then a run over `d'` has the outcome of a run over
`d₁` : the same fault, or the same type definitions and generated types. It has the outcome of a run
over `d` as well, if the types have different names and both documents have the same mutation root
and the same relationships. -/
theorem outcome_spread (h : Spread o₁ o₂ d.placeless d₁.placeless d'.placeless)
    (resolved : Except SettingsFault Settings) :
    Outcome.placeless <$> outcome d' resolved = Outcome.placeless <$> outcome d₁ resolved ∧
    (DistinctNames d →
      (sorted d'.placeless).roots.find? .mutation = (sorted d.placeless).roots.find? .mutation →
      Relationship.collect (sorted d'.placeless).defined =
        Relationship.collect (sorted d.placeless).defined →
      Outcome.placeless <$> outcome d' resolved = Outcome.placeless <$> outcome d resolved) := by
  constructor
  · rw [← outcome_placeless, ← outcome_placeless, h.outcome_extension]
  · intro hn hroot hcollect
    rw [← outcome_placeless, ← outcome_placeless, h.outcome_eq hn.placeless hroot hcollect]

/-- The extension names the root of subscriptions, which has no part in any relationship. -/
theorem outcome_spread_subscription :
    let field (name type : String) (ds : List Directive) : Field :=
      { name := { text := name }, type := .ofName type, directives := ds }
    let object (name : String) (fs : List Field) : Definition :=
      .typeDef (.object { name := { text := name }, fields := fs })
    let person : Definition := object "Person" [
      field "knows" "Person"
        [(Binding.mk ⟨.text "KNOWS", .missing, .missing⟩ .missing).toDirective]]
    let rest : List Definition :=
      [object "Change" [], person, object "Events" [field "met" "Person" []]]
    let o₁ : List (OperationKind × Name) := [(.mutation, { text := "Change" })]
    let o₂ : List (OperationKind × Name) := [(.subscription, { text := "Events" })]
    let d : Document := ⟨.schema { roots := o₁ ++ o₂ } :: rest⟩
    let d₁ : Document := ⟨.schema { roots := o₁ } :: rest⟩
    let d' : Document := ⟨.schema { roots := o₁ } :: rest ++ [.schemaExtension { roots := o₂ }]⟩
    Spread o₁ o₂ d.placeless d₁.placeless d'.placeless ∧ DistinctNames d ∧
      ∃ o o' : Outcome, outcome d (.ok {}) = .ok o ∧ outcome d' (.ok {}) = .ok o' ∧
        o.definitions.map TypeDef.name = ["Change", "Person", "Events",
          "_AddPersonKnowsPayload", "_RemovePersonKnowsPayload"] ∧
        o'.placeless = o.placeless := by
  intro field object person rest o₁ o₂ d d₁ d'
  have h : Spread o₁ o₂ d.placeless d₁.placeless d'.placeless := by
    refine ⟨by decide, ⟨{}, [], rest.map Definition.placeless, rfl, rfl, ?_⟩,
      d₁.placeless.definitions, [], rfl, rfl⟩
    decide
  have hn : DistinctNames d := by decide
  have hroot : (sorted d'.placeless).roots.find? .mutation =
      (sorted d.placeless).roots.find? .mutation := by decide
  have hcollect : Relationship.collect (sorted d'.placeless).defined =
      Relationship.collect (sorted d.placeless).defined := by decide
  have hrun : ∃ o, outcome d (.ok {}) = .ok o ∧
      o.definitions.map TypeDef.name = ["Change", "Person", "Events",
        "_AddPersonKnowsPayload", "_RemovePersonKnowsPayload"] := by decide
  obtain ⟨o, ho, hnames⟩ := hrun
  have hsame := (outcome_spread h (.ok {})).2 hn hroot hcollect
  rw [ho] at hsame
  obtain ⟨o', ho', heq⟩ := except_map_eq_ok_iff.1 hsame
  exact ⟨h, hn, o, o', ho, ho', hnames, heq⟩

/-- The object types among the type definitions, without any places. -/
def Outcome.objects (o : Outcome) : List ObjectType :=
  o.placeless.definitions.filterMap TypeDef.object?

/-- Both outcomes define the same object types, up to places. -/
def Outcome.SameObjects (o o' : Outcome) : Prop :=
  (∀ t ∈ o.objects, t ∈ o'.objects) ∧ ∀ t ∈ o'.objects, t ∈ o.objects

instance (o o' : Outcome) : Decidable (o.SameObjects o') :=
  inferInstanceAs (Decidable ((∀ t ∈ o.objects, t ∈ o'.objects) ∧ ∀ t ∈ o'.objects, t ∈ o.objects))

/-- The roots that each schema definition names. -/
def namedRoots (d : Document) : List (List (OperationKind × String)) :=
  (d.definitions.filterMap Definition.schema?).map fun s => s.roots.map (Prod.map id Name.text)

/-- An extension names the mutation root. If the schema definition named it, it would get two
fields. -/
theorem roots_lost :
    let block (fields : String) : String := " \x7b " ++ fields ++ " \x7d "
    let types : String :=
      "type Query" ++ block "people: [Person]" ++ "type Change" ++ block "noop: Boolean" ++
      "type Person" ++ block "knows: Person @relation(name: \"KNOWS\")"
    let text : String := "schema" ++ block "query: Query mutation: Change" ++ types
    let text' : String :=
      "schema" ++ block "query: Query" ++ "extend schema" ++ block "mutation: Change" ++ types
    ∃ d, Document.parse text = .ok d ∧ namedRoots d = [[(.query, "Query"), (.mutation, "Change")]] ∧
    ∃ d', Document.parse text' = .ok d' ∧ namedRoots d' = [[(.query, "Query")]] ∧
      ∃ o, outcome d (.ok {}) = .ok o ∧ ∃ o', outcome d' (.ok {}) = .ok o' ∧
        ¬o.SameObjects o' ∧ o.generated.keys ≠ o'.generated.keys := by
  decide +kernel

end RelationApi.Schema

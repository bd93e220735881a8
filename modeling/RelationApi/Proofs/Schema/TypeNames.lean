import RelationApi.Proofs.Schema.Frame
import RelationApi.Proofs.Schema.Idempotence

/-!
# Names of type definitions

A run keeps the names of the type definitions and puts those of the generated types behind them
(`distinctNames_augment`). The generated names are different, but nothing compares them with the
others : the underscore in front is all that keeps them apart. So no type is defined twice exactly
if none of them is taken, and a document can take one (`types_defined_twice`).
-/

namespace RelationApi.Schema

open Sdl

variable {d : Document}

/-- The names of the type definitions, in order. -/
def definedNames (definitions : List Definition) : List String :=
  (definitions.filterMap Definition.type?).map TypeDef.name

theorem definedNames_eq_filterMap (definitions : List Definition) :
    definedNames definitions = definitions.filterMap fun x => x.type?.map TypeDef.name :=
  List.map_filterMap ..

/-- A definition has the same name, or none, as what becomes of it. -/
theorem definedNames_survivors (added : List Field) (definitions : List Definition) :
    definedNames (definitions.filterMap (survivor d added)) = definedNames definitions := by
  rw [definedNames_eq_filterMap, definedNames_eq_filterMap, List.filterMap_filterMap]
  refine List.filterMap_congr fun x _ => ?_
  cases x with
  | typeDef t => cases t <;> rfl
  | typeExtension t =>
    cases t with
    | object e =>
      rw [survivor]
      split <;> rfl
    | _ => rfl
  | _ => rfl

/-- The generated types are kept under their names. -/
theorem definedNames_generated (s : Settings) (ms : List Mutation) :
    definedNames (ms.foldl (Types.offer s) (sorted d)).generated.values =
      (ms.foldl (Types.offer s) (sorted d)).generated.keys := by
  rw [definedNames_eq_filterMap, Registry.values, List.filterMap_map, Registry.keys,
    ← List.filterMap_eq_map]
  refine List.filterMap_congr fun e he => ?_
  obtain ⟨m, -, hm⟩ := Types.exists_of_mem_generated he
  obtain ⟨t, rfl, -⟩ := m.of_mem_generated hm
  rfl

/-- Each generated name is that of a payload or of an input type. -/
theorem name_of_mem_keys_generated {s : Settings} {ms : List Mutation} {n : String}
    (hn : n ∈ (ms.foldl (Types.offer s) (sorted d)).generated.keys) :
    ∃ m, n = payloadTypeName m ∨ n = inputTypeName m := by
  obtain ⟨e, he, rfl⟩ := List.mem_map.1 hn
  obtain ⟨m, -, hm⟩ := Types.exists_of_mem_generated he
  rw [m.generated_eq, List.mem_append, List.mem_singleton] at hm
  rcases hm with hm | rfl
  · obtain ⟨i, hi, rfl⟩ := List.mem_map.1 hm
    exact ⟨_, Or.inr (m.name_of_mem_inputs hi)⟩
  · exact ⟨_, Or.inl rfl⟩

/-- If the type definitions have different names, and no two object types are roots of the same
operation, then the names after a run are those before it and the generated ones. They are different
again exactly if no generated name is taken. -/
theorem distinctNames_augment {d' : Document} {resolved : Except SettingsFault Settings}
    (hnames : DistinctNames d) (hroots : SingleRoots d)
    (h : (augment d resolved).result = .ok d') :
    ∃ types, (augmentedTypes d resolved).result = .ok types ∧
      (∀ n ∈ types.generated.keys, ∃ m, n = "_" ++ m ++ "Payload" ∨ n = "_" ++ m ++ "Input") ∧
      definedNames d'.definitions = definedNames d.definitions ++ types.generated.keys ∧
      (DistinctNames d' ↔ ∀ n ∈ types.generated.keys, n ∉ definedNames d.definitions) := by
  obtain ⟨s, found, types, hs, hfound, htypes, -, hd'⟩ := augment_definitions hnames hroots h
  obtain ⟨s', found', -, -, -, rfl⟩ := augmentedTypes_eq_ok_iff.1 htypes
  have heq : definedNames d'.definitions = definedNames d.definitions ++
      ((s'.offers found').foldl (Types.offer s') (sorted d)).generated.keys := by
    rw [hd', definedNames_eq_filterMap, List.filterMap_append, ← definedNames_eq_filterMap,
      ← definedNames_eq_filterMap, definedNames_survivors, definedNames_generated]
  refine ⟨_, htypes, fun n hn => name_of_mem_keys_generated hn, heq, ?_⟩
  have hdistinct : DistinctNames d' ↔ (definedNames d'.definitions).Nodup := Iff.rfl
  rw [hdistinct, heq, List.nodup_append]
  constructor
  · rintro ⟨-, -, hdisjoint⟩ n hn hmem
    exact hdisjoint n hmem n hn rfl
  · intro hfree
    refine ⟨hnames, Registry.nodup_keys _, ?_⟩
    rintro n hn _ hn' rfl
    exact hfree n hn' hn

/-- A type with an underscore in front of its name is no obstacle, as long as the rest is not that
of a generated type. -/
theorem distinctNames_augment_underscore :
    let since : Field := { name := { text := "since" }, type := .ofName "Int" }
    let knows : ObjectType := {
      name := { text := "_Knows" }
      directives := [(Binding.mk ⟨.text "KNOWS", .missing, .missing⟩ .missing).toDirective]
      fields := endpointFields "Person" "Person" ++ [since] }
    let person : ObjectType := {
      name := { text := "Person" }
      fields := [{ name := { text := "knows" }, type := .ofName "_Knows" }] }
    let d : Document := ⟨[.typeDef (.object person), .typeDef (.object knows),
      .typeDef (.object { name := { text := "Mutation" } })]⟩
    DistinctNames d ∧ SingleRoots d ∧ ∃ d', (augment d (.ok {})).result = .ok d' ∧
      definedNames d'.definitions = ["Person", "_Knows", "Mutation", "__KnowsInput",
        "_AddPersonKnowsPayload", "_RemovePersonKnowsPayload"] ∧ DistinctNames d' := by
  intro since knows person d
  have hnames : DistinctNames d := by decide
  have hroots : SingleRoots d := by decide
  have hkeys : ∃ types, (augmentedTypes d (.ok {})).result = .ok types ∧ types.generated.keys =
      ["__KnowsInput", "_AddPersonKnowsPayload", "_RemovePersonKnowsPayload"] := by decide
  have hok : (augment d (.ok {})).result.isOk = true := by decide
  obtain ⟨d', hd'⟩ := except_isOk_iff.1 hok
  obtain ⟨types, htypes, hkeys⟩ := hkeys
  obtain ⟨types', htypes', -, hdefined, hiff⟩ := distinctNames_augment hnames hroots hd'
  obtain rfl : types = types' := Except.ok.inj (htypes.symm.trans htypes')
  rw [hkeys] at hdefined hiff
  exact ⟨hnames, hroots, d', hd', hdefined, hiff.2 (by decide)⟩

/-- Type definitions with different names do not keep a run from defining a type twice : in one text
a type has the name of a generated one, in the other two types are roots of one operation. -/
theorem types_defined_twice :
    let block (fields : String) : String := " \x7b " ++ fields ++ " \x7d "
    let taken : String :=
      "type Person" ++ block "knows: Knows" ++
      "type Knows @relation(name: \"KNOWS\")" ++ block "from: Person to: Person since: Int" ++
      "type Mutation" ++ block "noop: Boolean" ++
      "input _KnowsInput" ++ block "limit: Int"
    let shared : String :=
      "schema" ++ block "query: A query: B" ++ "type A" ++ block "x: Int" ++
      "type B" ++ block "y: Int"
    ∀ text ∈ [taken, shared], ∃ d, Document.parse text = .ok d ∧ DistinctNames d ∧
      ∃ d', (augment d (.ok {})).result = .ok d' ∧ ¬DistinctNames d' := by
  intro block taken shared
  decide +kernel

end RelationApi.Schema

import RelationApi.Proofs.Mutation.Coherence
import RelationApi.Proofs.Schema.Legibility
import RelationApi.Proofs.Schema.PropertyInputs
import RelationApi.Proofs.Schema.Rebuilding
import RelationApi.Proofs.Sdl.RoundTrip

/-!
# The output is read back

Whatever a run makes is legible : the names of the mutations and of the types that go with them are
made of names (`Mutation.isName_name`), all that a directive says is a quoted text, and nothing else
is new. So the new document of a type system without block strings is read back from its text, with
the same definitions in the same order, and is printed as the same text again
(`Schema.parse_augmentText`).
-/

namespace RelationApi

open Sdl
open TokenKind (Plain)

/-! ## Names -/

/-- A name goes on with characters of names. -/
theorem Sdl.IsName.append {s s' : String} (h : IsName s) (h' : ∀ c ∈ s'.toList, isNamePart c) :
    IsName (s ++ s') := by
  obtain ⟨c, cs, hs, hc, hcs⟩ := h
  refine ⟨c, cs ++ s'.toList, by rw [String.toList_append, hs]; rfl, hc, ?_⟩
  exact List.forall_mem_append.2 ⟨hcs, h'⟩

/-- The upper-case form of a letter that a name starts with is a letter. -/
theorem Text.isNamePart_upperChar {c : Char} (hc : isNameStart c) :
    ∀ c' ∈ upperChar c, isNamePart c' := by
  have hupper := forall_isNamePart (p := fun c => isNameStart c → (upperChar c).all isNamePart)
    (by decide +kernel) (isNamePart_of_isNameStart hc) hc
  exact List.all_eq_true.1 hupper

theorem Text.isNamePart_capitalized {s : String} (h : IsName s) :
    ∀ c ∈ (capitalized s).toList, isNamePart c := by
  obtain ⟨c, cs, hs, hc, hcs⟩ := h
  have hcapital : (capitalized s).toList = upperChar c ++ cs := by
    unfold capitalized
    rw [hs]
    exact String.toList_ofList
  rw [hcapital]
  exact List.forall_mem_append.2 ⟨isNamePart_upperChar hc, hcs⟩

/-- The payload type of a name has a name. -/
theorem isName_payloadTypeName {s : String} (h : IsName s) : IsName (payloadTypeName s) := by
  have hhead : IsName ("_" ++ s) := IsName.append (by decide) h.parts
  exact hhead.append (IsName.parts (by decide))

/-- The input type of a name has a name. -/
theorem isName_inputTypeName {s : String} (h : IsName s) : IsName (inputTypeName s) := by
  have hhead : IsName ("_" ++ s) := IsName.append (by decide) h.parts
  exact hhead.append (IsName.parts (by decide))

theorem plain_name {s : String} (h : IsName s) : Plain (.name s) :=
  ⟨h, fun _ h => TokenKind.noConfusion h⟩

theorem plain_finish : Plain .finish := ⟨trivial, fun _ h => TokenKind.noConfusion h⟩

/-! ## Directives -/

/-- An argument that was made is legible, whatever its text. -/
theorem legible_textArgument {name : String} (h : IsName name) (value : Scalar) (room : Nat) :
    (textArgument name value).Legible Plain room :=
  ⟨plain_name h, .string ⟨trivial, nofun⟩⟩

/-- The directive for a purpose is legible. -/
theorem MutationPurpose.legible_toDirective (p : MutationPurpose) (room : Nat) :
    p.toDirective.Legible Plain room where
  name := plain_name (s := AnnotationKind.mutationMeta.name) (by decide)
  arguments := by
    simp only [toDirective, List.forall_mem_cons]
    exact ⟨legible_textArgument (by decide) _ _, legible_textArgument (by decide) _ _,
      legible_textArgument (by decide) _ _, nofun⟩

/-- A binding without a direction says texts only. -/
theorem Binding.legible_toDirective (l : Link) (room : Nat) :
    (Binding.mk l .missing).toDirective.Legible Plain room where
  name := plain_name (s := AnnotationKind.relation.name) (by decide)
  arguments := by
    have hoptional {name : String} (h : IsName name) (value : Scalar) :
        ∀ a ∈ optional (textArgument name value) value, a.Legible Plain room := by
      unfold optional
      split
      · exact List.forall_mem_singleton.2 (legible_textArgument h value room)
      · nofun
    refine List.forall_mem_append.2 ⟨List.forall_mem_append.2 ⟨List.forall_mem_cons.2 ⟨?_, ?_⟩, ?_⟩,
      nofun⟩
    · exact legible_textArgument (by decide) _ _
    · exact hoptional (by decide) _
    · exact hoptional (by decide) _

/-- The directive for a guard is legible. Its scopes are in a list, which takes a level of
nesting. -/
theorem ScopeGuard.legible_toDirective (g : ScopeGuard) (room : Nat) :
    g.toDirective.Legible Plain (room + 1) where
  name := plain_name (s := AnnotationKind.hasScope.name) (by decide)
  arguments := by
    refine List.forall_mem_singleton.2 ⟨plain_name (s := "scopes") (by decide), ?_⟩
    exact .list (List.forall_mem_map.2 fun s _ => .string ⟨trivial, nofun⟩)

/-! ## Mutations -/

namespace Relationship.Legible

variable {r : Relationship} (h : r.Legible Plain)
include h

/-- A mutation has a name. -/
theorem isName_name (a : Action) : IsName (Mutation.mk r a).name := by
  have hlabel : IsName a.label := by cases a <;> decide
  have htype : IsName (a.label ++ r.typeName) := hlabel.append (IsName.parts h.typeName.1)
  exact htype.append (Text.isNamePart_capitalized h.fieldName.1)

omit h in
theorem legible_requiredInput {argument type : String} (ha : IsName argument) (ht : IsName type) :
    (requiredInput argument type).Legible Plain where
  description := nofun
  name := plain_name ha
  type := .nonNull (.named (plain_name (isName_inputTypeName ht))) nofun
  default := nofun
  directives := nofun

/-- The arguments of a mutation are legible. -/
theorem legible_arguments (a : Action) : ∀ v ∈ r.arguments a, v.Legible Plain := by
  refine List.forall_mem_append.2 ⟨?_, ?_⟩
  · simp only [List.forall_mem_cons]
    exact ⟨legible_requiredInput (by decide) h.fromType.1,
      legible_requiredInput (by decide) h.toType.1, nofun⟩
  · cases a with
    | delete => nofun
    | create =>
      dsimp only
      split_ifs
      · nofun
      · exact List.forall_mem_singleton.2 (legible_requiredInput (by decide) h.outputType.1)

/-- The field of a mutation is legible. -/
theorem legible_field (s : Settings) (a : Action) :
    ((Mutation.mk r a).field s).Legible Plain where
  description := nofun
  name := plain_name (h.isName_name a)
  arguments := h.legible_arguments a
  type := .named (plain_name (isName_payloadTypeName (h.isName_name a)))
  default := rfl
  directives := by
    refine List.forall_mem_cons.2 ⟨MutationPurpose.legible_toDirective _ _, ?_⟩
    split_ifs
    · exact List.forall_mem_singleton.2 (ScopeGuard.legible_toDirective _ 199)
    · nofun

/-- The payload type of a mutation is legible. -/
theorem legible_payload (a : Action) : (Mutation.mk r a).payload.Legible Plain where
  description := nofun
  name := plain_name (isName_payloadTypeName (h.isName_name a))
  interfaces := nofun
  directives := List.forall_mem_singleton.2 (Binding.legible_toDirective _ _)
  fields := by
    refine List.forall_mem_append.2 ⟨?_, ?_⟩
    · have hend {name type : String} (hn : IsName name) (ht : Plain (.name type)) :
          ({ name := { text := name }, type := .ofName type } : Field).Legible Plain :=
        ⟨nofun, plain_name hn, nofun, .named ht, rfl, nofun⟩
      simp only [endpointFields, List.forall_mem_cons]
      exact ⟨hend (by decide) h.fromType, hend (by decide) h.toType, nofun⟩
    · cases a with
      | delete => nofun
      | create =>
        refine List.forall_mem_map.2 fun f hf => ?_
        have hf := h.outputs f hf
        split_ifs
        · exact { hf with arguments := nofun, default := rfl }
        · exact hf

/-- The input type of a mutation is legible, if there is one. -/
theorem legible_inputs (a : Action) : ∀ i ∈ (Mutation.mk r a).inputs, i.Legible Plain := by
  intro i hi
  unfold Mutation.inputs at hi
  cases a with
  | delete => cases hi
  | create =>
    obtain ⟨-, rfl⟩ := inputType?_eq_some_iff.1 (Option.mem_toList.1 hi)
    refine ⟨nofun, plain_name (isName_inputTypeName h.outputType.1), nofun, ?_⟩
    refine List.forall_mem_map.2 fun v hv => ?_
    have hv := List.mem_of_mem_filter hv
    rw [h.inputs] at hv
    obtain ⟨f, hf, rfl⟩ := List.mem_map.1 hv
    have hf := h.outputs f hf
    exact ⟨nofun, hf.name, hf.type, nofun, nofun⟩

/-- The types that go with a mutation are legible. -/
theorem legible_generated (a : Action) {e : String × Definition}
    (he : e ∈ (Mutation.mk r a).generated) : ∃ t, e.2 = .typeDef t ∧ t.Legible Plain := by
  rw [Mutation.generated_eq, List.mem_append, List.mem_singleton] at he
  rcases he with he | rfl
  · obtain ⟨i, hi, rfl⟩ := List.mem_map.1 he
    exact ⟨.input i, rfl, h.legible_inputs a i hi⟩
  · exact ⟨.object _, rfl, h.legible_payload a⟩

end Relationship.Legible

namespace Schema

variable {d d' : Document} {resolved : Except SettingsFault Settings}

/-! ## Runs -/

namespace Types

variable {t : Types}

/-- A mutation of a legible relationship leaves legible types. -/
theorem Legible.offer (h : t.Legible Plain) {m : Mutation} (hm : m.relationship.Legible Plain)
    (s : Settings) : (t.offer s m).Legible Plain := by
  obtain ⟨r, a⟩ := m
  cases hroot : t.roots.find? .mutation with
  | none =>
    rw [offer_of_none s t _ hroot]
    exact h
  | some root =>
    rw [offer_of_some s t _ hroot]
    split_ifs
    · exact h
    · refine ⟨h.defined, fun n x hx => ?_, fun k u hu => ?_⟩
      · rcases Registry.find?_insertAll_eq_some hx with hx | hx
        · exact h.generated n x hx
        · exact hm.legible_generated a hx
      · rw [Registry.find?_insert] at hu
        split_ifs at hu
        · obtain rfl := Option.some.inj hu
          have hr := h.roots _ _ hroot
          exact { hr with
            fields := List.forall_mem_append.2 ⟨hr.fields,
              List.forall_mem_singleton.2 (hm.legible_field s a)⟩ }
        · exact h.roots k u hu

/-- Types stay legible, whatever is offered for legible relationships. -/
theorem Legible.foldl_offer (h : t.Legible Plain) {ms : List Mutation}
    (hms : ∀ m ∈ ms, m.relationship.Legible Plain) (s : Settings) :
    (ms.foldl (Types.offer s) t).Legible Plain := by
  induction ms generalizing t with
  | nil => exact h
  | cons m ms ih =>
    rw [List.forall_mem_cons] at hms
    exact ih (h.offer hms.1 s) hms.2

end Types

/-- All types that a run over a legible document ends with are legible. -/
theorem legible_augmentedTypes (h : d.Legible Plain) {types : Types}
    (htypes : (augmentedTypes d resolved).result = .ok types) : types.Legible Plain := by
  obtain ⟨s, found, -, hfound, -, rfl⟩ := augmentedTypes_eq_ok_iff.1 htypes
  exact (legible_sorted h).foldl_offer (fun m hm =>
    legible_of_mem_collect h hfound (s.relationship_mem_of_mem_offers hm)) s

/-! ## Documents -/

/-- What takes the place of a legible definition of a type system is another one. -/
theorem legible_rebuilt {types : Types} (htypes : types.Legible Plain) {x y : Definition}
    (hx : x.Legible Plain ∧ x.isTypeSystem) (hy : rebuilt d types x = some y) :
    y.Legible Plain ∧ y.isTypeSystem := by
  unfold rebuilt at hy
  split at hy
  · next t =>
    split at hy
    · next root hroot =>
      obtain ⟨k, -, hk⟩ := Option.bind_eq_some_iff.1 hroot
      cases hy
      exact ⟨htypes.roots k root hk, rfl⟩
    · cases hy
      refine ⟨?_, rfl⟩
      cases hfind : types.defined.find? t.name.text with
      | none => exact hx.1
      | some u => exact htypes.defined _ u hfind
  · split_ifs at hy
    cases hy
    exact hx
  · cases hy
    exact hx

/-- A legible type system becomes a legible type system. -/
theorem legible_rebuild {types : Types} (htypes : types.Legible Plain)
    (hd : ∀ x ∈ d.definitions, x.Legible Plain ∧ x.isTypeSystem) :
    ∀ x ∈ (rebuild d types).definitions, x.Legible Plain ∧ x.isTypeSystem := by
  refine List.forall_mem_append.2 ⟨fun y hy => ?_, List.forall_mem_map.2 fun e he => ?_⟩
  · obtain ⟨x, hx, hy⟩ := List.mem_filterMap.1 hy
    exact legible_rebuilt htypes (hd x hx) hy
  · obtain ⟨t, ht, hlegible⟩ := htypes.generated e.1 e.2 (Registry.mem_entries_iff.1 he)
    rw [ht]
    exact ⟨hlegible, rfl⟩

/-- An object type is never left out. -/
theorem rebuilt_object_ne_none (types : Types) (t : ObjectType) :
    rebuilt d types (.typeDef (.object t)) ≠ none := by
  rw [rebuilt]
  split <;> exact Option.some_ne_none _

/-- Only extensions vanish, and the types that they extend stay. -/
theorem rebuild_ne_nil (hd : d.definitions ≠ []) (types : Types) :
    (rebuild d types).definitions ≠ [] := by
  intro hnil
  have hnone : ∀ x ∈ d.definitions, rebuilt d types x = none :=
    List.filterMap_eq_nil_iff.1 (List.append_eq_nil_iff.1 hnil).1
  obtain ⟨x, hx⟩ := List.exists_mem_of_ne_nil _ hd
  have hgone := hnone x hx
  unfold rebuilt at hgone
  split at hgone
  · split at hgone <;> cases hgone
  · next e =>
    split_ifs at hgone with hdefined
    obtain ⟨t, ht, -⟩ := mem_definedObjects_iff.1 (List.contains_iff_mem.1 hdefined)
    exact rebuilt_object_ne_none types t (hnone _ ht)
  · cases hgone

/-- The output for a type system without block strings is read back : it has the definitions of the
new document, in order, and is printed as it was. -/
theorem parse_augmentText {text out : String} (hparse : Document.parse text = .ok d)
    (hsystem : ∀ x ∈ d.definitions, x.isTypeSystem)
    (hblock : ∀ t ∈ Token.ofString text, ∀ s, t.kind ≠ .block s)
    (h : (augmentText text resolved).result = .ok out) :
    ∃ d' d'', (augment d resolved).result = .ok d' ∧ Document.parse out = .ok d'' ∧
      d''.definitions.map Definition.heading = d'.definitions.map Definition.heading ∧
      d''.print = out := by
  have hlegible : d.Legible Plain := Document.legible_of_parse hparse plain_finish
    fun t ht => ⟨Token.legible_of_mem_ofChars ht, hblock t ht⟩
  obtain ⟨d', hd', rfl⟩ : ∃ d', (augment d resolved).result = .ok d' ∧ d'.print = out := by
    have hread : read text = .ok d := by
      rw [read, hparse]
      rfl
    rw [augmentText, hread, Run.result_bind_eq_ok_iff] at h
    obtain ⟨_, hd, h⟩ := h
    cases hd
    obtain ⟨d', hd', h⟩ := Run.result_bind_eq_ok_iff.1 h
    exact ⟨d', hd', Except.ok.inj h⟩
  obtain ⟨types, htypes, rfl⟩ := augment_eq_ok_iff.1 hd'
  have hnew := legible_rebuild (legible_augmentedTypes hlegible htypes)
    fun x hx => ⟨hlegible x hx, hsystem x hx⟩
  obtain ⟨d'', hread, hheadings, hprint⟩ := Document.Legible.parse_print (fun x hx => (hnew x hx).1)
    (fun x hx => (hnew x hx).2) (rebuild_ne_nil (Document.definitions_ne_nil_of_parse hparse) types)
  exact ⟨_, d'', hd', hread, hheadings, hprint⟩

/-- A described type, whose extension has a field with a default value, and a mutation root without
fields. -/
def describedPerson : String :=
  "\"one \\\"person\\\"\" type Person \x7b knows: [Person!]! @relation(name: \"KNOWS\") \x7d " ++
  "extend type Person \x7b since(of: [Int] = [1, -2]): Int \x7d type Mutation"

theorem parse_augmentText_described :
    ∃ d, Document.parse describedPerson = .ok d ∧ (∀ x ∈ d.definitions, x.isTypeSystem) ∧
      (∀ t ∈ Token.ofString describedPerson, ∀ s, t.kind ≠ .block s) ∧
      ∃ out, (augmentText describedPerson (.ok {})).result = .ok out ∧
      ∃ d' d'', (augment d (.ok {})).result = .ok d' ∧ Document.parse out = .ok d'' ∧
        d''.definitions.map Definition.heading = d'.definitions.map Definition.heading ∧
        d'.definitions.map Definition.name? = [some "Person", some "Mutation",
          some "_AddPersonKnowsPayload", some "_RemovePersonKnowsPayload"] ∧
        d''.print = out := by
  have hinput : ∃ d, Document.parse describedPerson = .ok d ∧
      (∀ x ∈ d.definitions, x.isTypeSystem) ∧
      (∀ t ∈ Token.ofString describedPerson, ∀ s, t.kind ≠ .block s) ∧
      (augmentText describedPerson (.ok {})).result.isOk ∧
      ∃ d', (augment d (.ok {})).result = .ok d' ∧
        d'.definitions.map Definition.name? = [some "Person", some "Mutation",
          some "_AddPersonKnowsPayload", some "_RemovePersonKnowsPayload"] := by
    decide +kernel
  obtain ⟨d, hparse, hsystem, hblock, hok, d', hd', hnames⟩ := hinput
  obtain ⟨out, hout⟩ := except_isOk_iff.1 hok
  obtain ⟨_, d'', hd'', hread, hheadings, hprint⟩ := parse_augmentText hparse hsystem hblock hout
  obtain rfl := Except.ok.inj (hd'.symm.trans hd'')
  exact ⟨d, hparse, hsystem, hblock, out, hout, d', d'', hd', hread, hheadings, hnames, hprint⟩

end Schema

end RelationApi

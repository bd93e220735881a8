import Mathlib.Logic.Function.Basic
import RelationApi.Proofs.Annotation.RoundTrip
import RelationApi.Proofs.Mutation.Order

/-!
# Fields and payloads

A mutation's field and the type of its payload live in two different registries, and a generated
type can be written over. They stay in step all the same (`Schema.Types.Holds`) : a payload's name
determines its mutation's, no input type has a payload's name, and a mutation is offered in vain
once its field is there. So a later offer never touches the payload of a field (`Holds.offer`).

`coherent_of_added` states this for any calls in any order, with settings of their own, some of
which may fail (`Call`) : every field that a call added returns a payload type that is there, and
the two agree on the relationship, on both ends and on the properties (`Coherent`).
-/

namespace RelationApi

open Sdl

/-! ## Names of generated types -/

theorem payloadTypeName_injective : Function.Injective payloadTypeName := by
  intro m n h
  rwa [payloadTypeName, payloadTypeName, String.append_left_inj, String.append_right_inj] at h

theorem inputTypeName_ne_payloadTypeName (type mutation : String) :
    inputTypeName type ≠ payloadTypeName mutation := by
  intro h
  have hlast := congrArg (fun n : String => n.toList.reverse.head?) h
  simp [inputTypeName, payloadTypeName] at hlast

namespace Mutation

variable (m : Mutation)

/-- The input types that go with the mutation. -/
def inputs : List InputType :=
  match m.action with
  | .create => m.relationship.inputType?.toList
  | .delete => []

theorem name_of_mem_inputs {i : InputType} (hi : i ∈ m.inputs) :
    i.name.text = inputTypeName m.relationship.outputType := by
  unfold inputs at hi
  split at hi
  · have hi' : m.relationship.inputType? = some i := by simpa using hi
    unfold Relationship.inputType? at hi'
    split_ifs at hi'
    obtain rfl := Option.some.inj hi'
    rfl
  · simp at hi

/-- The payload comes last among the types that go with a mutation; before it there are only input
types. -/
theorem generated_eq : m.generated =
    m.inputs.map (fun i => (i.name.text, .typeDef (.input i))) ++
      [(payloadTypeName m.name, .typeDef (.object m.payload))] := by
  obtain ⟨r, a⟩ := m
  cases a with
  | delete => rfl
  | create =>
    rw [generated, inputs, Relationship.generatedTypes]
    cases r.inputType? <;> rfl

/-- No mutation writes over the payload of another. -/
theorem payloadTypeName_notMem_generated {m m' : Mutation} (h : m.name ≠ m'.name) :
    payloadTypeName m.name ∉ m'.generated.map Prod.fst := by
  rw [m'.generated_eq, List.map_append, List.mem_append, not_or, List.map_map]
  constructor
  · intro hi
    obtain ⟨i, hi, hname⟩ := List.mem_map.1 hi
    exact inputTypeName_ne_payloadTypeName _ _ ((m'.name_of_mem_inputs hi).symm.trans hname)
  · simpa using fun he => h (payloadTypeName_injective he)

end Mutation

namespace Schema.Types

/-! ## What stays in step -/

/-- The fields of the mutation root; without one there are none. -/
def mutationFields (t : Types) : List Field :=
  ((t.roots.find? .mutation).map ObjectType.fields).getD []

/-- The mutation is there, with its field and its payload. -/
structure Holds (t : Types) (s : Settings) (m : Mutation) : Prop where
  field : m.field s ∈ t.mutationFields
  payload : t.generated.find? (payloadTypeName m.name) = some (.typeDef (.object m.payload))

theorem mutationFields_of_some {t : Types} {root : ObjectType}
    (hroot : t.roots.find? .mutation = some root) : t.mutationFields = root.fields := by
  rw [mutationFields, hroot]
  rfl

/-- A row of offers adds the fields of the mutations taken. -/
theorem mutationFields_eq (s : Settings) (t : Types) (ms : List Mutation) :
    (ms.foldl (offer s) t).mutationFields =
      t.mutationFields ++ (t.taken ms).map fun m => m.field s := by
  rw [mutationFields, find?_roots_foldl_offer]
  cases hroot : t.roots.find? .mutation with
  | none => simp [mutationFields, taken, hroot]
  | some root =>
    rw [mutationFields_of_some hroot]
    rfl

/-- An offer does nothing, or a root without a field of the name takes the mutation. -/
theorem offer_cases (s : Settings) (t : Types) (m : Mutation) :
    t.offer s m = t ∨ (∀ f ∈ t.mutationFields, f.name.text ≠ m.name) ∧
      (t.offer s m).mutationFields = t.mutationFields ++ [m.field s] ∧
      (t.offer s m).generated = t.generated.insertAll m.generated := by
  cases hroot : t.roots.find? .mutation with
  | none => exact Or.inl (offer_of_none s t m hroot)
  | some root =>
    rw [offer_of_some s t m hroot, mutationFields_of_some hroot]
    split_ifs with hm
    · exact Or.inl rfl
    · refine Or.inr ⟨fun f hf he => hm ?_, ?_, rfl⟩
      · exact (root.isSome_field?_iff m.name).2 (List.mem_map.2 ⟨f, hf, he⟩)
      · rw [mutationFields, Registry.find?_insert_self]
        rfl

/-- A mutation that is there stays there, whatever is offered. -/
theorem Holds.offer {t : Types} {s : Settings} {m : Mutation} (h : t.Holds s m) (s' : Settings)
    (m' : Mutation) : (t.offer s' m').Holds s m := by
  rcases offer_cases s' t m' with ht | ⟨hnew, hfields, hgenerated⟩
  · rwa [ht]
  · refine ⟨hfields ▸ List.mem_append_left _ h.field, ?_⟩
    have hne : m.name ≠ m'.name := hnew _ h.field
    rw [hgenerated, Registry.find?_insertAll_of_notMem
      (Mutation.payloadTypeName_notMem_generated hne)]
    exact h.payload

theorem Holds.foldl_offer {t : Types} {s : Settings} {m : Mutation} (h : t.Holds s m)
    (s' : Settings) (ms : List Mutation) : (ms.foldl (Types.offer s') t).Holds s m := by
  induction ms generalizing t with
  | nil => exact h
  | cons m' ms ih => exact ih (h.offer s' m')

/-- The fields that a row of offers adds are those of some of the mutations, and each of these is
there afterwards. -/
theorem mutationFields_foldl_offer (s : Settings) (t : Types) (ms : List Mutation) :
    ∃ added : List Mutation, added ⊆ ms ∧
      (ms.foldl (offer s) t).mutationFields = t.mutationFields ++ added.map (fun m => m.field s) ∧
      ∀ m ∈ added, (ms.foldl (offer s) t).Holds s m := by
  induction ms generalizing t with
  | nil => exact ⟨[], by simp, by simp, by simp⟩
  | cons m ms ih =>
    obtain ⟨added, hsub, hfields, hholds⟩ := ih (t.offer s m)
    rcases offer_cases s t m with ht | ⟨-, hfields', hgenerated⟩
    · rw [ht] at hfields
      exact ⟨added, fun x hx => List.mem_cons_of_mem m (hsub hx), by rwa [List.foldl_cons, ht],
        hholds⟩
    · have hm : (t.offer s m).Holds s m := by
        refine ⟨by simp [hfields'], ?_⟩
        rw [hgenerated, m.generated_eq, Registry.insertAll_append]
        exact Registry.find?_insert_self _ _ _
      refine ⟨m :: added, List.cons_subset_cons m hsub, ?_, ?_⟩
      · rw [List.foldl_cons, hfields, hfields']
        simp
      · exact List.forall_mem_cons.2 ⟨hm.foldl_offer s ms, hholds⟩

end Schema.Types

/-! ## The field and the payload of one mutation -/

/-- What ties the field of a mutation to the type of its payload. Both say what relationship they
are for, the field in its first directive and the payload in its only one. The arguments of the
field start with the inputs of both ends, the fields of the payload with both ends. A mutation that
creates goes on with the properties, and one that deletes has nothing else. -/
structure Coherent (r : Relationship) (a : Action) (f : Field) (p : ObjectType) : Prop where
  name : f.name.text = a.label ++ r.typeName ++ Text.capitalized r.fieldName
  returns : f.type = .named { text := "_" ++ f.name.text ++ "Payload" }
  purpose : ∃ d ds, f.directives = d :: ds ∧ Annotation.ofDirective d =
    .ok (some (.mutationMeta ⟨⟨r.name, .text r.fromType, .text r.toType⟩⟩))
  binding : ∃ d, p.directives = [d] ∧ Annotation.ofDirective d =
    .ok (some (.relation ⟨⟨r.name, .text r.fromType, .text r.toType⟩, .missing⟩))
  arguments : f.arguments =
    [{ name := { text := "from" }
       type := .nonNull (.named { text := "_" ++ r.fromType ++ "Input" }) none },
      { name := { text := "to" }
        type := .nonNull (.named { text := "_" ++ r.toType ++ "Input" }) none }] ++
      match a with
      | .delete => []
      | .create =>
        if r.outputs = [] then []
        else
          [{ name := { text := "data" }
             type := .nonNull (.named { text := "_" ++ r.outputType ++ "Input" }) none }]
  fields : p.fields =
    [{ name := { text := "from" }, type := .named { text := r.fromType } },
      { name := { text := "to" }, type := .named { text := r.toType } }] ++
      match a with
      | .delete => []
      | .create => r.outputs.map fun f => if isComputed f.directives then f.withoutArguments else f

theorem ofDirective_purpose (l : Link) :
    Annotation.ofDirective (MutationPurpose.toDirective ⟨l⟩) = .ok (some (.mutationMeta ⟨l⟩)) :=
  Annotation.ofDirective_mutationMeta ⟨l⟩

/-- A binding to two ends that have names is read as it was written. -/
theorem ofDirective_binding (n : Scalar) {fromType toType : String} (hfrom : fromType ≠ "")
    (hto : toType ≠ "") :
    Annotation.ofDirective (Binding.toDirective ⟨⟨n, .text fromType, .text toType⟩, .missing⟩) =
      .ok (some (.relation ⟨⟨n, .text fromType, .text toType⟩, .missing⟩)) :=
  Annotation.ofDirective_relation_iff.2 (by simp [Scalar.isGiven, hfrom, hto])

theorem Mutation.coherent (m : Mutation) (s : Settings) (hfrom : m.relationship.fromType ≠ "")
    (hto : m.relationship.toType ≠ "") :
    Coherent m.relationship m.action (m.field s) m.payload := by
  obtain ⟨r, a⟩ := m
  refine ⟨rfl, rfl, ⟨_, _, rfl, ofDirective_purpose _⟩, ⟨_, rfl, ofDirective_binding _ hfrom hto⟩,
    ?_, ?_⟩
  · cases a with
    | delete => rfl
    | create =>
      change _ ++ (if r.outputs.isEmpty then [] else _) = _
      cases r.outputs <;> rfl
  · cases a <;> rfl

namespace Schema

/-! ## Calls in any order -/

/-- A call that adds the mutations for a relationship, with settings of its own, which may have
failed to be resolved. -/
structure Call where
  relationship : Relationship
  settings : Except SettingsFault Settings

/-- What the call does. -/
def Call.run (c : Call) (t : Types) : Run Fault Types := do
  let s ← Run.ofExcept (c.settings.mapError .settings)
  t.addRelationship s c.relationship

namespace Types

/-- The types after a call; one that fails leaves them as they were. -/
def after (t : Types) (c : Call) : Types :=
  (c.run t).result.toOption.getD t

/-- The types after calls, one after the other. -/
def afterAll (t : Types) (cs : List Call) : Types :=
  cs.foldl after t

/-- A call is a row of offers for its relationship; one that fails is the empty row. -/
theorem after_eq_foldl_offer (t : Types) (c : Call) : ∃ (s : Settings) (ms : List Mutation),
    (∀ m ∈ ms, m.relationship = c.relationship) ∧ t.after c = ms.foldl (offer s) t := by
  cases hrun : (c.run t).result with
  | error e => exact ⟨{}, [], by simp, by rw [after, hrun]; rfl⟩
  | ok t' =>
    obtain ⟨s, -, hs⟩ := Run.result_bind_eq_ok_iff.1 hrun
    refine ⟨s, s.offers [c.relationship], fun m hm => ?_, ?_⟩
    · exact List.mem_singleton.1 (s.relationship_mem_of_mem_offers hm)
    · rw [after, hrun]
      exact (addRelationship_eq_ok_iff.1 hs).2

theorem Holds.afterAll {t : Types} {s : Settings} {m : Mutation} (h : t.Holds s m)
    (cs : List Call) : (t.afterAll cs).Holds s m := by
  induction cs generalizing t with
  | nil => exact h
  | cons c cs ih =>
    obtain ⟨s', ms, -, ht⟩ := after_eq_foldl_offer t c
    exact ih (ht ▸ h.foldl_offer s' ms)

/-- Whatever calls are made from whatever types, the fields that a call adds to the mutation root
stay there, and each of them returns a payload type that is there and agrees with it, as long as
both ends of the call's relationship have names. -/
theorem coherent_of_added (t : Types) (before : List Call) (c : Call) (later : List Call)
    (hfrom : c.relationship.fromType ≠ "") (hto : c.relationship.toType ≠ "") :
    ∃ added : List Field,
      (t.afterAll (before ++ [c])).mutationFields = (t.afterAll before).mutationFields ++ added ∧
      ∀ f ∈ added, f ∈ (t.afterAll (before ++ c :: later)).mutationFields ∧
        ∃ (a : Action) (p : ObjectType),
          (t.afterAll (before ++ c :: later)).generated.find? f.type.typeName =
            some (.typeDef (.object p)) ∧ Coherent c.relationship a f p := by
  have hsplit : t.afterAll (before ++ c :: later) =
      (((t.afterAll before).after c).afterAll later) := by
    rw [afterAll, List.foldl_append]
    rfl
  obtain ⟨s, ms, hms, hafter⟩ := after_eq_foldl_offer (t.afterAll before) c
  obtain ⟨added, hadded, hfields, hholds⟩ := mutationFields_foldl_offer s (t.afterAll before) ms
  refine ⟨added.map fun m => m.field s, ?_, fun f hf => ?_⟩
  · rw [← hfields, ← hafter, afterAll, List.foldl_append]
    rfl
  · obtain ⟨m, hm, rfl⟩ := List.mem_map.1 hf
    have hmr : m.relationship = c.relationship := hms m (hadded hm)
    have hthere := (hafter ▸ hholds m hm).afterAll later
    rw [← hsplit] at hthere
    refine ⟨hthere.field, m.action, m.payload, hthere.payload, ?_⟩
    rw [← hmr] at hfrom hto ⊢
    exact m.coherent s hfrom hto

/-- A call between one that fails and one for another relationship under the same names, with a
stale type under the name of a payload : both fields of the call get their payloads, and keep them.
The payload of the field that creates has the properties, of which the computed one has lost its
argument. -/
theorem coherent_of_added_shared_names :
    let since : Field := { name := { text := "since" }, type := .ofName "Int" }
    let limit : InputValue := { name := { text := "limit" }, type := .ofName "Int" }
    let score (arguments : List InputValue) : Field := {
      name := { text := "score" }, arguments := arguments, type := .ofName "Float"
      directives := [{ name := { text := "cypher" } }] }
    let outputs : List Field := [since, score [limit]]
    let r : Relationship := {
      typeName := "A", fieldName := "bC", outputType := "R", fromType := "A", toType := "B"
      name := .text "R", inputs := outputs.map Field.toInputValue, outputs := outputs }
    let r' : Relationship := {
      typeName := "AB", fieldName := "c", outputType := "S", fromType := "AB", toType := "B"
      name := .text "S" }
    let stale : Definition := .typeDef (.scalar { name := { text := "_AddABCPayload" } })
    let t : Types := {
      defined := .empty
      generated := .ofList [("_AddABCPayload", stale)]
      roots := .ofList [(.mutation, { name := { text := "Mutation" } })] }
    let failed : Call := ⟨r', .error .sectionNotMapping⟩
    let t' : Types := t.afterAll [failed, ⟨r, .ok {}⟩, ⟨r', .ok {}⟩]
    r.fromType ≠ "" ∧ r.toType ≠ "" ∧ ∃ added : List Field,
      (t.afterAll [failed, ⟨r, .ok {}⟩]).mutationFields = added ∧
      added.map (fun f => f.name.text) = ["AddABC", "RemoveABC"] ∧
      (∀ f ∈ added, f ∈ t'.mutationFields ∧ ∃ (a : Action) (p : ObjectType),
        t'.generated.find? f.type.typeName = some (.typeDef (.object p)) ∧ Coherent r a f p) ∧
      ∃ p : ObjectType, t'.generated.find? "_AddABCPayload" = some (.typeDef (.object p)) ∧
        p.fields.drop 2 = [since, score []] := by
  intro since limit score outputs r r' stale t failed t'
  have hfrom : r.fromType ≠ "" := by decide
  have hto : r.toType ≠ "" := by decide
  obtain ⟨added, hadded, hall⟩ :=
    coherent_of_added t [failed] ⟨r, .ok {}⟩ [⟨r', .ok {}⟩] hfrom hto
  have hbefore : (t.afterAll [failed]).mutationFields = [] := rfl
  rw [hbefore, List.nil_append] at hadded
  have hnames : added.map (fun f => f.name.text) = ["AddABC", "RemoveABC"] := by
    rw [← hadded]
    decide
  refine ⟨hfrom, hto, added, hadded, hnames, hall, ?_⟩
  obtain ⟨f, hf, hname⟩ : ∃ f ∈ added, f.name.text = "AddABC" :=
    List.mem_map.1 (hnames ▸ List.mem_cons_self)
  obtain ⟨-, a, p, hp, hcoherent⟩ := hall f hf
  -- The field is the one that creates, since the other has another label.
  obtain rfl : a = .create := by
    cases a with
    | create => rfl
    | delete => exact absurd (hname.symm.trans hcoherent.name) (by decide)
  rw [hcoherent.returns, hname] at hp
  refine ⟨p, hp, ?_⟩
  rw [hcoherent.fields]
  rfl

end Types

end Schema

end RelationApi

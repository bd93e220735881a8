import Mathlib.Data.List.Nodup
import RelationApi.Proofs.Failure
import RelationApi.Proofs.Mutation.Coherence

/-!
# Warnings

A generated type replaces whatever stands under its name. If that was another definition, the log
says so. A call writes several types, one after the other, and each of them may replace something
(`overwritten`); but no two of the types have the same name (`Relationship.nodup_names_types`), so
what counts is what stood there before the call.

`overwriting_of_run` is what a successful call does to the registry of generated types, and what it
says about it : all keys keep their places, the definition of a key is another one exactly if there
is a warning, and only the types of mutations whose fields were added come in.
-/

namespace RelationApi

open Sdl

/-! ## Types that replace others -/

/-- The texts of the warnings in a log. -/
def warnings (log : List Event) : List String :=
  (log.filter fun e => e.level = .warning).map Event.message

@[simp] theorem warnings_append (log log' : List Event) :
    warnings (log ++ log') = warnings log ++ warnings log' := by
  simp [warnings]

theorem message_replaced_injective :
    Function.Injective fun n => (Event.replaced n).message := by
  intro m n h
  have h' : "Generated type " ++ m = "Generated type " ++ n := (String.append_left_inj _).1 h
  exact (String.append_right_inj _).1 h'

theorem warnings_replaced (ns : List String) :
    warnings (ns.map .replaced) = ns.map fun n => (Event.replaced n).message := by
  have hlevel : (ns.map Event.replaced).filter (fun e => e.level = .warning) =
      ns.map Event.replaced :=
    List.filter_eq_self.2 fun e he => by
      obtain ⟨n, -, rfl⟩ := List.mem_map.1 he
      rfl
  rw [warnings, hlevel, List.map_map]
  rfl

/-- Whether another definition stands under the name of the type. -/
def displaces (g : Registry String Definition) (t : TypeDef) : Bool :=
  (g.find? t.name).any fun old => old.type? ≠ some t

theorem displaces_iff {g : Registry String Definition} {t : TypeDef} :
    displaces g t ↔ ∃ old, g.find? t.name = some old ∧ old ≠ .typeDef t := by
  simp [displaces, Option.any_eq_true, Definition.type?_eq_some_iff]

/-- The names of the types that replace another definition when they are written one after the
other. -/
def overwritten : Registry String Definition → List TypeDef → List String
  | _, [] => []
  | g, t :: ts =>
    (if displaces g t then [t.name] else []) ++ overwritten (g.insert t.name (.typeDef t)) ts

theorem overwritten_append (g : Registry String Definition) (ts ts' : List TypeDef) :
    overwritten g (ts ++ ts') = overwritten g ts ++
      overwritten (g.insertAll (ts.map fun t => (t.name, .typeDef t))) ts' := by
  induction ts generalizing g with
  | nil => rfl
  | cons t ts ih =>
    rw [List.cons_append, overwritten, overwritten, ih, List.append_assoc]
    rfl

/-- Types of different names replace what stood there before any of them was written. -/
theorem overwritten_of_nodup {ts : List TypeDef} (h : (ts.map TypeDef.name).Nodup)
    (g : Registry String Definition) :
    overwritten g ts = (ts.filter (displaces g)).map TypeDef.name := by
  induction ts generalizing g with
  | nil => rfl
  | cons t ts ih =>
    rw [List.map_cons, List.nodup_cons] at h
    have hsame : ∀ u ∈ ts, displaces (g.insert t.name (.typeDef t)) u = displaces g u := by
      intro u hu
      have hne : u.name ≠ t.name := fun he => h.1 (he ▸ List.mem_map_of_mem hu)
      rw [displaces, displaces, Registry.find?_insert_of_ne g hne]
    rw [overwritten, ih h.2, List.filter_congr hsame, List.filter_cons]
    split_ifs <;> rfl

theorem nodup_overwritten {ts : List TypeDef} (h : (ts.map TypeDef.name).Nodup)
    (g : Registry String Definition) : (overwritten g ts).Nodup := by
  rw [overwritten_of_nodup h]
  exact h.sublist (List.filter_sublist.map _)

/-- The definitions that change are those of the names that are overwritten. -/
theorem find?_insertAll_ne_iff {ts : List TypeDef} (h : (ts.map TypeDef.name).Nodup)
    {g : Registry String Definition} {k : String} {old : Definition} (hk : g.find? k = some old) :
    (g.insertAll (ts.map fun t => (t.name, .typeDef t))).find? k ≠ some old ↔
      k ∈ overwritten g ts := by
  have hentries : ((ts.map fun t => (t.name, Definition.typeDef t)).map Prod.fst) =
      ts.map TypeDef.name := by
    rw [List.map_map]
    rfl
  rw [overwritten_of_nodup h, List.mem_map]
  constructor
  · intro hne
    have hmem : k ∈ ts.map TypeDef.name := by
      by_contra hnot
      exact hne ((Registry.find?_insertAll_of_notMem (hentries ▸ hnot)).trans hk)
    obtain ⟨t, ht, rfl⟩ := List.mem_map.1 hmem
    rw [Registry.find?_insertAll_of_nodup (hentries ▸ h) (List.mem_map_of_mem ht)] at hne
    exact ⟨t, List.mem_filter.2 ⟨ht, displaces_iff.2 ⟨old, hk, fun he => hne (he ▸ rfl)⟩⟩, rfl⟩
  · rintro ⟨t, ht, rfl⟩ he
    rw [List.mem_filter] at ht
    obtain ⟨old', hold', hne⟩ := displaces_iff.1 ht.2
    obtain rfl := Option.some.inj (hold'.symm.trans hk)
    rw [Registry.find?_insertAll_of_nodup (hentries ▸ h) (List.mem_map_of_mem ht.1)] at he
    exact hne (Option.some.inj he).symm

theorem mem_keys_of_mem_overwritten {ts : List TypeDef} (h : (ts.map TypeDef.name).Nodup)
    {g : Registry String Definition} {k : String} (hk : k ∈ overwritten g ts) : k ∈ g.keys := by
  rw [overwritten_of_nodup h] at hk
  obtain ⟨t, ht, rfl⟩ := List.mem_map.1 hk
  obtain ⟨old, hold, -⟩ := displaces_iff.1 (List.mem_filter.1 ht).2
  exact (g.isSome_find?_iff _).1 (by rw [hold]; rfl)

theorem log_addGenerated (g : Registry String Definition) (t : TypeDef) :
    (addGenerated g t).log = if displaces g t then [.replaced t.name] else [] := by
  unfold addGenerated displaces
  cases g.find? t.name with
  | none => rfl
  | some old =>
    by_cases h : old.type? = some t
    · simp [h]
    · simp only [Option.any_some, ne_eq, h, not_false_eq_true, decide_true, if_true]
      rfl

/-- Each type that replaces another is reported, in order. -/
theorem log_addAllGenerated (g : Registry String Definition) (ts : List TypeDef) :
    (addAllGenerated g ts).log = (overwritten g ts).map .replaced := by
  induction ts generalizing g with
  | nil => rfl
  | cons t ts ih =>
    rw [addAllGenerated, Run.bind_of_ok (result_addGenerated g t), log_addGenerated, overwritten,
      List.map_append, ← ih]
    split_ifs <;> rfl

/-! ## What a call writes -/

/-- The types that go with a mutation. -/
def Mutation.types (m : Mutation) : List TypeDef :=
  m.relationship.generatedTypes m.action m.name

theorem Mutation.names_types (m : Mutation) : m.types.map TypeDef.name =
    m.inputs.map (fun i => i.name.text) ++ [payloadTypeName m.name] := by
  have hgenerated := congrArg (List.map Prod.fst) m.generated_eq
  rw [List.map_append, List.map_map, generated, List.map_map] at hgenerated
  exact hgenerated

/-- The name of a type that goes with a mutation is that of the payload, or it is that of the
properties' input type and the mutation creates. -/
theorem Mutation.name_of_mem_types {m : Mutation} {u : TypeDef} (hu : u ∈ m.types) :
    u.name = payloadTypeName m.name ∨
      m.action = .create ∧ u.name = inputTypeName m.relationship.outputType := by
  have hname := List.mem_map_of_mem (f := TypeDef.name) hu
  rw [m.names_types, List.mem_append, List.mem_singleton] at hname
  refine hname.symm.imp_right fun hinput => ?_
  obtain ⟨i, hi, hiname⟩ := List.mem_map.1 hinput
  refine ⟨?_, hiname.symm.trans (m.name_of_mem_inputs hi)⟩
  cases ha : m.action with
  | create => rfl
  | delete => simp [Mutation.inputs, ha] at hi

/-- No two types that go with the mutations of one relationship have the same name. -/
theorem Relationship.nodup_names_types (r : Relationship) :
    ((r.mutations.flatMap Mutation.types).map TypeDef.name).Nodup := by
  have hpayloads : payloadTypeName (Mutation.name ⟨r, .create⟩) ≠
      payloadTypeName (Mutation.name ⟨r, .delete⟩) := by
    intro h
    have hhead := congrArg (fun n : String => n.toList.head?) (payloadTypeName_injective h)
    simp [Mutation.name, Action.label] at hhead
  have hinput : ∀ m m' : Mutation, ∀ n ∈ m.inputs.map fun i => i.name.text,
      n ≠ payloadTypeName m'.name := by
    intro m m' n hn
    obtain ⟨i, hi, rfl⟩ := List.mem_map.1 hn
    rw [m.name_of_mem_inputs hi]
    exact inputTypeName_ne_payloadTypeName _ _
  have hnames : (r.mutations.flatMap Mutation.types).map TypeDef.name =
      (Mutation.inputs ⟨r, .create⟩).map (fun i => i.name.text) ++
        [payloadTypeName (Mutation.name ⟨r, .create⟩),
          payloadTypeName (Mutation.name ⟨r, .delete⟩)] := by
    change (Mutation.types ⟨r, .create⟩ ++ (Mutation.types ⟨r, .delete⟩ ++ [])).map _ = _
    rw [List.append_nil, List.map_append, Mutation.names_types, Mutation.names_types,
      List.append_assoc]
    rfl
  have hone : ((Mutation.inputs ⟨r, .create⟩).map fun i => i.name.text).Nodup := by
    change (r.inputType?.toList.map _).Nodup
    cases r.inputType? <;> simp
  rw [hnames]
  refine List.nodup_append.2 ⟨hone, by simpa using hpayloads, fun n hn n' hn' => ?_⟩
  rw [List.mem_cons, List.mem_singleton] at hn'
  rcases hn' with rfl | rfl <;> exact hinput _ _ n hn

namespace Schema.Types

variable {s : Settings} {t t' : Types} {r : Relationship}

/-- The types that go with the mutations that the root takes. -/
def written (t : Types) (ms : List Mutation) : List TypeDef :=
  (t.taken ms).flatMap Mutation.types

theorem generated_eq_insertAll_written (s : Settings) (t : Types) (ms : List Mutation) :
    (ms.foldl (offer s) t).generated =
      t.generated.insertAll ((t.written ms).map fun u => (u.name, .typeDef u)) := by
  rw [generated_foldl_offer, written, List.map_flatMap]
  rfl

theorem overwritten_written_append (s : Settings) (t : Types) (ms ms' : List Mutation) :
    overwritten t.generated (t.written (ms ++ ms')) = overwritten t.generated (t.written ms) ++
      overwritten (ms.foldl (offer s) t).generated ((ms.foldl (offer s) t).written ms') := by
  rw [written, taken_append s, List.flatMap_append, overwritten_append,
    generated_eq_insertAll_written]
  rfl

theorem warnings_addMutation {root : ObjectType} (hroot : t.roots.find? .mutation = some root)
    (hr : r.fieldName ≠ "") (a : Action) : warnings (t.addMutation root s r a).log =
      (overwritten t.generated (t.written [⟨r, a⟩])).map fun n => (Event.replaced n).message := by
  rw [addMutation, mutationName_of_ne a r.typeName hr, written, taken_of_some hroot,
    Mutation.accepted]
  change warnings (if (root.field? (Mutation.name ⟨r, a⟩)).isSome then _ else _ :
    Run Fault Types).log = _
  by_cases hfield : (root.field? (Mutation.name ⟨r, a⟩)).isSome
  · rw [if_pos hfield, if_pos ((root.isSome_field?_iff _).1 hfield)]
    rfl
  · rw [if_neg hfield, if_neg (mt (root.isSome_field?_iff _).2 hfield),
      Run.bind_of_ok (result_addAllGenerated _ _), log_addAllGenerated, warnings_append,
      warnings_replaced, Mutation.accepted, List.flatMap_singleton]
    exact List.append_nil _

/-- Adding mutations warns of each type that replaces another, and of nothing else. -/
theorem warnings_addMutations (hr : r.fieldName ≠ "") (as : List Action) :
    warnings (t.addMutations s r as).log =
      (overwritten t.generated (t.written (as.map (Mutation.mk r)))).map
        fun n => (Event.replaced n).message := by
  induction as generalizing t with
  | nil =>
    rw [written, List.map_nil, List.sublist_nil.1 (t.taken_sublist [])]
    rfl
  | cons a as ih =>
    rw [addMutations]
    cases hroot : t.roots.find? .mutation with
    | none =>
      rw [written, taken, hroot]
      rfl
    | some root =>
      dsimp only
      rw [Run.bind_of_ok (result_addMutation hroot hr a), warnings_append,
        warnings_addMutation hroot hr, ih, ← List.map_append]
      exact congrArg (List.map _) (overwritten_written_append s t [⟨r, a⟩] _).symm

/-- The same for a whole relationship, if it can be added. -/
theorem warnings_addRelationship (h : (t.addRelationship s r).result = .ok t') :
    warnings (t.addRelationship s r).log =
      (overwritten t.generated (t.written (s.offers [r]))).map
        fun n => (Event.replaced n).message := by
  obtain ⟨hadd, -⟩ := addRelationship_eq_ok_iff.1 h
  rw [addRelationship, Registry.contains]
  cases hroot : t.roots.find? .mutation with
  | none =>
    rw [written, taken, hroot]
    rfl
  | some root =>
    obtain ⟨b, hb, hfield⟩ := hadd (by rw [hroot]; rfl)
    rw [offers_singleton_of_ok hb]
    change warnings (Run.ofExcept ((s.mutates r).mapError Fault.settings) >>= _).log = _
    rw [hb]
    cases b with
    | false =>
      rw [written, if_neg Bool.false_ne_true, List.sublist_nil.1 (t.taken_sublist [])]
      rfl
    | true => exact warnings_addMutations (hfield rfl) Action.all

/-- No two types that a call writes have the same name. -/
theorem nodup_names_written (t : Types) (s : Settings) (r : Relationship) :
    ((t.written (s.offers [r])).map TypeDef.name).Nodup := by
  have hoffers : (s.offers [r]).Sublist r.mutations :=
    List.flatMap_singleton Relationship.mutations r ▸ s.offers_sublist [r]
  exact r.nodup_names_types.sublist
    ((((t.taken_sublist _).trans hoffers).flatMap Mutation.types).map _)

/-! ## The registry after a call -/

/-- What a successful call does to the generated types. All keys stay where they are, new ones come
behind them. The definition of a key is another one afterwards, even if only in its places, exactly
if there is a warning about the key; no warning is repeated, and each is about a key that was
there. Only two sorts of keys are new or have another definition : the payload of a mutation whose
field was added, and the input type of the properties if the field to create was added. -/
theorem overwriting_of_run (t t' : Types) (c : Call) (h : (c.run t).result = .ok t') :
    t.generated.keys <+: t'.generated.keys ∧
    (∀ k old, t.generated.find? k = some old →
      (t'.generated.find? k ≠ some old ↔
        "Generated type " ++ k ++ " replaced with a different definition" ∈
          warnings (c.run t).log)) ∧
    (warnings (c.run t).log).Nodup ∧
    (∀ w ∈ warnings (c.run t).log, ∃ k ∈ t.generated.keys,
      w = "Generated type " ++ k ++ " replaced with a different definition") ∧
    ∃ added : List Field, t'.mutationFields = t.mutationFields ++ added ∧
      ∀ k, t'.generated.find? k ≠ t.generated.find? k → ∃ (a : Action), ∃ f ∈ added,
        f.name.text = a.label ++ c.relationship.typeName ++
          Text.capitalized c.relationship.fieldName ∧
        (k = "_" ++ f.name.text ++ "Payload" ∨
          a = .create ∧ k = "_" ++ c.relationship.outputType ++ "Input") := by
  obtain ⟨s, hs, hadd⟩ := Run.result_bind_eq_ok_iff.1 h
  have hwarnings : warnings (c.run t).log =
      (overwritten t.generated (t.written (s.offers [c.relationship]))).map
        fun n => (Event.replaced n).message := by
    rw [Call.run, Run.bind_of_ok hs]
    exact warnings_addRelationship hadd
  have hnodup := nodup_names_written t s c.relationship
  have ht' := (addRelationship_eq_ok_iff.1 hadd).2
  have hgenerated : t'.generated = t.generated.insertAll
      ((t.written (s.offers [c.relationship])).map fun u => (u.name, .typeDef u)) := by
    rw [ht']
    exact generated_eq_insertAll_written s t _
  rw [hwarnings]
  refine ⟨?_, fun k old hk => ?_, ?_, fun w hw => ?_,
    (t.taken (s.offers [c.relationship])).map fun m => m.field s, ?_, fun k hne => ?_⟩
  · rw [hgenerated]
    exact Registry.prefix_keys_insertAll _ _
  · rw [hgenerated, find?_insertAll_ne_iff hnodup hk]
    exact (List.mem_map_of_injective message_replaced_injective).symm
  · exact (nodup_overwritten hnodup _).map message_replaced_injective
  · obtain ⟨k, hk, rfl⟩ := List.mem_map.1 hw
    exact ⟨k, mem_keys_of_mem_overwritten hnodup hk, rfl⟩
  · rw [ht']
    exact mutationFields_eq s t _
  · have hwritten : k ∈ (t.written (s.offers [c.relationship])).map TypeDef.name := by
      by_contra hnot
      rw [hgenerated, Registry.find?_insertAll_of_notMem (by rwa [List.map_map])] at hne
      exact hne rfl
    obtain ⟨u, hu, rfl⟩ := List.mem_map.1 hwritten
    obtain ⟨m, hm, hum⟩ := List.mem_flatMap.1 hu
    have hr : m.relationship = c.relationship :=
      List.mem_singleton.1 (s.relationship_mem_of_mem_offers (mem_of_mem_taken hm))
    refine ⟨m.action, m.field s, List.mem_map_of_mem hm, ?_, ?_⟩
    · rw [m.name_field, ← hr]
      rfl
    · rw [m.name_field, ← hr]
      exact Mutation.name_of_mem_types hum

/-- Stale definitions under three names, and a root that has one of the two fields. The input type
of the properties makes way for another one, which is reported. The payload of the other field
stays, and that of the new one is what it would be. -/
theorem overwriting_of_run_stale :
    let since : Field := { name := { text := "since" }, type := .ofName "Int" }
    let r : Relationship := {
      typeName := "A", fieldName := "bC", outputType := "R", fromType := "A", toType := "B"
      name := .text "R", inputs := [since.toInputValue], outputs := [since] }
    let root : ObjectType := {
      name := { text := "Mutation" }
      fields := [{ name := { text := "RemoveABC" }, type := .ofName "Int" }] }
    let stale : Definition := .typeDef (.scalar { name := { text := "Stale" } })
    let payload : Definition := .typeDef (.object (Mutation.payload ⟨r, .create⟩))
    let t : Types := {
      defined := .empty
      generated := .ofList
        [("_RemoveABCPayload", stale), ("_AddABCPayload", payload), ("_RInput", stale)]
      roots := .ofList [(.mutation, root)] }
    let c : Call := ⟨r, .ok {}⟩
    warnings (c.run t).log = ["Generated type _RInput replaced with a different definition"] ∧
      ∃ t', (c.run t).result = .ok t' ∧ t'.generated.find? "_RInput" ≠ some stale ∧
        t'.generated.find? "_AddABCPayload" = some payload ∧
        t'.generated.find? "_RemoveABCPayload" = some stale := by
  intro since r root stale payload t c
  have hwarnings : warnings (c.run t).log =
      ["Generated type _RInput replaced with a different definition"] := by decide
  have hok : (c.run t).result.isOk = true := by decide
  obtain ⟨t', ht'⟩ := except_isOk_iff.1 hok
  obtain ⟨-, hreplaced, -⟩ := overwriting_of_run t t' c ht'
  rw [hwarnings] at hreplaced
  refine ⟨hwarnings, t', ht', (hreplaced "_RInput" stale rfl).2 (by decide), ?_, ?_⟩
  · exact not_not.1 (mt (hreplaced "_AddABCPayload" payload rfl).1 (by decide))
  · exact not_not.1 (mt (hreplaced "_RemoveABCPayload" stale rfl).1 (by decide))

end Schema.Types

end RelationApi

import RelationApi.Proofs.Relationship.Faults
import RelationApi.Proofs.Schema.SharedNames

/-!
# How a run fails

With settings that have an answer for every relationship, a run over a document that was read fails
only while it looks for relationships : the names of the fields come from the text, so none of them
is empty. The fault is that of the first offender (`Relationship.FirstFault`), and it depends on
nothing but the types other than roots (`augment_fails_iff`).
-/

namespace RelationApi.Schema

open Sdl Relationship

variable {text : String} {d : Document} {resolved : Except SettingsFault Settings} {s : Settings}

/-- A run over a document that was read, with settings that have an answer for every relationship,
fails while it looks for relationships, or not at all. -/
theorem augment_eq_error_iff_firstFault (hparse : Document.parse text = .ok d)
    (hs : ∀ fromType toType, ∃ b,
      s.augmentsRelationship OperationKind.mutation.keyword fromType toType = .ok b) {e : Fault} :
    (augment d (.ok s)).result = .error e ↔ FirstFault (sorted d).defined e := by
  rw [augment_eq_error_iff, augmentedTypes_eq_error_iff,
    collect_eq_error_iff (keptByName_defined d)]
  refine or_iff_left ?_
  rintro ⟨-, found, hfound, he⟩
  obtain ⟨r, hr, hfault⟩ := List.exists_of_findSome?_eq_some he
  have hadd : s.CanAdd r := by
    obtain ⟨b, hb⟩ := hs r.fromType r.toType
    exact ⟨b, hb, fun _ => fieldName_ne_of_mem_collect hparse hfound hr⟩
  rw [Settings.canAdd_iff.1 hadd] at hfault
  cases hfault

/-- The fault of a definition names the type that is malformed, or that has the field which is
misbound. -/
theorem exists_type?_of_firstFault {types : Registry String TypeDef} {fault : DefinitionFault}
    (h : FirstFault types (.definition fault)) : ∃ t ∈ objectsOf types,
      fault.type? = some t.name.text ∧ (RelationshipType.Malformed t fault ∨
        ∃ f ∈ t.fields, Misbound types t f (.definition fault)) := by
  cases h with
  | type hobjects _ ht =>
    refine ⟨_, hobjects ▸ List.mem_append_cons_self, ?_, Or.inl ht⟩
    cases ht <;> rfl
  | @field _ _ t f _ _ hfields _ hf =>
    have hmem : (t, f) ∈ nodeFields types := hfields ▸ List.mem_append_cons_self
    obtain ⟨ht, -, hfield⟩ := mem_nodeFields_iff.1 hmem
    refine ⟨t, ht, ?_, Or.inr ⟨f, hfield, hf⟩⟩
    cases hf
    rfl

/-- A run over a document that was read, with settings that have an answer for every relationship,
fails exactly if an object type that is bound has no name for the relationship or lacks an end, or
if a field of a node type leads to a node type by a binding that has no name or whose direction is
true. The fault is that of the first offender; it names the type of the offender, and is never that
a field has no name. Neither the settings nor the roots make a difference. -/
theorem augment_fails_iff (hparse : Document.parse text = .ok d)
    (hs : ∀ fromType toType, ∃ b,
      s.augmentsRelationship OperationKind.mutation.keyword fromType toType = .ok b) :
    ((∃ e, (augment d (.ok s)).result = .error e) ↔
      (∃ t ∈ objectsOf (sorted d).defined, ∃ x,
        AnnotationKind.relation.first? t.directives = some x ∧
        (¬(x.attribute "name").isGiven ∨ t.field? fromField = none ∨ t.field? toField = none)) ∨
      ∃ t ∈ objectsOf (sorted d).defined, ¬t.IsBound ∧ ∃ f ∈ t.fields,
        isComputed f.directives = false ∧ ∃ o,
        (sorted d).defined.find? f.type.typeName = some (.object o) ∧ ¬o.IsBound ∧ ∃ x,
        AnnotationKind.relation.first? f.directives = some x ∧
        (¬(x.attribute "name").isGiven ∨ x.attribute "direction" = .flag true)) ∧
    (∀ e, (augment d (.ok s)).result = .error e ↔ FirstFault (sorted d).defined e) ∧
    (∀ fault, (augment d (.ok s)).result = .error (.definition fault) →
      ∃ t ∈ objectsOf (sorted d).defined, fault.type? = some t.name.text ∧
        (RelationshipType.Malformed t fault ∨
          ∃ f ∈ t.fields, Misbound (sorted d).defined t f (.definition fault))) ∧
    (∀ type field, (augment d (.ok s)).result ≠ .error (.definition (.fieldNameEmpty type field))) ∧
    ∀ {text' d' s'}, Document.parse text' = .ok d' →
      (∀ fromType toType, ∃ b,
        s'.augmentsRelationship OperationKind.mutation.keyword fromType toType = .ok b) →
      (sorted d').defined = (sorted d).defined →
      ∀ e, (augment d' (.ok s')).result = .error e ↔ (augment d (.ok s)).result = .error e := by
  have hfirst {e : Fault} := augment_eq_error_iff_firstFault hparse hs (e := e)
  refine ⟨?_, fun e => hfirst, fun fault h => exists_type?_of_firstFault (hfirst.1 h),
    fun type field h => ?_, fun hparse' hs' hsame e => ?_⟩
  · simp only [hfirst, exists_firstFault_iff, RelationshipType.exists_malformed_iff,
      exists_misbound_iff, Prod.exists, mem_nodeFields_iff, and_assoc, exists_and_left]
  · obtain ⟨t, -, -, ht | ⟨f, -, hf⟩⟩ := exists_type?_of_firstFault (hfirst.1 h)
    · cases ht
    · cases hf
  · rw [augment_eq_error_iff_firstFault hparse' hs', hsame, hfirst]

/-- A field whose direction is true, before one whose binding has no name. -/
def flaggedDirection : String :=
  "type A \x7b bs: [B!] @relation(name: \"R\", direction: true) b: B @relation \x7d " ++
  "type B \x7b a: A \x7d"

/-- With or without a mutation root, and with some types excluded or none, the direction is what the
run fails at. -/
theorem augment_fails_iff_direction :
    let s : Settings := { mutation := .mapping [(.text "exclude", .list [.text "B"])] }
    ∃ d d', Document.parse flaggedDirection = .ok d ∧
      Document.parse (flaggedDirection ++ "type Mutation") = .ok d' ∧
      (∀ fromType toType, ∃ b,
        s.augmentsRelationship OperationKind.mutation.keyword fromType toType = .ok b) ∧
      (augment d (.ok s)).result = .error (.literal .directionFlag) ∧
      (augment d' (.ok {})).result = .error (.literal .directionFlag) := by
  intro s
  have hinput : ∃ d, Document.parse flaggedDirection = .ok d ∧
      collect (sorted d).defined = .error (.literal .directionFlag) ∧
      ∃ d', Document.parse (flaggedDirection ++ "type Mutation") = .ok d' ∧
        (sorted d').defined.entries = (sorted d).defined.entries := by
    decide +kernel
  obtain ⟨d, hparse, hcollect, d', hparse', hsame⟩ := hinput
  have hs : ∀ fromType toType, ∃ b,
      s.augmentsRelationship OperationKind.mutation.keyword fromType toType = .ok b := by
    have hone : s.mutates ⟨"A", "bs", "B", "A", "A", .text "R", [], []⟩ = .ok true := by rfl
    exact fun fromType toType => Settings.mutates_eq_ok hone
      ⟨"A", "bs", "B", fromType, toType, .text "R", [], []⟩
  obtain ⟨-, hfirst, -, -, hother⟩ := augment_fails_iff hparse hs
  have hfails := (hfirst _).2 ((collect_eq_error_iff (keptByName_defined d)).1 hcollect)
  refine ⟨d, d', hparse, hparse', hs, hfails, ?_⟩
  exact (hother hparse' (fun _ _ => ⟨true, rfl⟩) (Registry.ext hsame) _).2 hfails

end RelationApi.Schema

import RelationApi.Proofs.Relationship.Sites
import RelationApi.Proofs.Schema.Permanence
import RelationApi.Proofs.Sdl.Legible
import RelationApi.Proofs.Sdl.Lexeme

/-!
# What is found in a legible document

Sorting a legible document gives legible types : the parts that a type gets from its extensions are
as legible as its own. So all names that a relationship is found with are names of the document, and
its properties are fields of the document (`legible_of_mem_collect`).
-/

namespace RelationApi

open Sdl

variable {T : TokenKind → Prop}

theorem Sdl.TypeRef.Legible.typeName {room : Nat} {t : TypeRef} (h : t.Legible T room) :
    T (.name t.typeName) := by
  induction h with
  | named h => exact h
  | list _ ih => exact ih
  | nonNull _ _ ih => exact ih

/-- A document that was read has the names and numbers that the grammar admits. -/
theorem Sdl.Document.legible_of_read {text : String} {d : Document}
    (h : Document.parse text = .ok d) : d.Legible TokenKind.Legible :=
  legible_of_parse h trivial fun _ ht => Token.legible_of_mem_ofChars ht

/-- The names and the properties of a relationship are legible. -/
structure Relationship.Legible (T : TokenKind → Prop) (r : Relationship) : Prop where
  typeName : T (.name r.typeName)
  fieldName : T (.name r.fieldName)
  outputType : T (.name r.outputType)
  fromType : T (.name r.fromType)
  toType : T (.name r.toType)
  outputs : ∀ f ∈ r.outputs, f.Legible T
  inputs : r.inputs = r.outputs.map Field.toInputValue

namespace Schema

/-- All types are legible. -/
structure Types.Legible (T : TokenKind → Prop) (types : Types) : Prop where
  defined : ∀ n t, types.defined.find? n = some t → t.Legible T
  generated : ∀ n x, types.generated.find? n = some x → ∃ t, x = .typeDef t ∧ t.Legible T
  roots : ∀ k t, types.roots.find? k = some t → t.Legible T

variable {d : Document}

theorem legible_extended (h : d.Legible T) {t : ObjectType}
    (ht : .typeDef (.object t) ∈ d.definitions) : (extended d t).Legible T := by
  have ht : t.Legible T := h _ ht
  have hextensions (e : ObjectType) (he : e ∈ extensionsOf d t.name.text) : e.Legible T :=
    (h _ (mem_extensionsOf_iff.1 he).1).1
  rw [extended_eq]
  refine ⟨ht.description, ht.name, ?_, ?_, ?_⟩
  · exact List.forall_mem_append.2 ⟨ht.interfaces,
      List.forall_mem_flatMap.2 fun e he => (hextensions e he).interfaces⟩
  · exact List.forall_mem_append.2 ⟨ht.directives,
      List.forall_mem_flatMap.2 fun e he => (hextensions e he).directives⟩
  · exact List.forall_mem_append.2 ⟨ht.fields,
      List.forall_mem_flatMap.2 fun e he => (hextensions e he).fields⟩

theorem legible_sorted (h : d.Legible T) : (sorted d).Legible T where
  defined n t ht := by
    obtain ⟨u, hu, rfl, ⟨o, rfl, -, rfl⟩ | ⟨-, rfl⟩⟩ := mem_of_find?_defined ht
    · exact legible_extended h hu
    · exact h _ hu
  generated n x hx := by cases hx
  roots k t ht := by
    obtain ⟨u, hu, -, rfl⟩ := mem_of_find?_roots ht
    exact legible_extended h hu

/-- An endpoint is the type of a field, which has a legible name. -/
theorem legible_of_endpoint {t : ObjectType} (h : t.Legible T) {name n : String}
    (hn : RelationshipType.endpoint t name = .ok n) : T (.name n) := by
  unfold RelationshipType.endpoint at hn
  split at hn
  · next f hf =>
    cases hn
    exact (h.fields f (List.mem_of_find?_eq_some hf)).type.typeName
  · cases hn

/-- What is found in a legible document is legible. -/
theorem legible_of_mem_collect (h : d.Legible T) {found : List Relationship}
    (hfound : Relationship.collect (sorted d).defined = .ok found) {r : Relationship}
    (hr : r ∈ found) : r.Legible T := by
  obtain ⟨t, f, hsite⟩ := Relationship.exists_site_of_mem_collect (keptByName_defined d) hfound hr
  have ht : t.Legible T := (legible_sorted h).defined _ _ hsite.type
  have hf := ht.fields f hsite.field
  cases hsite.leads with
  | type hfind hq =>
    obtain ⟨_, -, -, _, hfrom, _, hto, rfl⟩ := RelationshipType.of?_eq_some_iff.1 hq
    have ho := (legible_sorted h).defined _ _ hfind
    refine ⟨ht.name, hf.name, ObjectType.Legible.name ho, legible_of_endpoint ho hfrom,
      legible_of_endpoint ho hto, fun g hg => ?_, rfl⟩
    exact ObjectType.Legible.fields ho g (List.mem_of_mem_filter hg)
  | field _ _ _ hr =>
    obtain ⟨-, inward, -, rfl⟩ := Relationship.throughField_eq_ok_iff.1 hr
    have hrelated := hf.type.typeName
    refine ⟨ht.name, hf.name, hrelated, ?_, ?_, nofun, rfl⟩
    · cases inward
      · exact ht.name
      · exact hrelated
    · cases inward
      · exact hrelated
      · exact ht.name

end Schema

end RelationApi

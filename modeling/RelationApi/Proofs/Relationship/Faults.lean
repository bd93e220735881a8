import RelationApi.Proofs.Relationship.Search

/-!
# How a search fails

An object type with `@relation` has to be a relationship type : it needs a name for the relationship
and a field for each end (`RelationshipType.Malformed`). A field that leads to a node type by a
binding of its own needs a name, too, and a direction that is no flag (`Relationship.Misbound`). A
search fails if there is one of these, and it fails as the first of them does
(`Relationship.FirstFault`), where all types come before all fields
(`Relationship.collect_eq_error_iff`).
-/

namespace RelationApi

open Sdl

/-- If a list has an item with a property, one of them is the first. -/
theorem exists_first_of_mem {α : Type} {p : α → Prop} {as : List α} (h : ∃ a ∈ as, p a) :
    ∃ before a after, as = before ++ a :: after ∧ (∀ b ∈ before, ¬p b) ∧ p a := by
  classical
  obtain ⟨a, ha, hp⟩ := h
  have hsome : (as.find? fun a => p a).isSome := List.find?_isSome.2 ⟨a, ha, by simpa using hp⟩
  obtain ⟨b, hb⟩ := Option.isSome_iff_exists.1 hsome
  obtain ⟨hp, before, after, rfl, hbefore⟩ := List.find?_eq_some_iff_append.1 hb
  exact ⟨before, b, after, rfl, by simpa using hbefore, by simpa using hp⟩

/-! ## Types -/

namespace RelationshipType

/-- The object type is bound to a relationship, but it is no relationship type. The fault is the
first of those that the type has. -/
inductive Malformed (t : ObjectType) : DefinitionFault → Prop
  | unnamed {x : Directive} : AnnotationKind.relation.first? t.directives = some x →
      ¬(x.attribute "name").isGiven → Malformed t (.relationshipTypeUnnamed t.name.text)
  | noFrom {x : Directive} : AnnotationKind.relation.first? t.directives = some x →
      (x.attribute "name").isGiven → t.field? fromField = none →
      Malformed t (.endpointMissing t.name.text fromField)
  | noTo {x : Directive} : AnnotationKind.relation.first? t.directives = some x →
      (x.attribute "name").isGiven → t.field? fromField ≠ none → t.field? toField = none →
      Malformed t (.endpointMissing t.name.text toField)

variable {t : ObjectType}

/-- A field that is missing is the fault of an end. -/
theorem endpoint_of_none {name : String} (h : t.field? name = none) :
    endpoint t name = .error (.endpointMissing t.name.text name) := by
  rw [endpoint, h]

theorem exists_endpoint_eq_ok {name : String} (h : t.field? name ≠ none) :
    ∃ n, endpoint t name = .ok n := by
  obtain ⟨f, hf⟩ := Option.ne_none_iff_exists'.1 h
  exact ⟨_, by rw [endpoint, hf]⟩

/-- What the first directive says decides on an object type that is bound. -/
theorem of?_of_first? {x : Directive}
    (hx : AnnotationKind.relation.first? t.directives = some x) : of? t =
      if (x.attribute "name").isGiven then
        endpoint t fromField >>= fun fromType => endpoint t toField >>= fun toType =>
          .ok (some ⟨t, x.attribute "name", fromType, toType⟩)
      else .error (.relationshipTypeUnnamed t.name.text) := by
  have hb : binding? t.directives = some (.ofDirective x) := by rw [binding?, hx]; rfl
  rw [of?, hb]
  dsimp only [Binding.ofDirective]
  cases (x.attribute "name").isGiven <;> rfl

/-- A type that is malformed has that fault. -/
theorem Malformed.of?_eq {e : DefinitionFault} (h : Malformed t e) : of? t = .error e := by
  cases h with
  | unnamed hx hname => rw [of?_of_first? hx, if_neg hname]
  | noFrom hx hname hfrom =>
    rw [of?_of_first? hx, if_pos hname, endpoint_of_none hfrom]
    rfl
  | noTo hx hname hfrom hto =>
    obtain ⟨n, hn⟩ := exists_endpoint_eq_ok hfrom
    rw [of?_of_first? hx, if_pos hname, hn, endpoint_of_none hto]
    rfl

/-- The faults of a type are those of a malformed one. -/
theorem of?_eq_error_iff {e : DefinitionFault} : of? t = .error e ↔ Malformed t e := by
  refine ⟨fun h => ?_, Malformed.of?_eq⟩
  cases hx : AnnotationKind.relation.first? t.directives with
  | none =>
    have hb : ¬t.IsBound := by simp [ObjectType.IsBound, binding?, hx]
    rw [of?_of_not_isBound hb] at h
    cases h
  | some x =>
    -- The type has one of the faults, or else it is a relationship type.
    have hfault : ∀ {e'}, Malformed t e' → Malformed t e := fun he' =>
      Except.error.inj (he'.of?_eq.symm.trans h) ▸ he'
    by_cases hname : ¬(x.attribute "name").isGiven
    · exact hfault (.unnamed hx hname)
    rw [Decidable.not_not] at hname
    by_cases hfrom : t.field? fromField = none
    · exact hfault (.noFrom hx hname hfrom)
    by_cases hto : t.field? toField = none
    · exact hfault (.noTo hx hname hfrom hto)
    obtain ⟨fromType, hfrom⟩ := exists_endpoint_eq_ok hfrom
    obtain ⟨toType, hto⟩ := exists_endpoint_eq_ok hto
    rw [of?_of_first? hx, if_pos hname, hfrom, hto] at h
    cases h

theorem exists_malformed_iff : (∃ e, Malformed t e) ↔
    ∃ x, AnnotationKind.relation.first? t.directives = some x ∧
      (¬(x.attribute "name").isGiven ∨ t.field? fromField = none ∨ t.field? toField = none) := by
  constructor
  · rintro ⟨_, ⟨hx, hname⟩ | ⟨hx, -, hfrom⟩ | ⟨hx, -, -, hto⟩⟩
    · exact ⟨_, hx, Or.inl hname⟩
    · exact ⟨_, hx, Or.inr (Or.inl hfrom)⟩
    · exact ⟨_, hx, Or.inr (Or.inr hto)⟩
  · rintro ⟨x, hx, hfault⟩
    by_cases hname : ¬(x.attribute "name").isGiven
    · exact ⟨_, .unnamed hx hname⟩
    have hends := hfault.resolve_left hname
    rw [Decidable.not_not] at hname
    by_cases hfrom : t.field? fromField = none
    · exact ⟨_, .noFrom hx hname hfrom⟩
    · exact ⟨_, .noTo hx hname hfrom (hends.resolve_left hfrom)⟩

end RelationshipType

/-! ## Fields -/

namespace Relationship

/-- The field of a node type leads to a node type by a binding of its own, of which no relationship
can be made. -/
inductive Misbound (types : Registry String TypeDef) (t : ObjectType) (f : Field) : Fault → Prop
  | unnamed {o : ObjectType} {x : Directive} : isComputed f.directives = false →
      types.find? f.type.typeName = some (.object o) → ¬o.IsBound →
      AnnotationKind.relation.first? f.directives = some x → ¬(x.attribute "name").isGiven →
      Misbound types t f (.definition (.relationshipFieldUnnamed t.name.text f.name.text))
  | direction {o : ObjectType} {x : Directive} : isComputed f.directives = false →
      types.find? f.type.typeName = some (.object o) → ¬o.IsBound →
      AnnotationKind.relation.first? f.directives = some x → (x.attribute "name").isGiven →
      x.attribute "direction" = .flag true → Misbound types t f (.literal .directionFlag)

theorem throughField_of_name {typeName : String} {f : Field} {b : Binding}
    (hname : b.link.name.isGiven) : throughField typeName f b =
      ((isInward b.direction).mapError .literal).map fun inward =>
        { typeName := typeName
          fieldName := f.name.text
          outputType := f.type.typeName
          fromType := if inward then f.type.typeName else typeName
          toType := if inward then typeName else f.type.typeName
          name := b.link.name } := by
  unfold throughField
  rw [hname]
  rfl

/-- A field whose relationship has no name has a fault. -/
theorem throughField_unnamed {typeName : String} {f : Field} {b : Binding}
    (hname : ¬b.link.name.isGiven) : throughField typeName f b =
      .error (.definition (.relationshipFieldUnnamed typeName f.name.text)) := by
  unfold throughField
  rw [Bool.eq_false_iff.2 hname]
  rfl

theorem exists_isInward_eq_ok {direction : Scalar} (h : direction ≠ .flag true) :
    ∃ inward, isInward direction = .ok inward := by
  rcases direction with _ | _ | _
  · exact ⟨_, rfl⟩
  · next flag =>
    cases flag
    · exact ⟨_, rfl⟩
    · exact absurd rfl h
  · exact ⟨_, rfl⟩

theorem exists_misbound_iff {types : Registry String TypeDef} {t : ObjectType} {f : Field} :
    (∃ e, Misbound types t f e) ↔ isComputed f.directives = false ∧
      ∃ o, types.find? f.type.typeName = some (.object o) ∧ ¬o.IsBound ∧
        ∃ x, AnnotationKind.relation.first? f.directives = some x ∧
          (¬(x.attribute "name").isGiven ∨ x.attribute "direction" = .flag true) := by
  constructor
  · rintro ⟨_, ⟨hf, ho, hb, hx, hname⟩ | ⟨hf, ho, hb, hx, -, hdirection⟩⟩
    · exact ⟨hf, _, ho, hb, _, hx, Or.inl hname⟩
    · exact ⟨hf, _, ho, hb, _, hx, Or.inr hdirection⟩
  · rintro ⟨hf, o, ho, hb, x, hx, hfault⟩
    by_cases hname : ¬(x.attribute "name").isGiven
    · exact ⟨_, .unnamed hf ho hb hx hname⟩
    · exact ⟨_, .direction hf ho hb hx (Decidable.not_not.1 hname) (hfault.resolve_left hname)⟩

section Search

variable {types : Registry String TypeDef}

/-- A field that is misbound has that fault. -/
theorem Misbound.lead?_eq {t : ObjectType} {f : Field} {e : Fault} (h : Misbound types t f e) :
    lead? types t f = .error e := by
  have hbinding {x : Directive} (hx : AnnotationKind.relation.first? f.directives = some x) :
      binding? f.directives = some (.ofDirective x) := by
    rw [binding?, hx]
    rfl
  cases h with
  | unnamed hf ho hb hx hname =>
    rw [lead?_of_not_isBound hf (objectType?_eq_some_iff.2 ho) hb, hbinding hx, Option.elim_some,
      throughField_unnamed hname]
    rfl
  | direction hf ho hb hx hname hdirection =>
    rw [lead?_of_not_isBound hf (objectType?_eq_some_iff.2 ho) hb, hbinding hx, Option.elim_some,
      throughField_of_name hname]
    dsimp only [Binding.ofDirective]
    rw [hdirection]
    rfl

/-- Where no type is malformed, a field fails only because it is misbound itself. -/
theorem lead?_eq_error_iff (hok : ∀ o ∈ objectsOf types, ∀ e, ¬RelationshipType.Malformed o e)
    (hnames : KeptByName types) {t : ObjectType} {f : Field} {e : Fault} :
    lead? types t f = .error e ↔ Misbound types t f e := by
  refine ⟨fun h => ?_, Misbound.lead?_eq⟩
  by_cases hnone : isComputed f.directives = true ∨ objectType? types f.type.typeName = none
  · rw [lead?_of_none hnone] at h
    cases h
  rw [not_or, Bool.not_eq_true, ← ne_eq, Option.ne_none_iff_exists'] at hnone
  obtain ⟨hf, o, ho⟩ := hnone
  by_cases hb : o.IsBound
  · rw [lead?_of_isBound hf ho hb] at h
    obtain ⟨e', he', -⟩ := mapError_eq_error_iff.1 (except_map_eq_error_iff.1 h)
    have hmem := ((objectType?_eq_some_iff_mem hnames).1 ho).1
    exact absurd (RelationshipType.of?_eq_error_iff.1 he') (hok o hmem e')
  cases hx : AnnotationKind.relation.first? f.directives with
  | none =>
    rw [lead?_of_not_isBound hf ho hb, binding?, hx] at h
    cases h
  | some x =>
    have hfault : ∀ {e'}, Misbound types t f e' → Misbound types t f e := fun he' =>
      Except.error.inj (he'.lead?_eq.symm.trans h) ▸ he'
    by_cases hname : ¬(x.attribute "name").isGiven
    · exact hfault (.unnamed hf (objectType?_eq_some_iff.1 ho) hb hx hname)
    rw [Decidable.not_not] at hname
    by_cases hdirection : x.attribute "direction" = .flag true
    · exact hfault (.direction hf (objectType?_eq_some_iff.1 ho) hb hx hname hdirection)
    obtain ⟨inward, hinward⟩ := exists_isInward_eq_ok hdirection
    rw [lead?_of_not_isBound hf ho hb, binding?, hx, Option.map_some, Option.elim_some,
      throughField_of_name hname, Binding.ofDirective, hinward] at h
    cases h

/-- The fault is that of the first type that is malformed, or else of the first field of a node type
that is misbound. -/
inductive FirstFault (types : Registry String TypeDef) : Fault → Prop
  | type {before after : List ObjectType} {t : ObjectType} {e : DefinitionFault} :
      objectsOf types = before ++ t :: after →
      (∀ u ∈ before, ∀ e', ¬RelationshipType.Malformed u e') →
      RelationshipType.Malformed t e → FirstFault types (.definition e)
  | field {before after : List (ObjectType × Field)} {t : ObjectType} {f : Field} {e : Fault} :
      (∀ u ∈ objectsOf types, ∀ e', ¬RelationshipType.Malformed u e') →
      nodeFields types = before ++ (t, f) :: after →
      (∀ x ∈ before, ∀ e', ¬Misbound types x.1 x.2 e') →
      Misbound types t f e → FirstFault types e

/-- If there is an offender, there is a first one. -/
theorem exists_firstFault_iff : (∃ e, FirstFault types e) ↔
    (∃ t ∈ objectsOf types, ∃ e, RelationshipType.Malformed t e) ∨
      ∃ x ∈ nodeFields types, ∃ e, Misbound types x.1 x.2 e := by
  constructor
  · rintro ⟨_, ⟨hobjects, -, ht⟩ | ⟨-, hfields, -, hf⟩⟩
    · exact Or.inl ⟨_, hobjects ▸ List.mem_append_cons_self, _, ht⟩
    · exact Or.inr ⟨_, hfields ▸ List.mem_append_cons_self, _, hf⟩
  · intro h
    by_cases htypes : ∃ t ∈ objectsOf types, ∃ e, RelationshipType.Malformed t e
    · obtain ⟨before, t, after, hobjects, hbefore, e, ht⟩ := exists_first_of_mem htypes
      exact ⟨_, .type hobjects (fun u hu e' he' => hbefore u hu ⟨e', he'⟩) ht⟩
    · obtain ⟨before, x, after, hfields, hbefore, e, hf⟩ :=
        exists_first_of_mem (h.resolve_left htypes)
      exact ⟨e, .field (fun u hu e' he' => htypes ⟨u, hu, e', he'⟩) hfields
        (fun y hy e' he' => hbefore y hy ⟨e', he'⟩) hf⟩

variable (hnames : KeptByName types)
include hnames

/-- A search fails as the first offender does. -/
theorem collect_eq_error_iff {e : Fault} : collect types = .error e ↔ FirstFault types e := by
  have htype (t : ObjectType) : (∃ bs, Option.toList <$> RelationshipType.of? t = .ok bs) ↔
      ∀ e, ¬RelationshipType.Malformed t e := by
    simp only [exists_eq_ok_iff, ne_eq, except_map_eq_error_iff, RelationshipType.of?_eq_error_iff]
  rw [collect_eq hnames, except_bind_eq_error_iff, mapError_eq_error_iff]
  constructor
  · rintro (⟨e', h, rfl⟩ | ⟨_, hok, h⟩)
    · obtain ⟨before, t, after, hobjects, hbefore, ht⟩ := flatMapM_eq_error_iff.1 h
      exact .type hobjects (fun u hu => (htype u).1 (hbefore u hu))
        (RelationshipType.of?_eq_error_iff.1 (except_map_eq_error_iff.1 ht))
    · have hok : ∀ u ∈ objectsOf types, ∀ e', ¬RelationshipType.Malformed u e' := fun u hu =>
        (htype u).1 (exists_flatMapM_eq_ok_iff.1 ⟨_, mapError_eq_ok_iff.1 hok⟩ u hu)
      obtain ⟨before, ⟨t, f⟩, after, hfields, hbefore, hf⟩ := flatMapM_eq_error_iff.1 h
      refine .field hok hfields (fun x hx e' he' => ?_)
        ((lead?_eq_error_iff hok hnames).1 (except_map_eq_error_iff.1 hf))
      obtain ⟨bs, hbs⟩ := hbefore x hx
      rw [he'.lead?_eq] at hbs
      cases hbs
  · rintro (⟨hobjects, hbefore, ht⟩ | ⟨hok, hfields, hbefore, hf⟩)
    · refine Or.inl ⟨_, flatMapM_eq_error_iff.2 ⟨_, _, _, hobjects, ?_, ?_⟩, rfl⟩
      · exact fun u hu => (htype u).2 (hbefore u hu)
      · exact except_map_eq_error_iff.2 (RelationshipType.of?_eq_error_iff.2 ht)
    · obtain ⟨bs, hbs⟩ := exists_flatMapM_eq_ok_iff.2 fun u hu => (htype u).2 (hok u hu)
      refine Or.inr ⟨bs, by rw [hbs]; rfl, flatMapM_eq_error_iff.2 ⟨_, _, _, hfields, ?_, ?_⟩⟩
      · intro x hx
        rw [exists_eq_ok_iff]
        intro e' he'
        exact hbefore x hx e' ((lead?_eq_error_iff hok hnames).1 (except_map_eq_error_iff.1 he'))
      · exact except_map_eq_error_iff.2 hf.lead?_eq

end Search

end Relationship

end RelationApi

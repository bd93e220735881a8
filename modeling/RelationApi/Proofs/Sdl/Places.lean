import RelationApi.Proofs.Sdl.Stripped

/-!
# Parts without their places

`Document.placeless` forgets the places of all parts of a document, and leaves the rest as it is. So
two documents are equal up to places if they are equal without them. Nothing that a part says
depends on its place : not what a directive is or says, not the type that a reference names, and not
how a part is printed (`Document.print_placeless`).
-/

namespace RelationApi.Sdl

/-- The value without any places. -/
abbrev Value.placeless (v : Value) : Value := v.stripped id

/-- The argument without any places. -/
abbrev Argument.placeless (a : Argument) : Argument := a.stripped id

/-- The directive without any places. -/
abbrev Directive.placeless (d : Directive) : Directive := d.stripped id

/-- The input value without any places. -/
abbrev InputValue.placeless (v : InputValue) : InputValue := v.stripped id

/-- The field without any places. -/
abbrev Field.placeless (f : Field) : Field := f.stripped id

/-- The scalar type without any places. -/
abbrev ScalarType.placeless (t : ScalarType) : ScalarType := t.stripped id

/-- The object type without any places. -/
abbrev ObjectType.placeless (t : ObjectType) : ObjectType := t.stripped id

/-- The union type without any places. -/
abbrev UnionType.placeless (t : UnionType) : UnionType := t.stripped id

/-- The enum value without any places. -/
abbrev EnumValue.placeless (v : EnumValue) : EnumValue := v.stripped id

/-- The enum type without any places. -/
abbrev EnumType.placeless (t : EnumType) : EnumType := t.stripped id

/-- The input type without any places. -/
abbrev InputType.placeless (t : InputType) : InputType := t.stripped id

/-- The type without any places. -/
abbrev TypeDef.placeless (t : TypeDef) : TypeDef := t.stripped id

/-- The schema definition without any places. -/
abbrev SchemaDef.placeless (s : SchemaDef) : SchemaDef := s.stripped id

/-- The directive definition without any places. -/
abbrev DirectiveDef.placeless (d : DirectiveDef) : DirectiveDef := d.stripped id

/-- The definition without any places. -/
abbrev Definition.placeless (d : Definition) : Definition := d.stripped id

/-- The document without any places. -/
abbrev Document.placeless (d : Document) : Document := d.stripped id

/-! ## What parts say -/

/-- A literal says the same as an attribute. -/
theorem Value.scalar_comp_placeless : scalar ∘ placeless = scalar := by
  funext v
  cases v <;> rfl

/-- A directive says the same without places. -/
@[simp] theorem Directive.attribute_placeless (d : Directive) (name : String) :
    d.placeless.attribute name = d.attribute name := by
  have hfind : d.placeless.argument? name = (d.argument? name).map Value.placeless := by
    rw [argument?, argument?, placeless, stripped, List.find?_map, Option.map_map, Option.map_map]
    rfl
  rw [Directive.attribute, Directive.attribute, hfind, Option.map_map, Value.scalar_comp_placeless]

/-- A type reference names the same type without places. -/
@[simp] theorem TypeRef.typeName_placeless (t : TypeRef) : t.placeless.typeName = t.typeName := by
  induction t with
  | named n => rfl
  | list t _ ih | nonNull t _ ih => exact ih

/-- A document is printed the same without places. -/
theorem Document.print_placeless (d : Document) : d.placeless.print = d.print :=
  d.print_stripped fun _ => rfl

end RelationApi.Sdl

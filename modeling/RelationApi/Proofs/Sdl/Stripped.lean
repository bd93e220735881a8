import RelationApi.Sdl.Printer.Executable

/-!
# Documents stripped of places

The parts of a document keep the places where they stood in a text. `Document.stripped f` forgets
them all, and puts `f` of it in the place of what each string says. It is the one traversal of the
whole syntax : with `f` the identity it leaves the document without places, and with another `f` it
gives the document that is read back from a text.

How a part is printed does not depend on its place. So if `f` does not show in print, neither does
the traversal (`Document.print_stripped`).
-/

set_option linter.unusedSectionVars false

namespace RelationApi.Sdl

/-! ## The traversal -/

/-- The name without its place. -/
def Name.placeless (n : Name) : Name := { text := n.text }

/-- The description without its place. -/
def Description.placeless (d : Description) : Description := { text := d.text, block := d.block }

/-- The type reference without any places. -/
def TypeRef.placeless : TypeRef → TypeRef
  | named n => named n.placeless
  | list t _ => list t.placeless none
  | nonNull t _ => nonNull t.placeless none

section Traversal

variable (f : Scalar → Scalar)

namespace Value

mutual

/-- The value without any places, with `f` of what each string in it says. -/
def stripped : Value → Value
  | .variable n => .variable n.placeless
  | .int t _ => .int t none
  | .float t _ => .float t none
  | .string v block _ => .string (f v) block none
  | .boolean b _ => .boolean b none
  | .null _ => .null none
  | .enum v _ => .enum v none
  | .list items _ => .list (strippedItems items) none
  | .object fields _ => .object (strippedFields fields) none

/-- Every value, stripped. -/
def strippedItems : List Value → List Value
  | [] => []
  | v :: vs => stripped v :: strippedItems vs

/-- Every object field, stripped. -/
def strippedFields : List (Name × Value) → List (Name × Value)
  | [] => []
  | (n, v) :: fs => (n.placeless, stripped v) :: strippedFields fs

end

/-- The items of a list are stripped one by one. -/
theorem strippedItems_eq (vs : List Value) : strippedItems f vs = vs.map (stripped f) := by
  induction vs with
  | nil => rfl
  | cons v vs ih => rw [strippedItems, ih, List.map_cons]

/-- The fields of an object are stripped one by one. -/
theorem strippedFields_eq (fs : List (Name × Value)) :
    strippedFields f fs = fs.map fun x => (x.1.placeless, x.2.stripped f) := by
  induction fs with
  | nil => rfl
  | cons x fs ih => rw [strippedFields, ih, List.map_cons]

end Value

/-- The argument, stripped. -/
def Argument.stripped (a : Argument) : Argument := ⟨a.name.placeless, a.value.stripped f⟩

/-- The directive, stripped. -/
def Directive.stripped (d : Directive) : Directive :=
  { name := d.name.placeless, arguments := d.arguments.map (Argument.stripped f) }

/-- The input value, stripped. -/
def InputValue.stripped (v : InputValue) : InputValue where
  description := v.description.map Description.placeless
  name := v.name.placeless
  type := v.type.placeless
  default := v.default.map (Value.stripped f)
  directives := v.directives.map (Directive.stripped f)

/-- The field, stripped. -/
def Field.stripped (x : Field) : Field where
  description := x.description.map Description.placeless
  name := x.name.placeless
  arguments := x.arguments.map (InputValue.stripped f)
  type := x.type.placeless
  default := x.default.map (Value.stripped f)
  directives := x.directives.map (Directive.stripped f)

/-- The scalar type, stripped. -/
def ScalarType.stripped (t : ScalarType) : ScalarType where
  description := t.description.map Description.placeless
  name := t.name.placeless
  directives := t.directives.map (Directive.stripped f)

/-- The object type, stripped. -/
def ObjectType.stripped (t : ObjectType) : ObjectType where
  description := t.description.map Description.placeless
  name := t.name.placeless
  interfaces := t.interfaces.map Name.placeless
  directives := t.directives.map (Directive.stripped f)
  fields := t.fields.map (Field.stripped f)

/-- The union type, stripped. -/
def UnionType.stripped (t : UnionType) : UnionType where
  description := t.description.map Description.placeless
  name := t.name.placeless
  directives := t.directives.map (Directive.stripped f)
  members := t.members.map Name.placeless

/-- The enum value, stripped. -/
def EnumValue.stripped (v : EnumValue) : EnumValue where
  description := v.description.map Description.placeless
  name := v.name.placeless
  directives := v.directives.map (Directive.stripped f)

/-- The enum type, stripped. -/
def EnumType.stripped (t : EnumType) : EnumType where
  description := t.description.map Description.placeless
  name := t.name.placeless
  directives := t.directives.map (Directive.stripped f)
  values := t.values.map (EnumValue.stripped f)

/-- The input type, stripped. -/
def InputType.stripped (t : InputType) : InputType where
  description := t.description.map Description.placeless
  name := t.name.placeless
  directives := t.directives.map (Directive.stripped f)
  fields := t.fields.map (InputValue.stripped f)

/-- The type, stripped. -/
def TypeDef.stripped : TypeDef → TypeDef
  | scalar t => scalar (t.stripped f)
  | object t => object (t.stripped f)
  | interface t => interface (t.stripped f)
  | union t => union (t.stripped f)
  | enum t => enum (t.stripped f)
  | input t => input (t.stripped f)

/-- The variable, stripped. -/
def VariableDef.stripped (v : VariableDef) : VariableDef where
  description := v.description.map Description.placeless
  name := v.name.placeless
  type := v.type.placeless
  default := v.default.map (Value.stripped f)
  directives := v.directives.map (Directive.stripped f)

mutual

/-- The selection, stripped. -/
def Selection.stripped : Selection → Selection
  | .field label name args ds none =>
    .field (label.map Name.placeless) name.placeless (args.map (Argument.stripped f))
      (ds.map (Directive.stripped f)) none
  | .field label name args ds (some ss) =>
    .field (label.map Name.placeless) name.placeless (args.map (Argument.stripped f))
      (ds.map (Directive.stripped f)) (some (strippedAll ss))
  | .spread name ds => .spread name.placeless (ds.map (Directive.stripped f))
  | .inline condition ds ss =>
    .inline (condition.map Name.placeless) (ds.map (Directive.stripped f)) (strippedAll ss)

/-- Every selection, stripped. -/
def Selection.strippedAll : List Selection → List Selection
  | [] => []
  | s :: ss => stripped s :: strippedAll ss

end

/-- The operation, stripped. -/
def Operation.stripped (o : Operation) : Operation where
  description := o.description.map Description.placeless
  kind := o.kind
  name := o.name.map Name.placeless
  variableDefs := o.variableDefs.map (VariableDef.stripped f)
  directives := o.directives.map (Directive.stripped f)
  selections := Selection.strippedAll f o.selections

/-- The fragment, stripped. -/
def Fragment.stripped (x : Fragment) : Fragment where
  description := x.description.map Description.placeless
  name := x.name.placeless
  condition := x.condition.placeless
  directives := x.directives.map (Directive.stripped f)
  selections := Selection.strippedAll f x.selections

/-- The schema definition, stripped. -/
def SchemaDef.stripped (s : SchemaDef) : SchemaDef where
  description := s.description.map Description.placeless
  directives := s.directives.map (Directive.stripped f)
  roots := s.roots.map fun r => (r.1, r.2.placeless)

/-- The directive definition, stripped. -/
def DirectiveDef.stripped (d : DirectiveDef) : DirectiveDef where
  description := d.description.map Description.placeless
  name := d.name.placeless
  arguments := d.arguments.map (InputValue.stripped f)
  directives := d.directives.map (Directive.stripped f)
  repeatable := d.repeatable
  locations := d.locations.map Name.placeless

/-- The definition, stripped. -/
def Definition.stripped : Definition → Definition
  | operation o => operation (o.stripped f)
  | fragment x => fragment (x.stripped f)
  | schema s => schema (s.stripped f)
  | schemaExtension s => schemaExtension (s.stripped f)
  | typeDef t => typeDef (t.stripped f)
  | typeExtension t => typeExtension (t.stripped f)
  | directiveDef d => directiveDef (d.stripped f)
  | directiveExtension n ds => directiveExtension n.placeless (ds.map (Directive.stripped f))

/-- The document without any places, with `f` of what each string in it says. -/
def Document.stripped (d : Document) : Document := ⟨d.definitions.map (Definition.stripped f)⟩

/-! ## Definitions and names -/

/-- The definitions of a document are stripped one by one. -/
@[simp] theorem Document.definitions_stripped (d : Document) :
    (d.stripped f).definitions = d.definitions.map (Definition.stripped f) := rfl

/-- A type keeps its name. -/
theorem TypeDef.name_stripped (t : TypeDef) : (t.stripped f).name = t.name := by
  cases t <;> rfl

/-- An extension adds as much as before. -/
theorem TypeDef.addsAnything_stripped (t : TypeDef) :
    (t.stripped f).addsAnything = t.addsAnything := by
  cases t <;> simp [stripped, addsAnything, ScalarType.stripped, ObjectType.stripped,
    UnionType.stripped, EnumType.stripped, InputType.stripped]

/-- An extension is merged before or after. -/
theorem ObjectType.merge_stripped (t e : ObjectType) :
    (t.stripped f).merge (e.stripped f) = (t.merge e).stripped f := by
  simp [merge, stripped]

end Traversal

/-! ## Printing -/

/-- A name is printed the same without its place. -/
@[simp] theorem Name.print_placeless (n : Name) : n.placeless.print = n.print := rfl

@[simp] theorem Name.print_comp_placeless : Name.print ∘ Name.placeless = Name.print := rfl

/-- A type reference is printed the same without places. -/
@[simp] theorem TypeRef.print_placeless (t : TypeRef) : t.placeless.print = t.print := by
  induction t with
  | named n => rfl
  | list t _ ih | nonNull t _ ih => simp [placeless, print, ih]

@[simp] theorem printDescription_placeless (d : Option Description) :
    printDescription (d.map Description.placeless) = printDescription d := by
  cases d <;> rfl

@[simp] theorem described_placeless (d : Option Description) (cs : List Char) :
    described (d.map Description.placeless) cs = described d cs := by
  rw [described, described, printDescription_placeless]

section Printing

variable {f : Scalar → Scalar} (hf : ∀ s, (f s).display = s.display)
include hf

namespace Value

mutual

/-- A value is printed the same, if `f` does not show. -/
theorem print_stripped : ∀ v : Value, (v.stripped f).print = v.print
  | .variable _ | .int _ _ | .float _ _ | .boolean _ _ | .null _ | .enum _ _ => rfl
  | .string v block _ => congrArg (printText block) (hf v)
  | .list items _ => congrArg Form.list (print_strippedItems items)
  | .object fields _ => congrArg Form.object (print_strippedFields fields)

theorem print_strippedItems : ∀ vs : List Value, printItems (strippedItems f vs) = printItems vs
  | [] => rfl
  | v :: vs => by
    rw [strippedItems, printItems, printItems, print_stripped v, print_strippedItems vs]

theorem print_strippedFields :
    ∀ fs : List (Name × Value), printFields (strippedFields f fs) = printFields fs
  | [] => rfl
  | (n, v) :: fs => by
    rw [strippedFields, printFields, printFields, print_stripped v, print_strippedFields fs,
      Name.print_placeless]

end

end Value

theorem Argument.print_comp_stripped : Argument.print ∘ Argument.stripped f = Argument.print := by
  funext a
  exact congrArg (Form.entry a.name.print) (a.value.print_stripped hf)

theorem Directive.print_comp_stripped :
    Directive.print ∘ Directive.stripped f = Directive.print := by
  funext d
  simp [print, stripped, Argument.print_comp_stripped hf]

/-- Directives are printed the same, if `f` does not show. -/
theorem printDirectives_stripped (ds : List Directive) :
    printDirectives (ds.map (Directive.stripped f)) = printDirectives ds := by
  simp [printDirectives, Directive.print_comp_stripped hf]

theorem printDefault_stripped (v : Option Value) :
    printDefault (v.map (Value.stripped f)) = printDefault v := by
  cases v <;> simp [printDefault, Value.print_stripped hf]

theorem InputValue.print_comp_stripped :
    InputValue.print ∘ InputValue.stripped f = InputValue.print := by
  funext v
  simp [print, stripped, printDefault_stripped hf, Directive.print_comp_stripped hf]

theorem Field.print_comp_stripped : Field.print ∘ Field.stripped f = Field.print := by
  funext x
  simp [print, stripped, printDefault_stripped hf, InputValue.print_comp_stripped hf,
    Directive.print_comp_stripped hf]

theorem ObjectType.printParts_stripped (t : ObjectType) :
    (t.stripped f).printParts = t.printParts := by
  simp [printParts, stripped, Field.print_comp_stripped hf, Directive.print_comp_stripped hf]

theorem EnumValue.print_comp_stripped :
    EnumValue.print ∘ EnumValue.stripped f = EnumValue.print := by
  funext v
  simp [print, stripped, printDirectives_stripped hf]

namespace TypeDef

theorem printBody_stripped (t : TypeDef) : (t.stripped f).printBody = t.printBody := by
  cases t <;> simp only [stripped, printBody, ScalarType.stripped, UnionType.stripped,
    EnumType.stripped, InputType.stripped, ObjectType.printParts_stripped hf, Name.print_placeless,
    printDirectives_stripped hf, List.map_map, Name.print_comp_placeless,
    Directive.print_comp_stripped hf, EnumValue.print_comp_stripped hf,
    InputValue.print_comp_stripped hf]

/-- A type is printed the same, if `f` does not show. -/
theorem print_stripped (t : TypeDef) : (t.stripped f).print = t.print := by
  have hdescription : (t.stripped f).description = t.description.map Description.placeless := by
    cases t <;> rfl
  rw [print, print, hdescription, described_placeless, printBody_stripped hf]

end TypeDef

theorem VariableDef.print_comp_stripped :
    VariableDef.print ∘ VariableDef.stripped f = VariableDef.print := by
  funext v
  simp only [Function.comp_apply, print, stripped, described_placeless, Name.print_placeless,
    TypeRef.print_placeless, printDefault_stripped hf, printDirectives_stripped hf]

namespace Selection

theorem printCall_stripped (label : Option Name) (name : Name) (args : List Argument) :
    printCall (label.map Name.placeless) name.placeless (args.map (Argument.stripped f)) =
      printCall label name args := by
  simp only [printCall, Option.map_map, List.map_map, Name.print_placeless,
    Name.print_comp_placeless, Argument.print_comp_stripped hf]

mutual

/-- A selection is printed the same, if `f` does not show. -/
theorem print_stripped : ∀ s : Selection, (s.stripped f).print = s.print
  | .field label name args ds none => by
    rw [stripped, print, print, printCall_stripped hf, printDirectives_stripped hf]
  | .field label name args ds (some ss) => by
    rw [stripped, print, print, printCall_stripped hf, printDirectives_stripped hf,
      printAll_strippedAll ss]
  | .spread name ds => by
    rw [stripped, print, print, printDirectives_stripped hf, Name.print_placeless]
  | .inline condition ds ss => by
    rw [stripped, print, print, printDirectives_stripped hf, printAll_strippedAll ss,
      Option.map_map, Name.print_comp_placeless]

theorem printAll_strippedAll : ∀ ss : List Selection, printAll (strippedAll f ss) = printAll ss
  | [] => rfl
  | s :: ss => by
    rw [strippedAll, printAll, printAll, print_stripped s, printAll_strippedAll ss]

end

theorem printSelections_stripped (ss : List Selection) :
    printSelections (strippedAll f ss) = printSelections ss := by
  rw [printSelections, printSelections, printAll_strippedAll hf]

end Selection

theorem printVariables_stripped (vs : List VariableDef) :
    printVariables (vs.map (VariableDef.stripped f)) = printVariables vs := by
  rw [printVariables, printVariables, List.map_map, VariableDef.print_comp_stripped hf]

theorem Operation.printBody_stripped (o : Operation) :
    (o.stripped f).printBody = o.printBody := by
  obtain ⟨description, kind, name, variableDefs, directives, selections⟩ := o
  unfold printBody
  dsimp only [stripped]
  rw [printVariables_stripped hf, printDirectives_stripped hf,
    Selection.printSelections_stripped hf, Option.map_map, Name.print_comp_placeless]
  cases description <;> rfl

theorem Fragment.printBody_stripped (x : Fragment) : (x.stripped f).printBody = x.printBody := by
  unfold printBody
  dsimp only [stripped]
  rw [Name.print_placeless, Name.print_placeless, printDirectives_stripped hf,
    Selection.printSelections_stripped hf]

theorem SchemaDef.printBody_stripped (s : SchemaDef) : (s.stripped f).printBody = s.printBody := by
  unfold printBody
  dsimp only [stripped]
  rw [printDirectives_stripped hf, List.map_map]
  rfl

theorem DirectiveDef.printBody_stripped (d : DirectiveDef) :
    (d.stripped f).printBody = d.printBody := by
  unfold printBody
  dsimp only [stripped]
  rw [Name.print_placeless, printDirectives_stripped hf, List.map_map, List.map_map,
    InputValue.print_comp_stripped hf, Name.print_comp_placeless]
  rfl

/-- A definition is printed the same, if `f` does not show. -/
theorem Definition.print_stripped (d : Definition) : (d.stripped f).print = d.print := by
  cases d with
  | operation o => exact (described_placeless _ _).trans (congrArg _ (o.printBody_stripped hf))
  | fragment x => exact (described_placeless _ _).trans (congrArg _ (x.printBody_stripped hf))
  | schema s => exact (described_placeless _ _).trans (congrArg _ (s.printBody_stripped hf))
  | schemaExtension s => exact congrArg ("extend ".toList ++ ·) (s.printBody_stripped hf)
  | typeDef t => exact t.print_stripped hf
  | typeExtension t => exact congrArg ("extend ".toList ++ ·) (t.printBody_stripped hf)
  | directiveDef d => exact (described_placeless _ _).trans (congrArg _ (d.printBody_stripped hf))
  | directiveExtension n ds =>
    exact congrArg (fun cs => Layout.joined " " ["extend directive @".toList ++ n.print, cs])
      (printDirectives_stripped hf ds)

/-- A document is printed the same, if `f` does not show. -/
theorem Document.print_stripped (d : Document) : (d.stripped f).print = d.print := by
  have hcomp : Definition.print ∘ Definition.stripped f = Definition.print :=
    funext (Definition.print_stripped hf)
  rw [print, print, printChars, printChars, stripped, List.map_map, hcomp]

end Printing

end RelationApi.Sdl

import RelationApi.Proofs.Sdl.Places
import RelationApi.Proofs.Sdl.Tokens

/-!
# What is read back

A part that is printed and read again comes back with one change : an attribute that was written as
a string has become a text (`Scalar.asText`). `Document.reread` says what is expected, places apart.
It is printed as the document was (`Document.print_reread`).

What was read from a text has no other strings than texts, so nothing of a type system changes
(`Document.reread_of_parse`).
-/

namespace RelationApi.Sdl

/-- The attribute as it is read from the text of a string. -/
def Scalar.asText (s : Scalar) : Scalar := .text s.display

/-- The value as it is read back, without any places. -/
abbrev Value.reread (v : Value) : Value := v.stripped .asText

/-- The argument as it is read back, without any places. -/
abbrev Argument.reread (a : Argument) : Argument := a.stripped .asText

/-- The directive as it is read back, without any places. -/
abbrev Directive.reread (d : Directive) : Directive := d.stripped .asText

/-- The input value as it is read back, without any places. -/
abbrev InputValue.reread (v : InputValue) : InputValue := v.stripped .asText

/-- The field as it is read back, without any places. -/
abbrev Field.reread (f : Field) : Field := f.stripped .asText

/-- The scalar type as it is read back, without any places. -/
abbrev ScalarType.reread (t : ScalarType) : ScalarType := t.stripped .asText

/-- The object type as it is read back, without any places. -/
abbrev ObjectType.reread (t : ObjectType) : ObjectType := t.stripped .asText

/-- The union type as it is read back, without any places. -/
abbrev UnionType.reread (t : UnionType) : UnionType := t.stripped .asText

/-- The enum value as it is read back, without any places. -/
abbrev EnumValue.reread (v : EnumValue) : EnumValue := v.stripped .asText

/-- The enum type as it is read back, without any places. -/
abbrev EnumType.reread (t : EnumType) : EnumType := t.stripped .asText

/-- The input type as it is read back, without any places. -/
abbrev InputType.reread (t : InputType) : InputType := t.stripped .asText

/-- The type as it is read back, without any places. -/
abbrev TypeDef.reread (t : TypeDef) : TypeDef := t.stripped .asText

/-- The schema definition as it is read back, without any places. -/
abbrev SchemaDef.reread (s : SchemaDef) : SchemaDef := s.stripped .asText

/-- The directive definition as it is read back, without any places. -/
abbrev DirectiveDef.reread (d : DirectiveDef) : DirectiveDef := d.stripped .asText

/-- The definition as it is read back, without any places. -/
abbrev Definition.reread (d : Definition) : Definition := d.stripped .asText

/-- The document as it is read back, without any places. -/
abbrev Document.reread (d : Document) : Document := d.stripped .asText

/-- What is read back is printed again as it was. -/
theorem Document.print_reread (d : Document) : d.reread.print = d.print :=
  d.print_stripped (f := Scalar.asText) fun _ => rfl

/-! ## What was read stays as it is -/

namespace Parser

variable {T : TokenKind → Prop}

/-- A value without others in it. -/
theorem rereads_atom (const : Bool) :
    Reads T (atom const) fun v => v.reread = v.placeless := by
  refine reads_current.bind fun t _ => ?_
  split
  · exact takes_advance.bind fun _ _ => .pure rfl
  · exact takes_advance.bind fun _ _ => .pure rfl
  · exact takes_advance.bind fun _ _ => .pure rfl
  · exact takes_advance.bind fun _ _ => .pure rfl
  · refine takes_advance.bind fun _ _ => .pure ?_
    unfold namedValue
    split_ifs <;> rfl
  · cases const with
    | false => exact reads_variableName.bind fun _ _ => .pure rfl
    | true => exact reads_refuseVariable
  · exact reads_unexpected

/-- A value, if nothing changes in those that are nested in it. -/
theorem rereads_valueWith (const : Bool) {nested : Option (Parser Value)}
    (h : ∀ p, nested = some p → Reads T p fun v => v.reread = v.placeless) :
    Reads T (valueWith const nested) fun v => v.reread = v.placeless := by
  refine reads_current.bind fun t _ => ?_
  split
  · next p _ =>
    refine (reads_anyBetween (h p rfl) _ _).bind fun vs hvs => (takes_spanFrom _).bind fun _ _ =>
      .pure ?_
    simp only [Value.stripped, Value.strippedItems_eq, List.map_congr_left hvs]
  · next p _ =>
    have hfield : Reads T (objectField p) fun f =>
        (f.1.placeless, f.2.reread) = (f.1.placeless, f.2.placeless) :=
      reads_name.bind fun _ _ => (takes_expectMark _).bind fun _ _ => (h p rfl).bind fun _ hv =>
        .pure (by rw [hv])
    refine (reads_anyBetween hfield _ _).bind fun fs hfs => (takes_spanFrom _).bind fun _ _ =>
      .pure ?_
    simp only [Value.stripped, Value.strippedFields_eq, List.map_congr_left hfs]
  · exact .fail _
  · exact .fail _
  · exact rereads_atom const

/-- A value that is read has no other strings than texts. -/
theorem rereads_value (const : Bool) (room : Nat) :
    Reads T (value const room) fun v => v.reread = v.placeless := by
  induction room with
  | zero => exact rereads_valueWith const nofun
  | succ room ih => exact rereads_valueWith const fun p hp => Option.some.inj hp ▸ ih

theorem rereads_defaultValue :
    Reads T defaultValue fun d => d.map Value.reread = d.map Value.placeless :=
  (takes_optMark _).bind fun _ _ =>
    .ite ((rereads_value true depthRoom).bind fun _ hv => .pure (congrArg some hv)) (.pure rfl)

/-- Nothing changes in directives that are read. -/
theorem rereads_constDirectives : Reads T constDirectives fun ds =>
    ds.map Directive.reread = ds.map Directive.placeless := by
  have hargument : Reads T (argument true depthRoom) fun a => a.reread = a.placeless :=
    reads_name.bind fun n _ => (takes_expectMark _).bind fun _ _ =>
      (rereads_value true depthRoom).bind fun _ hv => .pure (congrArg (Argument.mk n.placeless) hv)
  have hdirective : Reads T (directive true depthRoom) fun d => d.reread = d.placeless :=
    takes_place.bind fun _ _ => (takes_expectMark _).bind fun _ _ => reads_name.bind fun n _ =>
      (reads_optBetween hargument _ _).bind fun _ has => (takes_spanFrom _).bind fun _ _ =>
        .pure (congrArg (Directive.mk n.placeless · none) (List.map_congr_left has))
  exact (reads_repeated hdirective (takes_peekMark _)).mono fun _ hds => List.map_congr_left hds

/-- Nothing changes in an input value that is read. -/
theorem rereads_inputValue : Reads T inputValue fun v => v.reread = v.placeless :=
  reads_description.bind fun _ _ => reads_name.bind fun _ _ => (takes_expectMark _).bind fun _ _ =>
    (reads_typeRef _).bind fun _ _ => rereads_defaultValue.bind fun _ hv =>
      rereads_constDirectives.bind fun _ hds =>
        .pure (by simp only [InputValue.stripped, hv, hds])

theorem rereads_argumentDefs : Reads T argumentDefs fun vs =>
    vs.map InputValue.reread = vs.map InputValue.placeless :=
  (reads_optBetween rereads_inputValue _ _).mono fun _ hvs => List.map_congr_left hvs

/-- Nothing changes in a field that is read. -/
theorem rereads_field : Reads T field fun f => f.reread = f.placeless :=
  reads_description.bind fun _ _ => reads_name.bind fun _ _ =>
    rereads_argumentDefs.bind fun _ has => (takes_expectMark _).bind fun _ _ =>
      (reads_typeRef _).bind fun _ _ => rereads_constDirectives.bind fun _ hds =>
        .pure (by simp only [Field.stripped, has, hds]; rfl)

section Types

variable (d : Option Description)

/-- Nothing changes in an object type that is read. -/
theorem rereads_objectType : Reads T (objectType d) fun t => t.reread = t.placeless :=
  reads_name.bind fun _ _ => reads_interfaces.bind fun _ _ =>
    rereads_constDirectives.bind fun _ hds =>
      (reads_optBetween rereads_field _ _).bind fun _ hfs =>
        .pure (by simp only [ObjectType.stripped, hds, List.map_congr_left hfs])

theorem rereads_scalarType : Reads T (scalarType d) fun t => t.reread = t.placeless :=
  reads_name.bind fun _ _ => rereads_constDirectives.bind fun _ hds =>
    .pure (by simp only [ScalarType.stripped, hds])

/-- Nothing changes in a union type that is read, with members or without. -/
theorem rereads_unionType : Reads T (unionType d) fun t => t.reread = t.placeless := by
  refine reads_name.bind fun n _ => rereads_constDirectives.bind fun ds hds =>
    (takes_optMark _).bind fun _ _ => ?_
  have hunion (ms : List Name) :
      (UnionType.mk d n ds ms).reread = (UnionType.mk d n ds ms).placeless := by
    simp only [UnionType.stripped, hds]
  exact .ite ((reads_separatedBy reads_name _).bind fun ms _ => .pure (hunion ms))
    (.pure (hunion []))

/-- Nothing changes in an enum type that is read. -/
theorem rereads_enumType : Reads T (enumType d) fun t => t.reread = t.placeless := by
  have hvalue : Reads T enumValue fun v => v.reread = v.placeless :=
    reads_description.bind fun _ _ => reads_enumValueName.bind fun _ _ =>
      rereads_constDirectives.bind fun _ hds =>
        .pure (by simp only [EnumValue.stripped, hds])
  exact reads_name.bind fun _ _ => rereads_constDirectives.bind fun _ hds =>
    (reads_optBetween hvalue _ _).bind fun _ hvs =>
      .pure (by simp only [EnumType.stripped, hds, List.map_congr_left hvs])

theorem rereads_inputType : Reads T (inputType d) fun t => t.reread = t.placeless :=
  reads_name.bind fun _ _ => rereads_constDirectives.bind fun _ hds =>
    (reads_optBetween rereads_inputValue _ _).bind fun _ hfs =>
      .pure (by simp only [InputType.stripped, hds, List.map_congr_left hfs])

end Types

/-- Nothing changes in a type of any kind. -/
theorem rereads_typeBody {keyword : String} {body : Option Description → Parser TypeDef}
    (h : typeBody? keyword = some body) (d : Option Description) :
    Reads T (body d) fun t => t.reread = t.placeless := by
  unfold typeBody? at h
  split at h <;> cases h
  · exact (rereads_scalarType d).map fun _ h => congrArg TypeDef.scalar h
  · exact (rereads_objectType d).map fun _ h => congrArg TypeDef.object h
  · exact (rereads_objectType d).map fun _ h => congrArg TypeDef.interface h
  · exact (rereads_unionType d).map fun _ h => congrArg TypeDef.union h
  · exact (rereads_enumType d).map fun _ h => congrArg TypeDef.enum h
  · exact (rereads_inputType d).map fun _ h => congrArg TypeDef.input h

theorem rereads_schemaDef (d : Option Description) :
    Reads T (schemaDef d) fun s => s.reread = s.placeless :=
  rereads_constDirectives.bind fun _ hds => (reads_someBetween reads_rootType _ _).bind fun _ _ =>
    .pure (by simp only [SchemaDef.stripped, hds])

/-- Nothing changes in a schema extension, and one that adds nothing is not read. -/
theorem rereads_schemaExtension : Reads T schemaExtension fun s => s.reread = s.placeless := by
  refine rereads_constDirectives.bind fun ds hds =>
    (reads_optBetween reads_rootType _ _).bind fun rs _ => ?_
  dsimp only
  split_ifs
  · exact Reads.bind reads_unexpected fun _ (h : False) => h.elim
  · exact .pure (by simp only [SchemaDef.stripped, hds])

/-- Nothing changes in a directive definition that is read. -/
theorem rereads_directiveDef (d : Option Description) :
    Reads T (directiveDef d) fun x => x.reread = x.placeless :=
  (takes_expectMark _).bind fun _ _ => reads_name.bind fun _ _ =>
    rereads_argumentDefs.bind fun _ has => rereads_constDirectives.bind fun _ hds =>
      (takes_optKeyword _).bind fun _ _ => (takes_expectKeyword _).bind fun _ _ =>
        (reads_separatedBy reads_directiveLocation _).bind fun _ _ =>
          .pure (by simp only [DirectiveDef.stripped, has, hds])

theorem rereads_directiveExtension :
    Reads T directiveExtension fun x => x.reread = x.placeless := by
  refine (takes_expectMark _).bind fun _ _ => reads_name.bind fun n _ =>
    rereads_constDirectives.bind fun ds hds => ?_
  dsimp only
  split_ifs
  · exact Reads.bind reads_unexpected fun _ (h : False) => h.elim
  · exact .pure (congrArg (Definition.directiveExtension n.placeless) hds)

/-- Nothing changes in a definition, whatever its keyword. -/
theorem rereads_typeSystemBody {keyword : String} {body : Option Description → Parser Definition}
    (h : typeSystemBody? keyword = some body) (d : Option Description) :
    Reads T (body d) fun x => x.reread = x.placeless := by
  unfold typeSystemBody? at h
  split at h
  · cases h
    exact (rereads_schemaDef d).map fun _ h => congrArg Definition.schema h
  · cases h
    exact (rereads_directiveDef d).map fun _ h => congrArg Definition.directiveDef h
  · obtain ⟨typeBody, htype, rfl⟩ := Option.map_eq_some_iff.1 h
    exact (rereads_typeBody htype d).map fun _ h => congrArg Definition.typeDef h

/-- Nothing changes in an extension, whatever its keyword. -/
theorem rereads_extensionBody {keyword : String} {body : Parser Definition}
    (h : extensionBody? keyword = some body) :
    Reads T body fun x => x.reread = x.placeless := by
  unfold extensionBody? at h
  split at h
  · cases h
    exact rereads_schemaExtension.map fun _ h => congrArg Definition.schemaExtension h
  · cases h
    exact rereads_directiveExtension
  · obtain ⟨typeBody, htype, rfl⟩ := Option.map_eq_some_iff.1 h
    refine (rereads_typeBody htype none).bind fun t ht => ?_
    split_ifs
    · exact .pure (congrArg Definition.typeExtension ht)
    · exact reads_unexpected

end Parser

/-- If nothing changes in a document, nothing changes in its definitions. -/
theorem Document.reread_of_mem {d : Document} (h : d.reread = d.placeless) :
    ∀ x ∈ d.definitions, x.reread = x.placeless :=
  List.map_inj_left.1 (congrArg Document.definitions h)

/-- A document of a type system that was read is read back as it is, apart from places. -/
theorem Document.reread_of_parse {text : String} {d : Document} (h : parse text = .ok d)
    (hd : ∀ x ∈ d.definitions, x.isTypeSystem) : d.reread = d.placeless := by
  obtain ⟨c, hc⟩ := exists_cursor_of_parse h
  have hreads : Parser.Reads (fun _ => True) Parser.document fun d =>
      ∀ x ∈ d.definitions, x.isTypeSystem → x.reread = x.placeless :=
    Parser.reads_document
      (fun h _ => (Parser.rereads_typeSystemBody h _).mono fun _ hx _ => hx)
      (fun h => (Parser.rereads_extensionBody h).mono fun _ hx _ => hx)
      (fun _ ho => absurd ho Bool.false_ne_true) fun _ hf => absurd hf Bool.false_ne_true
  have hsame := (hreads _ _ _ ⟨trivial, fun _ _ => trivial⟩ hc).2
  exact congrArg Document.mk (List.map_congr_left fun x hx => hsame x hx (hd x hx))

end RelationApi.Sdl

import RelationApi.Proofs.Failure
import RelationApi.Proofs.Sdl.Reading
import RelationApi.Sdl.Parser.Executable
import RelationApi.Sdl.Printer.TypeSystem

/-!
# Legible parts

What the grammar of type systems demands of a part, apart from the places where it stood : the
nesting has room, an enum value is not one of the reserved words, a field has no default value, an
extension adds something. The names, numbers and strings of a legible part are tokens with a given
property `T`, so the same notion serves for all texts and for those without block strings.

All that is read from a text is legible, with the property that the tokens of the text have
(`Document.legible_of_parse`). Operations and fragments are read as well, but nothing is said about
them.
-/

namespace RelationApi.Sdl

/-- The token of a quoted string or a block string. -/
def TokenKind.ofText (block : Bool) (s : String) : TokenKind :=
  if block then .block s else .string s

section Legible

variable (T : TokenKind → Prop)

/-- A constant value that nests at most as deep as there is room. -/
inductive Value.Legible : Nat → Value → Prop
  | int {room : Nat} {s : String} {span : Option Span} : T (.int s) → Legible room (.int s span)
  | float {room : Nat} {s : String} {span : Option Span} :
      T (.float s) → Legible room (.float s span)
  | string {room : Nat} {v : Scalar} {block : Bool} {span : Option Span} :
      T (.ofText block v.display) → Legible room (.string v block span)
  | boolean {room : Nat} {b : Bool} {span : Option Span} : Legible room (.boolean b span)
  | null {room : Nat} {span : Option Span} : Legible room (.null span)
  | enum {room : Nat} {s : String} {span : Option Span} :
      T (.name s) → s ∉ ["true", "false", "null"] → Legible room (.enum (.text s) span)
  | list {room : Nat} {vs : List Value} {span : Option Span} :
      (∀ v ∈ vs, Legible room v) → Legible (room + 1) (.list vs span)
  | object {room : Nat} {fs : List (Name × Value)} {span : Option Span} :
      (∀ f ∈ fs, T (.name f.1.text)) → (∀ f ∈ fs, Legible room f.2) →
      Legible (room + 1) (.object fs span)

/-- A type reference that nests at most as deep as there is room. -/
inductive TypeRef.Legible : Nat → TypeRef → Prop
  | named {room : Nat} {n : Name} : T (.name n.text) → Legible room (.named n)
  | list {room : Nat} {t : TypeRef} {span : Option Span} :
      Legible room t → Legible (room + 1) (.list t span)
  | nonNull {room : Nat} {t : TypeRef} {span : Option Span} :
      Legible room t → (∀ u span', t ≠ .nonNull u span') → Legible room (.nonNull t span)

/-- An argument with a legible value. -/
structure Argument.Legible (room : Nat) (a : Argument) : Prop where
  name : T (.name a.name.text)
  value : a.value.Legible T room

/-- A directive with legible arguments. -/
structure Directive.Legible (room : Nat) (d : Directive) : Prop where
  name : T (.name d.name.text)
  arguments : ∀ a ∈ d.arguments, a.Legible T room

/-- Directives where no variable can stand. -/
def LegibleDirectives (ds : List Directive) : Prop := ∀ d ∈ ds, d.Legible T Parser.depthRoom

/-- A description, if there is one. -/
def LegibleDescription (d : Option Description) : Prop := ∀ x ∈ d, T (.ofText x.block x.text)

/-- Names that are all tokens. -/
def LegibleNames (ns : List Name) : Prop := ∀ n ∈ ns, T (.name n.text)

/-- An input value with legible parts, a default value among them if there is one. -/
structure InputValue.Legible (v : InputValue) : Prop where
  description : LegibleDescription T v.description
  name : T (.name v.name.text)
  type : v.type.Legible T Parser.depthRoom
  default : ∀ x ∈ v.default, x.Legible T Parser.depthRoom
  directives : LegibleDirectives T v.directives

/-- A field with legible parts. A field that is read has no default value. -/
structure Field.Legible (f : Field) : Prop where
  description : LegibleDescription T f.description
  name : T (.name f.name.text)
  arguments : ∀ v ∈ f.arguments, v.Legible T
  type : f.type.Legible T Parser.depthRoom
  default : f.default = none
  directives : LegibleDirectives T f.directives

/-- An object type, or an interface, with legible parts. -/
structure ObjectType.Legible (t : ObjectType) : Prop where
  description : LegibleDescription T t.description
  name : T (.name t.name.text)
  interfaces : LegibleNames T t.interfaces
  directives : LegibleDirectives T t.directives
  fields : ∀ f ∈ t.fields, f.Legible T

/-- A scalar type with legible parts. -/
structure ScalarType.Legible (t : ScalarType) : Prop where
  description : LegibleDescription T t.description
  name : T (.name t.name.text)
  directives : LegibleDirectives T t.directives

/-- A union type with legible parts. It may have no members. -/
structure UnionType.Legible (t : UnionType) : Prop where
  description : LegibleDescription T t.description
  name : T (.name t.name.text)
  directives : LegibleDirectives T t.directives
  members : LegibleNames T t.members

/-- An enum value with legible parts, whose name is none of the reserved words. -/
structure EnumValue.Legible (v : EnumValue) : Prop where
  description : LegibleDescription T v.description
  name : T (.name v.name.text)
  unreserved : v.name.text ∉ ["true", "false", "null"]
  directives : LegibleDirectives T v.directives

/-- An enum type with legible parts. -/
structure EnumType.Legible (t : EnumType) : Prop where
  description : LegibleDescription T t.description
  name : T (.name t.name.text)
  directives : LegibleDirectives T t.directives
  values : ∀ v ∈ t.values, v.Legible T

/-- An input type with legible parts. -/
structure InputType.Legible (t : InputType) : Prop where
  description : LegibleDescription T t.description
  name : T (.name t.name.text)
  directives : LegibleDirectives T t.directives
  fields : ∀ v ∈ t.fields, v.Legible T

/-- A type with legible parts. -/
def TypeDef.Legible : TypeDef → Prop
  | scalar t => t.Legible T
  | object t | interface t => t.Legible T
  | union t => t.Legible T
  | enum t => t.Legible T
  | input t => t.Legible T

/-- A schema definition, or an extension of one, with legible parts. -/
structure SchemaDef.Legible (s : SchemaDef) : Prop where
  description : LegibleDescription T s.description
  directives : LegibleDirectives T s.directives
  roots : ∀ r ∈ s.roots, T (.name r.2.text)

/-- A directive definition with legible parts and at least one location, all of which are known. -/
structure DirectiveDef.Legible (d : DirectiveDef) : Prop where
  description : LegibleDescription T d.description
  name : T (.name d.name.text)
  arguments : ∀ v ∈ d.arguments, v.Legible T
  directives : LegibleDirectives T d.directives
  locations_ne : d.locations ≠ []
  locations : LegibleNames T d.locations
  known : ∀ n ∈ d.locations, n.text ∈ Parser.directiveLocations

/-- A definition of a type system, or an extension, which has no description and adds something. -/
def Definition.Legible : Definition → Prop
  | operation _ | fragment _ => True
  | schema s => s.Legible T ∧ s.roots ≠ []
  | schemaExtension s =>
    s.Legible T ∧ s.description = none ∧ ¬(s.directives.isEmpty && s.roots.isEmpty)
  | typeDef t => t.Legible T
  | typeExtension t => t.Legible T ∧ t.description = none ∧ t.addsAnything
  | directiveDef d => d.Legible T
  | directiveExtension n ds => T (.name n.text) ∧ ds ≠ [] ∧ LegibleDirectives T ds

/-- All definitions are legible. -/
def Document.Legible (d : Document) : Prop := ∀ definition ∈ d.definitions, definition.Legible T

end Legible

namespace Parser

variable {α : Type} {T : TokenKind → Prop}

/-! ## Values -/

/-- The name of a variable is a token. -/
theorem reads_variableName : Reads T variableName fun n => T (.name n.text) :=
  (takes_expectMark _).bind fun _ _ => reads_name

/-- A variable in a constant is refused, so whatever is read there is as wanted. -/
theorem reads_refuseVariable {P : α → Prop} : Reads T refuseVariable P := by
  refine (takes_expectMark _).bind fun _ _ => reads_current.bind fun t _ => ?_
  split <;> exact .fail _

/-- A name as a value is a boolean, null or an enum value, and legible as such. -/
theorem legible_namedValue {s : String} (h : T (.name s)) (room : Nat) (span : Option Span) :
    (namedValue s span).Legible T room := by
  unfold namedValue
  split_ifs
  · exact .boolean
  · exact .boolean
  · exact .null
  · exact .enum h (by simp [*])

/-- A value without others in it, as far as it is a constant. -/
theorem reads_atom (const : Bool) (room : Nat) :
    Reads T (atom const) fun v => const = true → v.Legible T room := by
  refine reads_current.bind fun t ht => ?_
  split
  · next s hs => exact takes_advance.bind fun _ _ => .pure fun _ => .int (hs ▸ ht)
  · next s hs => exact takes_advance.bind fun _ _ => .pure fun _ => .float (hs ▸ ht)
  · next s hs =>
    rw [hs] at ht
    exact takes_advance.bind fun _ _ => .pure fun _ => .string ht
  · next s hs =>
    rw [hs] at ht
    exact takes_advance.bind fun _ _ => .pure fun _ => .string ht
  · next s hs =>
    exact takes_advance.bind fun _ _ => .pure fun _ => legible_namedValue (hs ▸ ht) room _
  · cases const with
    | false => exact reads_variableName.bind fun _ _ => .pure nofun
    | true => exact reads_refuseVariable
  · exact reads_unexpected

/-- A value, if the values nested in it are legible with one level less of room. -/
theorem reads_valueWith (const : Bool) {nested : Option (Parser Value)} {room : Nat}
    (h : ∀ p, nested = some p → ∃ r, room = r + 1 ∧
      Reads T p fun v => const = true → v.Legible T r) :
    Reads T (valueWith const nested) fun v => const = true → v.Legible T room := by
  refine reads_current.bind fun t _ => ?_
  split
  · next p _ =>
    obtain ⟨r, rfl, hp⟩ := h p rfl
    exact (reads_anyBetween hp _ _).bind fun vs hvs => (takes_spanFrom _).bind fun _ _ =>
      .pure fun hc => .list fun v hv => hvs v hv hc
  · next p _ =>
    obtain ⟨r, rfl, hp⟩ := h p rfl
    have hfield : Reads T (objectField p) fun f =>
        T (.name f.1.text) ∧ (const = true → f.2.Legible T r) :=
      reads_name.bind fun _ hn => (takes_expectMark _).bind fun _ _ => hp.bind fun _ hv =>
        .pure ⟨hn, hv⟩
    exact (reads_anyBetween hfield _ _).bind fun fs hfs => (takes_spanFrom _).bind fun _ _ =>
      .pure fun hc => .object (fun f hf => (hfs f hf).1) fun f hf => (hfs f hf).2 hc
  · exact .fail _
  · exact .fail _
  · exact reads_atom const room

/-- A constant that is read is legible with the room that there was for nesting. -/
theorem reads_value (const : Bool) (room : Nat) :
    Reads T (value const room) fun v => const = true → v.Legible T room := by
  induction room with
  | zero => exact reads_valueWith const nofun
  | succ room ih => exact reads_valueWith const fun p hp => ⟨room, rfl, Option.some.inj hp ▸ ih⟩

/-- A default value that is read is legible. -/
theorem reads_defaultValue :
    Reads T defaultValue fun d => ∀ x ∈ d, x.Legible T depthRoom :=
  (takes_optMark _).bind fun _ _ =>
    .ite ((reads_value true depthRoom).bind fun v hv => .pure (by simpa using hv)) (.pure nofun)

/-! ## Directives -/

/-- Constant arguments that are read are legible. -/
theorem reads_arguments (const : Bool) (room : Nat) :
    Reads T (arguments const room) fun as => const = true → ∀ a ∈ as, a.Legible T room := by
  have hargument : Reads T (argument const room) fun a => const = true → a.Legible T room :=
    reads_name.bind fun _ hn => (takes_expectMark _).bind fun _ _ =>
      (reads_value const room).bind fun _ hv => .pure fun hc => ⟨hn, hv hc⟩
  exact (reads_optBetween hargument _ _).mono fun _ has hc a ha => has a ha hc

/-- Constant directives that are read are legible. -/
theorem reads_directives (const : Bool) (room : Nat) :
    Reads T (directives const room) fun ds => const = true → ∀ d ∈ ds, d.Legible T room := by
  have hdirective : Reads T (directive const room) fun d => const = true → d.Legible T room :=
    takes_place.bind fun _ _ => (takes_expectMark _).bind fun _ _ => reads_name.bind fun _ hn =>
      (reads_arguments const room).bind fun _ has => (takes_spanFrom _).bind fun _ _ =>
        .pure fun hc => ⟨hn, has hc⟩
  exact (reads_repeated hdirective (takes_peekMark _)).mono fun _ hds hc d hd => hds d hd hc

theorem reads_constDirectives : Reads T constDirectives (LegibleDirectives T) :=
  (reads_directives true depthRoom).mono fun _ h => h rfl

/-! ## Types and descriptions -/

/-- A type reference, if the one nested in it is legible with one level less of room. -/
theorem reads_typeRefWith {nested : Option (Parser TypeRef)} {room : Nat}
    (h : ∀ p, nested = some p → ∃ r, room = r + 1 ∧ Reads T p fun t => t.Legible T r) :
    Reads T (typeRefWith nested) fun t => t.Legible T room := by
  have hbang (start : Nat) (inner : TypeRef) (hinner : inner.Legible T room)
      (hnull : ∀ u span, inner ≠ .nonNull u span) : Reads T (do
        if ← optMark .bang then return .nonNull inner (← spanFrom start) else return inner)
      fun t => t.Legible T room :=
    (takes_optMark _).bind fun _ _ =>
      .ite ((takes_spanFrom _).bind fun _ _ => .pure (.nonNull hinner hnull)) (.pure hinner)
  refine takes_place.bind fun start _ => (takes_optMark _).bind fun _ _ => .ite ?_ ?_
  · split
    · next p =>
      obtain ⟨r, rfl, hp⟩ := h p rfl
      exact hp.bind fun _ ht => (takes_expectMark _).bind fun _ _ =>
        (takes_spanFrom _).bind fun _ _ => hbang start _ (.list ht) nofun
    · exact Reads.bind (.fail _) fun inner (h : False) => h.elim
  · exact reads_name.bind fun _ hn => hbang start _ (.named hn) nofun

/-- A type reference that is read is legible with the room that there was for nesting. -/
theorem reads_typeRef (room : Nat) : Reads T (typeRef room) fun t => t.Legible T room := by
  induction room with
  | zero => exact reads_typeRefWith nofun
  | succ room ih => exact reads_typeRefWith fun p hp => ⟨room, rfl, Option.some.inj hp ▸ ih⟩

theorem takes_peekDescription : Takes T peekDescription := by
  refine reads_current.bind fun t _ => ?_
  split <;> exact .pure trivial

/-- A description that is read is a token. -/
theorem reads_description : Reads T description (LegibleDescription T) := by
  refine reads_current.bind fun t ht => ?_
  split
  · next s hs =>
    rw [hs] at ht
    exact takes_advance.bind fun _ _ => .pure fun x hx => Option.mem_some_iff.1 hx ▸ ht
  · next s hs =>
    rw [hs] at ht
    exact takes_advance.bind fun _ _ => .pure fun x hx => Option.mem_some_iff.1 hx ▸ ht
  · exact .pure nofun

/-! ## Fields and types -/

/-- An input value that is read is legible. -/
theorem reads_inputValue : Reads T inputValue fun v => v.Legible T :=
  reads_description.bind fun _ hd => reads_name.bind fun _ hn =>
    (takes_expectMark _).bind fun _ _ => (reads_typeRef _).bind fun _ ht =>
      reads_defaultValue.bind fun _ hv => reads_constDirectives.bind fun _ hds =>
        .pure ⟨hd, hn, ht, hv, hds⟩

theorem reads_argumentDefs : Reads T argumentDefs fun vs => ∀ v ∈ vs, v.Legible T :=
  reads_optBetween reads_inputValue _ _

/-- A field that is read is legible. -/
theorem reads_field : Reads T field fun f => f.Legible T :=
  reads_description.bind fun _ hd => reads_name.bind fun _ hn =>
    reads_argumentDefs.bind fun _ has => (takes_expectMark _).bind fun _ _ =>
      (reads_typeRef _).bind fun _ ht => reads_constDirectives.bind fun _ hds =>
        .pure ⟨hd, hn, has, ht, rfl, hds⟩

theorem reads_interfaces : Reads T interfaces (LegibleNames T) :=
  (takes_optKeyword _).bind fun _ _ =>
    .ite ((reads_separatedBy reads_name _).mono fun _ h => h.2) (.pure nofun)

section Types

variable {d : Option Description} (hd : LegibleDescription T d)
include hd

/-- An object type is legible with the description that was read before its keyword. -/
theorem reads_objectType :
    Reads T (objectType d) fun t => t.Legible T ∧ t.description = d :=
  reads_name.bind fun _ hn => reads_interfaces.bind fun _ his =>
    reads_constDirectives.bind fun _ hds => (reads_optBetween reads_field _ _).bind fun _ hfs =>
      .pure ⟨⟨hd, hn, his, hds, hfs⟩, rfl⟩

theorem reads_scalarType : Reads T (scalarType d) fun t => t.Legible T ∧ t.description = d :=
  reads_name.bind fun _ hn => reads_constDirectives.bind fun _ hds => .pure ⟨⟨hd, hn, hds⟩, rfl⟩

theorem reads_unionType : Reads T (unionType d) fun t => t.Legible T ∧ t.description = d := by
  refine reads_name.bind fun _ hn => reads_constDirectives.bind fun _ hds =>
    (takes_optMark _).bind fun _ _ => .ite ?_ (.pure ⟨⟨hd, hn, hds, nofun⟩, rfl⟩)
  exact (reads_separatedBy reads_name _).bind fun _ hms => .pure ⟨⟨hd, hn, hds, hms.2⟩, rfl⟩

omit hd in
/-- The name of an enum value is none of the reserved words. -/
theorem reads_enumValueName : Reads T enumValueName fun n =>
    T (.name n.text) ∧ n.text ∉ ["true", "false", "null"] := by
  intro c n c' hc h
  change (if (c.head.kind.value?.any (["true", "false", "null"].contains ·)) then
    (fail (.reservedEnumValue c.head.kind) >>= fun _ => name : Parser Name) else name) c = _ at h
  split_ifs at h with hreserved
  · cases h
  · obtain ⟨hc', hn⟩ := reads_name c n c' hc h
    rw [kind_of_name h] at hreserved
    exact ⟨hc', hn, by simpa [TokenKind.value?] using hreserved⟩

omit hd in
theorem reads_enumValue : Reads T enumValue fun v => v.Legible T :=
  reads_description.bind fun _ hd => reads_enumValueName.bind fun _ hn =>
    reads_constDirectives.bind fun _ hds => .pure ⟨hd, hn.1, hn.2, hds⟩

theorem reads_enumType : Reads T (enumType d) fun t => t.Legible T ∧ t.description = d :=
  reads_name.bind fun _ hn => reads_constDirectives.bind fun _ hds =>
    (reads_optBetween reads_enumValue _ _).bind fun _ hvs => .pure ⟨⟨hd, hn, hds, hvs⟩, rfl⟩

theorem reads_inputType : Reads T (inputType d) fun t => t.Legible T ∧ t.description = d :=
  reads_name.bind fun _ hn => reads_constDirectives.bind fun _ hds =>
    (reads_optBetween reads_inputValue _ _).bind fun _ hfs => .pure ⟨⟨hd, hn, hds, hfs⟩, rfl⟩

/-- A type of any kind is legible with the description that was read before its keyword. -/
theorem reads_typeBody {keyword : String} {body : Option Description → Parser TypeDef}
    (h : typeBody? keyword = some body) :
    Reads T (body d) fun t => t.Legible T ∧ t.description = d := by
  unfold typeBody? at h
  split at h <;> cases h
  · exact (reads_scalarType hd).map fun _ h => h
  · exact (reads_objectType hd).map fun _ h => h
  · exact (reads_objectType hd).map fun _ h => h
  · exact (reads_unionType hd).map fun _ h => h
  · exact (reads_enumType hd).map fun _ h => h
  · exact (reads_inputType hd).map fun _ h => h

end Types

/-! ## Schemas and directives -/

theorem reads_rootType : Reads T rootType fun r => T (.name r.2.text) := by
  have hkind : Takes T operationKind := by
    refine reads_name.bind fun n _ => ?_
    split
    · exact .pure trivial
    · exact .fail _
  exact hkind.bind fun _ _ => (takes_expectMark _).bind fun _ _ => reads_name.bind fun _ hn =>
    .pure hn

/-- A schema definition is legible and names a root. -/
theorem reads_schemaDef {d : Option Description} (hd : LegibleDescription T d) :
    Reads T (schemaDef d) fun s => s.Legible T ∧ s.roots ≠ [] :=
  reads_constDirectives.bind fun _ hds => (reads_someBetween reads_rootType _ _).bind fun _ hrs =>
    .pure ⟨⟨hd, hds, hrs.2⟩, hrs.1⟩

/-- A schema extension is legible, has no description and adds something. -/
theorem reads_schemaExtension : Reads T schemaExtension fun s =>
    s.Legible T ∧ s.description = none ∧ ¬(s.directives.isEmpty && s.roots.isEmpty) := by
  refine reads_constDirectives.bind fun ds hds =>
    (reads_optBetween reads_rootType _ _).bind fun rs hrs => ?_
  dsimp only
  split_ifs with hempty
  · exact Reads.bind reads_unexpected fun _ (h : False) => h.elim
  · exact .pure ⟨⟨nofun, hds, hrs⟩, rfl, hempty⟩

theorem reads_directiveLocation : Reads T directiveLocation fun n =>
    T (.name n.text) ∧ n.text ∈ directiveLocations := by
  refine reads_name.bind fun n hn => ?_
  split_ifs with hknown
  · exact .pure ⟨hn, by simpa using hknown⟩
  · exact .fail _

/-- A directive definition is legible with the description that was read before its keyword. -/
theorem reads_directiveDef {d : Option Description} (hd : LegibleDescription T d) :
    Reads T (directiveDef d) fun x => x.Legible T :=
  (takes_expectMark _).bind fun _ _ => reads_name.bind fun _ hn =>
    reads_argumentDefs.bind fun _ has => reads_constDirectives.bind fun _ hds =>
      (takes_optKeyword _).bind fun _ _ => (takes_expectKeyword _).bind fun _ _ =>
        (reads_separatedBy reads_directiveLocation _).bind fun _ hls =>
          .pure ⟨hd, hn, has, hds, hls.1, fun n h => (hls.2 n h).1, fun n h => (hls.2 n h).2⟩

/-- A directive extension is legible. -/
theorem reads_directiveExtension : Reads T directiveExtension fun x => x.Legible T := by
  refine (takes_expectMark _).bind fun _ _ => reads_name.bind fun _ hn =>
    reads_constDirectives.bind fun ds hds => ?_
  dsimp only
  split_ifs with hempty
  · exact Reads.bind reads_unexpected fun _ (h : False) => h.elim
  · exact .pure ⟨hn, by simpa using hempty, hds⟩

/-- A type extension is legible if the type that it is read as is. -/
theorem reads_typeExtension {body : Parser TypeDef}
    (h : Reads T body fun t => t.Legible T ∧ t.description = none) :
    Reads T (typeExtension body) fun x => x.Legible T := by
  refine h.bind fun t ht => ?_
  split_ifs with hadds
  · exact .pure ⟨ht.1, ht.2, hadds⟩
  · exact reads_unexpected

/-- Whatever definition of a type system a keyword starts, it is legible. -/
theorem reads_typeSystemBody {keyword : String} {body : Option Description → Parser Definition}
    (h : typeSystemBody? keyword = some body) {d : Option Description}
    (hd : LegibleDescription T d) : Reads T (body d) fun x => x.Legible T := by
  unfold typeSystemBody? at h
  split at h
  · cases h
    exact (reads_schemaDef hd).map fun _ h => h
  · cases h
    exact (reads_directiveDef hd).map fun _ h => h
  · obtain ⟨typeBody, htype, rfl⟩ := Option.map_eq_some_iff.1 h
    exact (reads_typeBody hd htype).map fun _ h => h.1

/-- Whatever a keyword extends, the extension is legible. -/
theorem reads_extensionBody {keyword : String} {body : Parser Definition}
    (h : extensionBody? keyword = some body) : Reads T body fun x => x.Legible T := by
  unfold extensionBody? at h
  split at h
  · cases h
    exact reads_schemaExtension.map fun _ h => h
  · cases h
    exact reads_directiveExtension
  · obtain ⟨typeBody, htype, rfl⟩ := Option.map_eq_some_iff.1 h
    exact reads_typeExtension (reads_typeBody nofun htype)

/-! ## Operations and fragments -/

theorem takes_fragmentName : Takes T fragmentName :=
  reads_current.bind fun _ _ =>
    .ite (Reads.bind reads_unexpected fun _ (_ : True) => reads_name.takes) reads_name.takes

theorem takes_directives (const : Bool) (room : Nat) : Takes T (directives const room) :=
  (reads_directives const room).takes

section Selections

variable {nested : Parser (List Selection)} (h : Takes T nested)
include h

theorem takes_fragmentSelection (room : Nat) : Takes T (fragmentSelection room nested) := by
  refine (takes_expectMark _).bind fun _ _ => (takes_optKeyword _).bind fun conditional _ =>
    reads_current.bind fun t _ => ?_
  split
  · exact takes_fragmentName.bind fun _ _ => (takes_directives _ _).bind fun _ _ => .pure trivial
  · have hrest (condition : Option Name) : Takes T (do
        let ds ← directives false room
        return Selection.inline condition ds (← nested)) :=
      (takes_directives _ _).bind fun _ _ => h.bind fun _ _ => .pure trivial
    exact .ite ((reads_name.takes.map fun _ _ => trivial).bind fun _ (_ : True) => hrest _)
      (hrest _)

theorem takes_fieldSelection (room : Nat) : Takes T (fieldSelection room nested) := by
  have hrest (label : Option Name) (n : Name) : Takes T (do
      let args ← arguments false room
      let ds ← directives false room
      let inner ← if ← peekMark .braceL then some <$> nested else pure none
      return Selection.field label n args ds inner) := by
    refine (reads_arguments _ _).bind fun _ _ => (takes_directives _ _).bind fun _ _ =>
      (takes_peekMark _).bind fun _ _ => .ite ?_ (.pure trivial)
    exact (h.map fun _ _ => trivial).bind fun _ (_ : True) => .pure trivial
  refine reads_name.bind fun first _ => (takes_optMark _).bind fun _ _ => .ite ?_ (hrest _ _)
  exact reads_name.bind fun _ _ => hrest _ _

theorem takes_selection (room : Nat) : Takes T (selection room nested) :=
  (takes_peekMark _).bind fun _ _ =>
    .ite (takes_fragmentSelection h room) (takes_fieldSelection h room)

end Selections

/-- A selection set is taken, whatever it says. -/
theorem takes_selectionSet (room : Nat) : Takes T (selectionSet room) := by
  induction room with
  | zero => exact .fail _
  | succ room ih => exact (reads_anyBetween (takes_selection ih room) _ _).takes

/-- An operation is taken, whatever it says. -/
theorem takes_operation (d : Option Description) (kind : OperationKind) :
    Takes T (operation d kind) := by
  have hvariable : Takes T variableDef :=
    reads_description.bind fun _ _ => reads_variableName.bind fun _ _ =>
      (takes_expectMark _).bind fun _ _ => (reads_typeRef _).bind fun _ _ =>
        reads_defaultValue.bind fun _ _ => reads_constDirectives.bind fun _ _ => .pure trivial
  have hrest (n : Option Name) : Takes T (do
      let vs ← optBetween .parenL variableDef .parenR
      let ds ← directives false depthRoom
      return { description := d, kind := kind, name := n, variableDefs := vs, directives := ds,
               selections := ← selectionSet depthRoom : Operation }) :=
    (reads_optBetween hvariable _ _).bind fun _ _ => (takes_directives _ _).bind fun _ _ =>
      (takes_selectionSet _).bind fun _ _ => .pure trivial
  refine reads_current.bind fun t _ => ?_
  split
  · exact (reads_name.takes.map fun _ _ => trivial).bind fun _ (_ : True) => hrest _
  · exact hrest _

/-- A fragment is taken, whatever it says. -/
theorem takes_fragment (d : Option Description) : Takes T (fragment d) :=
  takes_fragmentName.bind fun _ _ => (takes_expectKeyword _).bind fun _ _ =>
    reads_name.bind fun _ _ => (takes_directives _ _).bind fun _ _ =>
      (takes_selectionSet _).bind fun _ _ => .pure trivial

/-! ## Documents -/

section Definitions

variable {P : Definition → Prop}
  (hsystem : ∀ {keyword body d}, typeSystemBody? keyword = some body → LegibleDescription T d →
    Reads T (body d) P)
  (hextension : ∀ {keyword body}, extensionBody? keyword = some body → Reads T body P)
  (hoperation : ∀ o, P (.operation o)) (hfragment : ∀ f, P (.fragment f))

include hextension in
/-- An extension is what the parser for its keyword reads. -/
theorem reads_extension : Reads T extension P := by
  refine reads_lookahead.bind fun next _ => ?_
  dsimp only
  split
  · next body h =>
    refine takes_advance.bind fun _ _ => takes_advance.bind fun _ _ => ?_
    split at h
    · exact hextension h
    · cases h
  · exact .fail _

include hsystem hoperation hfragment in
/-- A definition is what the parser for its keyword reads. -/
theorem reads_definitionBody {keyword : String} {body : Option Description → Parser Definition}
    (h : definitionBody? keyword = some body) {d : Option Description}
    (hd : LegibleDescription T d) : Reads T (body d) P := by
  unfold definitionBody? at h
  split at h
  · cases h
    exact (takes_operation d _).map fun o _ => hoperation o
  · split_ifs at h
    · cases h
      exact (takes_fragment d).map fun f _ => hfragment f
    · exact hsystem h hd

include hsystem hextension hoperation hfragment

/-- A definition with a keyword is what the parser for the keyword reads, described or not. -/
theorem reads_keywordDefinition : Reads T keywordDefinition P := by
  refine takes_peekDescription.bind fun described _ =>
    .ite (reads_lookahead.bind fun head _ => ?_) (reads_current.bind fun head _ => ?_)
  -- The keyword is looked up in one way, with or without a description before it.
  all_goals
    simp only [pure_bind]
    split
    · split
      · next body h =>
        exact reads_description.bind fun d hd => takes_advance.bind fun _ _ =>
          reads_definitionBody hsystem hoperation hfragment h hd
      · exact .ite (.fail _) (.ite (reads_extension hextension) (.fail _))
    · exact .fail _
    · exact .fail _

/-- The parser of definitions reads what the parsers of the kinds of definitions read. -/
theorem reads_definition : Reads T definition P :=
  (takes_peekMark _).bind fun _ _ =>
    .ite ((takes_selectionSet _).bind fun _ _ => .pure (hoperation _))
      (reads_keywordDefinition hsystem hextension hoperation hfragment)

/-- A document has only definitions that the parsers of the kinds of definitions read. -/
theorem reads_document : Reads T document fun d => ∀ x ∈ d.definitions, P x :=
  have hdefinition := reads_definition hsystem hextension hoperation hfragment
  hdefinition.bind fun _ hfirst =>
    (reads_repeated hdefinition (reads_current.bind fun _ _ => .pure trivial)).bind
      fun _ hmore => .pure (List.forall_mem_cons.2 ⟨hfirst, hmore⟩)

end Definitions

end Parser

/-- The document that a text spells is what the document parser reads from the tokens of the
text. -/
theorem Document.exists_cursor_of_parse {text : String} {d : Document}
    (h : Document.parse text = .ok d) :
    ∃ c, Parser.document ⟨0, Token.ofString text⟩ = .ok (d, c) := by
  unfold Document.parse Document.ofTokens StateT.run' at h
  obtain ⟨⟨_, c⟩, hrun, rfl⟩ := except_map_eq_ok_iff.1 h
  obtain ⟨_, c₁, hhead, hdocument⟩ := Parser.bind_eq_ok_iff.1 hrun
  rw [Parser.eq_of_checkHead hhead] at hdocument
  exact ⟨c, hdocument⟩

/-- All that is read from tokens with a property is legible with this property. -/
theorem Document.legible_of_parse {T : TokenKind → Prop} {text : String} {d : Document}
    (h : Document.parse text = .ok d) (hfinish : T .finish)
    (htokens : ∀ t ∈ Token.ofString text, T t.kind) : d.Legible T := by
  obtain ⟨c, hc⟩ := Document.exists_cursor_of_parse h
  exact (Parser.reads_document (fun h hd => Parser.reads_typeSystemBody h hd)
    Parser.reads_extensionBody (fun _ => trivial) (fun _ => trivial) _ _ _ ⟨hfinish, htokens⟩ hc).2

/-- A document that was read has a definition at least. -/
theorem Document.definitions_ne_nil_of_parse {text : String} {d : Document}
    (h : Document.parse text = .ok d) : d.definitions ≠ [] := by
  obtain ⟨c, hc⟩ := Document.exists_cursor_of_parse h
  obtain ⟨first, _, -, hc⟩ := Parser.bind_eq_ok_iff.1 hc
  obtain ⟨more, _, -, hc⟩ := Parser.bind_eq_ok_iff.1 hc
  cases hc
  exact List.cons_ne_nil _ _

end RelationApi.Sdl

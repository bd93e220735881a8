import RelationApi.Proofs.Sdl.Rereading

/-!
# Documents are read back

A legible document of a type system, without block strings, is read back from the text it is printed
as, and from every other text that spells its tokens, but for the places of its parts
(`Document.Legible.parse_of_spells`). So the same kinds of definitions with the same names come back
in the same order, and the text is printed again (`Document.Legible.parse_print`).

The two halves meet at the tokens of the document : printing spells them
(`Document.Legible.spells_print`), and each definition takes its own (`Parser.parses_definition`).
-/

namespace RelationApi.Sdl

/-- The kind of a definition : the keyword of what it defines, and whether it is an extension. -/
def Definition.kind : Definition → String × Bool
  | operation o => (o.kind.keyword, false)
  | fragment _ => ("fragment", false)
  | schema _ => ("schema", false)
  | schemaExtension _ => ("schema", true)
  | typeDef t => (t.keyword, false)
  | typeExtension t => (t.keyword, true)
  | directiveDef _ => ("directive", false)
  | directiveExtension _ _ => ("directive", true)

/-- The kind and the name of a definition. -/
def Definition.heading (d : Definition) : (String × Bool) × Option String := (d.kind, d.name?)

/-- A definition keeps its kind and its name. -/
theorem Definition.heading_stripped (f : Scalar → Scalar) (d : Definition) :
    (d.stripped f).heading = d.heading := by
  have hname : ∀ n : Option Name, (n.map Name.placeless).map Name.text = n.map Name.text := by
    intro n
    cases n <;> rfl
  cases d with
  | operation o => exact congrArg (Prod.mk _) (hname o.name)
  | typeDef t | typeExtension t => cases t <;> rfl
  | _ => rfl

namespace Parser

variable {T : TokenKind → Prop}

/-! ## Schemas -/

theorem parses_rootType (r : OperationKind × Name) :
    Parses rootType (rootTokens r) Anything
      fun r' => (r'.1, r'.2.placeless) = (r.1, r.2.placeless) := by
  have hkind : Parses operationKind [.name r.1.keyword] Anything fun k => k = r.1 := by
    refine (parses_name r.1.keyword).bindNil fun n hn => ?_
    rw [hn]
    cases r.1 <;> exact .pure rfl
  exact hkind.cons fun k hk => (parses_expectMark .colon).cons fun _ _ =>
    (parses_name r.2.text).map fun n hn => Prod.ext hk (Name.placeless_eq hn)

theorem parses_schemaDef {s : SchemaDef} (h : s.Legible T) (hne : s.roots ≠ [])
    (d : Option Description) :
    Parses (schemaDef d) s.tokens AfterDefinition fun s' =>
      s'.placeless = { s.reread with description := d.map Description.placeless } := by
  have hroots : Parses (someBetween .braceL rootType .braceR)
      (tokensBetween .braceL (s.roots.map rootTokens) .braceR) Anything
      fun rs => rs.map (fun r => (r.1, r.2.placeless)) =
        s.roots.map fun r => (r.1, r.2.placeless) :=
    parses_someBetween hne (fun r _ => parses_rootType r)
      (fun r _ => ⟨_, _, rfl, nofun, trivial⟩) trivial
  refine parses_typeDirectives h.directives (tokensBetween_start _ _ _) (by decide) fun ds hds =>
    (hroots.before fun _ _ => trivial).map fun rs hrs => ?_
  simp only [SchemaDef.stripped, hds, hrs]

theorem parses_schemaExtension {s : SchemaDef} (h : s.Legible T) (hplain : s.description = none)
    (hadds : ¬(s.directives.isEmpty && s.roots.isEmpty)) :
    Parses schemaExtension s.tokens AfterDefinition fun s' => s'.placeless = s.reread := by
  have hroots : Parses (optBetween .braceL rootType .braceR)
      (tokensBetween .braceL (s.roots.map rootTokens) .braceR) (· ≠ .mark .braceL)
      fun rs => rs.map (fun r => (r.1, r.2.placeless)) =
        s.roots.map fun r => (r.1, r.2.placeless) :=
    parses_optBetween (fun r _ => parses_rootType r)
      (fun r _ => ⟨_, _, rfl, nofun, trivial⟩) trivial
  refine parses_typeDirectives h.directives (tokensBetween_start _ _ _) (by decide) fun ds hds =>
    (hroots.before fun _ hk => hk.not_mark _).bindNil fun rs hrs => ?_
  rw [if_neg (by rwa [isEmpty_eq_of_map_eq hds, isEmpty_eq_of_map_eq hrs])]
  refine .pure ?_
  simp only [SchemaDef.stripped, hds, hrs, hplain]

/-! ## Directive definitions -/

theorem parses_directiveLocation {n : Name} (h : n.text ∈ directiveLocations) :
    Parses directiveLocation [.name n.text] Anything fun n' => n'.placeless = n.placeless := by
  refine (parses_name n.text).bindNil fun n' hn => ?_
  rw [if_pos (by rw [hn]; simpa using h)]
  exact .pure (Name.placeless_eq hn)

theorem parses_directiveDef {x : DirectiveDef} (h : x.Legible T) (d : Option Description) :
    Parses (directiveDef d) x.tokens AfterDefinition fun x' =>
      x'.placeless = { x.reread with description := d.map Description.placeless } := by
  obtain ⟨l, ls, hls⟩ := List.exists_cons_of_ne_nil h.locations_ne
  have hlocations : Parses (separatedBy .pipe directiveLocation) (nameTokens .pipe x.locations)
      (· ≠ .mark .pipe) fun ls => ls.map Name.placeless = x.locations.map Name.placeless := by
    rw [hls]
    refine parses_separatedBy (fun n : Name => [.name n.text])
      (fun n hn => parses_directiveLocation (h.known n (hls ▸ hn)))
      fun _ _ => ⟨_, _, rfl, fun he => by cases he⟩
  have hrepeatable : Parses (optKeyword "repeatable")
      (if x.repeatable then [.name "repeatable"] else []) (· ≠ .name "repeatable")
      (· = x.repeatable) := by
    cases x.repeatable with
    | true => exact (parses_optKeyword "repeatable").before fun _ _ => trivial
    | false => exact parses_optKeyword_ne "repeatable"
  refine (parses_expectMark .atSign).cons fun _ _ =>
    (parses_name x.name.text).cons fun n hn => (parses_argumentDefs h.arguments).bind
      (fun as has => (parses_constDirectives h.directives).bind (fun ds hds =>
        hrepeatable.bind (fun r hr => (parses_expectKeyword "on").cons fun _ _ =>
          (hlocations.before fun _ hk => hk.not_mark _).map fun ls hls => ?_)
          fun _ _ => by simp) fun _ _ => ?_) fun _ _ => ?_
  · simp only [DirectiveDef.stripped, has, hds, hr, hls, Name.placeless_eq hn]
  · refine apart_of_not_mark fun m => ?_
    split <;> exact TokenKind.noConfusion
  · rw [headD_append]
    exact headD_ne (directiveTokens_start _) (by decide) (by split <;> exact TokenKind.noConfusion)

theorem parses_directiveExtension {n : Name} {ds : List Directive} (hne : ds ≠ [])
    (h : LegibleDirectives T ds) :
    Parses directiveExtension (.mark .atSign :: .name n.text :: directiveTokens ds) AfterDefinition
      fun d => d.placeless = (Definition.directiveExtension n ds).reread := by
  refine (parses_expectMark .atSign).cons fun _ _ => (parses_name n.text).cons fun n' hn =>
    ((parses_constDirectives h).before fun _ hk => apart_of_not_mark hk.not_mark).bindNil
      fun ds' hds => ?_
  rw [if_neg (by rw [isEmpty_eq_of_map_eq hds]; simpa using hne)]
  refine .pure ?_
  simp only [Definition.stripped, hds, Name.placeless_eq hn]

/-! ## Definitions -/

theorem parses_peekDescription :
    Parses peekDescription [] (fun k => ∃ block s, k = .ofText block s) (· = true) := by
  refine .current ?_
  rintro ⟨_, span⟩ ⟨_, ⟨block, s, rfl⟩, rfl⟩
  cases block <;> exact .pure rfl

theorem parses_peekDescription_ne :
    Parses peekDescription [] (fun k => ∀ block s, k ≠ .ofText block s) (· = false) := by
  refine .current ?_
  rintro ⟨kind, span⟩ ⟨k, hk, hkind : kind = k⟩
  subst hkind
  cases kind with
  | string s => exact absurd rfl (hk false s)
  | block s => exact absurd rfl (hk true s)
  | _ => exact .pure rfl

/-- A definition starts with its description, if there is one, and its keyword. -/
theorem parses_keyword {s : String} (body : Option Description → Parser Definition)
    (hbody : definitionBody? s = some body) (d : Option Description) {ks : List TokenKind}
    {P : Definition → Prop}
    (h : ∀ d', d'.map Description.placeless = d.map Description.placeless →
      Parses (body d') ks AfterDefinition P) :
    Parses definition (descriptionTokens d ++ .name s :: ks) AfterDefinition P := by
  have hrest : Parses (do let d ← description; advance; body d)
      (descriptionTokens d ++ .name s :: ks) AfterDefinition P :=
    (parses_description d).bind (fun d' hd' => parses_advance.cons fun _ _ => h d' hd')
      fun _ _ => nofun
  refine (parses_peekMark_ne .braceL).look ?_ ?_
  · rintro _ rfl
    cases d with
    | none =>
      refine parses_peekDescription_ne.look ?_ fun _ _ => nofun
      rintro _ rfl
      refine .current_cons ?_
      rintro ⟨_, span⟩ rfl
      simp only [pure_bind, hbody]
      exact hrest
    | some d =>
      refine parses_peekDescription.look ?_ fun _ _ => ⟨_, _, rfl⟩
      rintro _ rfl
      refine parses_lookahead ?_
      simp only [hbody]
      exact hrest
  · exact fun k _ => (startsWith_described d s ks).headD k .braceL

theorem parses_extension {s : String} (body : Parser Definition)
    (hbody : extensionBody? s = some body) {ks : List TokenKind} {P : Definition → Prop}
    (h : Parses body ks AfterDefinition P) :
    Parses definition (.name "extend" :: .name s :: ks) AfterDefinition P := by
  refine (parses_peekMark_ne .braceL).look ?_ fun _ _ => nofun
  rintro _ rfl
  refine parses_peekDescription_ne.look ?_ fun _ _ => nofun
  rintro _ rfl
  refine .current_cons ?_
  rintro ⟨_, span⟩ rfl
  change Parses extension _ _ _
  refine parses_lookahead ?_
  simp only [hbody]
  exact parses_advance.cons fun _ _ => parses_advance.cons fun _ _ => h

theorem definitionBody?_keyword (t : TypeDef) : definitionBody? t.keyword =
    (typeBody? t.keyword).map fun body d => .typeDef <$> body d := by
  cases t <;> rfl

theorem extensionBody?_keyword (t : TypeDef) : extensionBody? t.keyword =
    (typeBody? t.keyword).map fun body => typeExtension (body none) := by
  cases t <;> rfl

/-- A legible definition takes its tokens, and comes back as expected. -/
theorem parses_definition {d : Definition} (h : d.Legible T) (hd : d.isTypeSystem) :
    Parses definition d.tokens AfterDefinition fun d' => d'.placeless = d.reread := by
  cases d with
  | operation o => cases hd
  | fragment f => cases hd
  | schema s =>
    refine parses_keyword (fun d => .schema <$> schemaDef d) rfl s.description fun d hd =>
      (parses_schemaDef h.1 h.2 d).fmap fun s' hs => ?_
    rw [hd] at hs
    exact congrArg Definition.schema hs
  | schemaExtension s =>
    exact parses_extension (.schemaExtension <$> schemaExtension) rfl
      ((parses_schemaExtension h.1 h.2.1 h.2.2).fmap fun s' hs =>
        congrArg Definition.schemaExtension hs)
  | typeDef t =>
    obtain ⟨body, hbody, hparse⟩ := parses_typeBody h
    have hdef : definitionBody? t.keyword = some fun d => .typeDef <$> body d := by
      rw [definitionBody?_keyword, hbody, Option.map_some]
    exact parses_keyword _ hdef t.description fun d hd => (hparse d).fmap fun t' ht =>
      congrArg Definition.typeDef (ht.trans (TypeDef.withDescription_reread hd))
  | typeExtension t =>
    obtain ⟨body, hbody, hparse⟩ := parses_typeBody h.1
    have hdef : extensionBody? t.keyword = some (typeExtension (body none)) := by
      rw [extensionBody?_keyword, hbody, Option.map_some]
    refine parses_extension _ hdef ((hparse none).bindNil fun t' ht => ?_)
    rw [if_pos ((TypeDef.addsAnything_of_placeless ht).trans h.2.2)]
    have hplain : (none : Option Description).map Description.placeless =
        t.description.map Description.placeless := by rw [h.2.1]
    exact .pure (congrArg Definition.typeExtension
      (ht.trans (TypeDef.withDescription_reread hplain)))
  | directiveDef x =>
    refine parses_keyword (fun d => .directiveDef <$> directiveDef d) rfl x.description
      fun d hd => (parses_directiveDef h d).fmap fun x' hx => ?_
    rw [hd] at hx
    exact congrArg Definition.directiveDef hx
  | directiveExtension n ds =>
    exact parses_extension directiveExtension rfl (parses_directiveExtension h.2.1 h.2.2)

theorem startsWith_definition {d : Definition} (hd : d.isTypeSystem) :
    StartsWith (fun k => k ≠ .finish ∧ AfterDefinition k) d.tokens := by
  have hkeyword (x : Option Description) {s : String} (hs : s ≠ "implements")
      (ks : List TokenKind) : StartsWith (fun k => k ≠ .finish ∧ AfterDefinition k)
      (descriptionTokens x ++ .name s :: ks) := by
    cases x with
    | none => exact ⟨_, _, rfl, nofun, nofun, by simpa using hs⟩
    | some x =>
      obtain ⟨_, block, _⟩ := x
      cases block <;> exact ⟨_, _, rfl, nofun, nofun, nofun⟩
  cases d with
  | operation o => cases hd
  | fragment f => cases hd
  | schema s => exact hkeyword _ (by decide) _
  | typeDef t => exact hkeyword _ (by cases t <;> simp [TypeDef.keyword]) _
  | directiveDef x => exact hkeyword _ (by decide) _
  | schemaExtension s => exact hkeyword none (s := "extend") (by decide) _
  | typeExtension t => exact hkeyword none (s := "extend") (by decide) _
  | directiveExtension n ds => exact hkeyword none (s := "extend") (by decide) _

/-- A document takes the tokens of all its definitions, up to the end. -/
theorem parses_document {ds : List Definition} (hne : ds ≠ []) (h : ∀ d ∈ ds, d.Legible T)
    (hds : ∀ d ∈ ds, d.isTypeSystem) :
    Parses document (ds.flatMap Definition.tokens) (· = .finish) fun d' =>
      d'.definitions.map Definition.placeless = ds.map Definition.reread := by
  obtain ⟨d, ds, rfl⟩ := List.exists_cons_of_ne_nil hne
  rw [List.forall_mem_cons] at h hds
  have hend (k : TokenKind) (hk : k = .finish) : AfterDefinition k := by
    subst hk
    exact ⟨nofun, nofun⟩
  have hmore : Parses (repeated (return (← current).kind ≠ .finish) definition)
      ((ds.flatMap fun d => [] ++ d.tokens) ++ []) (· = .finish) fun ds' =>
      ds'.map Definition.placeless = ds.map Definition.reread := by
    refine .repeated [] [] (F := AfterDefinition)
      (G := fun k => k ≠ .finish ∧ AfterDefinition k) ?_ ?_
      (fun d hd => parses_definition (h.2 d hd) (hds.2 d hd))
      (fun d hd => startsWith_definition (hds.2 d hd)) (fun _ hk => hk.2) hend
    · exact .current fun t ⟨k, hk, ht⟩ => .pure (decide_eq_true (ht ▸ hk.1))
    · exact .current fun t ⟨k, hk, ht⟩ => .pure (decide_eq_false (not_not.2 (ht.trans hk)))
  rw [List.append_nil] at hmore
  rw [List.flatMap_cons]
  refine (parses_definition h.1 hds.1).bind
    (fun d' hd' => hmore.map fun ds' hds' => ?_) fun k hk => ?_
  · rw [List.map_cons, List.map_cons, hds', hd']
  · cases ds with
    | nil => exact hend k hk
    | cons d ds =>
      rw [List.flatMap_cons, headD_append]
      exact ((startsWith_definition (hds.2 d List.mem_cons_self)).headD _).2

end Parser

/-- A text that spells a row is read as the row and the end. -/
theorem Spells.at_ofString {s : String} {ks : List TokenKind} (h : Spells s.toList ks) :
    Cursor.At ⟨0, Token.ofString s⟩ (ks ++ [.finish]) := by
  refine ⟨h.lex 0, fun k hk => ?_⟩
  rcases List.mem_append.1 hk with hk | hk
  · exact h.valid k hk
  · obtain rfl := List.mem_singleton.1 hk
    exact nofun

namespace Document.Legible

variable {d : Document}

/-- A text that spells the tokens of a legible document of a type system is read as the document,
apart from places. -/
theorem parse_of_spells {T : TokenKind → Prop} (h : d.Legible T)
    (hd : ∀ x ∈ d.definitions, x.isTypeSystem) (hne : d.definitions ≠ []) {s : String}
    (hs : Spells s.toList (d.definitions.flatMap Definition.tokens)) :
    ∃ d', parse s = .ok d' ∧ d'.placeless = d.reread := by
  have hcursor := hs.at_ofString
  obtain ⟨d', c', hparse, -, hd'⟩ := Parser.parses_document hne h hd _ _ hcursor rfl
  have hrun : (do Parser.checkHead (Token.ofString s); Parser.document : Parser Document)
      ⟨0, Token.ofString s⟩ = .ok (d', c') :=
    Parser.bind_eq_ok_iff.2 ⟨(), _, hcursor.checkHead _, hparse⟩
  refine ⟨d', ?_, congrArg Document.mk hd'⟩
  rw [parse, ofTokens, StateT.run', hrun]
  rfl

/-- The text of a legible document, without block strings, spells its tokens. -/
theorem spells_printed (h : d.Legible TokenKind.Plain)
    (hd : ∀ x ∈ d.definitions, x.isTypeSystem) :
    Spells d.print.toList (d.definitions.flatMap Definition.tokens) := by
  rw [print, String.toList_ofList]
  exact h.spells_print hd

/-- A legible document of a type system, without block strings, is read back from its text. -/
theorem parse_print (h : d.Legible TokenKind.Plain)
    (hd : ∀ x ∈ d.definitions, x.isTypeSystem) (hne : d.definitions ≠ []) :
    ∃ d', parse d.print = .ok d' ∧
      d'.definitions.map Definition.heading = d.definitions.map Definition.heading ∧
      d'.print = d.print := by
  obtain ⟨d', hparse, hd'⟩ := h.parse_of_spells hd hne (h.spells_printed hd)
  refine ⟨d', hparse, ?_, by rw [← d'.print_placeless, hd', d.print_reread]⟩
  have hheadings := congrArg (fun x => x.definitions.map Definition.heading) hd'
  simp only [stripped, List.map_map, Function.comp_def, Definition.heading_stripped] at hheadings
  exact hheadings

end Document.Legible

end RelationApi.Sdl

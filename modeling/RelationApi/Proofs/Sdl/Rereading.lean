import RelationApi.Proofs.Sdl.Reread
import RelationApi.Proofs.Sdl.Spelling
import RelationApi.Proofs.Sdl.Taking

/-!
# Reading back what was printed

The parser of each part of a type system takes the tokens of a legible part, and what it gives is
the part as it is read back, apart from places (`Value.reread`, `Field.reread` and so on). So a
statement here says of the new part without places what the old one determines.

Together with `Document.Legible.spells_print` this is the round trip : a legible document without
block strings is read back from its text (`Document.Legible.parse_of_spells`).
-/

namespace RelationApi.Sdl

theorem isEmpty_eq_of_map_eq {α β γ : Type} {f : α → γ} {g : β → γ} {as : List α} {bs : List β}
    (h : as.map f = bs.map g) : as.isEmpty = bs.isEmpty := by
  rw [← List.isEmpty_map (f := f), h, List.isEmpty_map]

theorem Name.placeless_eq {n n' : Name} (h : n'.text = n.text) : n'.placeless = n.placeless :=
  congrArg (Name.mk · none) h

namespace TypeDef

/-- The type with another description. -/
def withDescription (t : TypeDef) (d : Option Description) : TypeDef :=
  match t with
  | scalar t => scalar { t with description := d }
  | object t => object { t with description := d }
  | interface t => interface { t with description := d }
  | union t => union { t with description := d }
  | enum t => enum { t with description := d }
  | input t => input { t with description := d }

/-- The description is the only part of a type that is read before its keyword. -/
theorem withDescription_reread {t : TypeDef} {d : Option Description}
    (h : d.map Description.placeless = t.description.map Description.placeless) :
    t.reread.withDescription (d.map Description.placeless) = t.reread := by
  rw [h]
  cases t <;> rfl

/-- An extension adds something or not, whatever is read back of its parts. -/
theorem addsAnything_of_placeless {t t' : TypeDef} {d : Option Description}
    (h : t'.placeless = t.reread.withDescription d) : t'.addsAnything = t.addsAnything := by
  have hdescription (t : TypeDef) : (t.withDescription d).addsAnything = t.addsAnything := by
    cases t <;> rfl
  calc t'.addsAnything
      = t'.placeless.addsAnything := (t'.addsAnything_stripped id).symm
    _ = t.reread.addsAnything := by rw [h, hdescription]
    _ = t.addsAnything := t.addsAnything_stripped .asText

end TypeDef

namespace Parser

variable {T : TokenKind → Prop} {room : Nat}

/-! ## Values -/

theorem Value.startsWith_tokens (v : Value) :
    StartsWith (fun k => k ≠ .mark .bracketR ∧ Anything k) v.tokens := by
  cases v with
  | string v block _ => cases block <;> exact ⟨_, _, rfl, nofun, trivial⟩
  | _ => exact ⟨_, _, rfl, nofun, trivial⟩

theorem placeless_namedValue {s : String} (h : s ∉ ["true", "false", "null"])
    (span : Option Span) : (namedValue s span).placeless = .enum (.text s) none := by
  simp only [List.mem_cons, not_or] at h
  rw [namedValue, if_neg h.1, if_neg h.2.1, if_neg h.2.2.1]
  rfl

/-- The only token is known and taken. -/
theorem Parses.token {α : Type} {f : Token → Parser α} {k : TokenKind} {g : Option Span → α}
    {P : α → Prop} (hf : ∀ span, f ⟨k, span⟩ = do advance; return g (some span))
    (h : ∀ span, P (g span)) : Parses (Parser.current >>= f) [k] Anything P := by
  refine .current_cons ?_
  rintro ⟨_, span⟩ rfl
  rw [hf]
  exact parses_advance.map fun _ _ => h _

/-- A value that takes one token. -/
theorem parses_atom (k : TokenKind) (hk : ∀ m, k ≠ .mark m) {P : Value → Prop}
    (h : Parses (atom true) [k] Anything P) : Parses (value true room) [k] Anything P := by
  have hvalue (nested : Option (Parser Value)) :
      Parses (valueWith true nested) [k] Anything P := by
    refine .current_cons ?_
    rintro ⟨kind, span⟩ (hkind : kind = k)
    subst hkind
    cases kind with
    | mark m => exact absurd rfl (hk m)
    | _ => exact h
  cases room with
  | zero => exact hvalue _
  | succ room => exact hvalue _

/-- A list takes its tokens if its items take theirs. -/
theorem parses_list {vs : List Value} (span : Option Span)
    (hitems : ∀ v ∈ vs, Parses (value true room) v.tokens Anything
      fun v' => v'.placeless = v.reread) :
    Parses (value true (room + 1)) (Value.list vs span).tokens Anything
      fun v' => v'.placeless = (Value.list vs span).reread := by
  have hlist : Parses (anyBetween .bracketL (value true room) .bracketR)
      (.mark .bracketL :: (vs.flatMap Value.tokens ++ [.mark .bracketR])) Anything
      fun vs' => vs'.map Value.placeless = vs.map Value.reread :=
    parses_anyBetween hitems (fun v _ => Value.startsWith_tokens v) trivial
  rw [Value.tokens, Value.itemTokens_eq, ← List.flatMap_def]
  refine .current_cons ?_
  rintro ⟨_, span⟩ rfl
  refine hlist.bindNil fun vs' hvs' => (parses_spanFrom _).map fun _ _ => ?_
  simp only [Value.stripped, Value.strippedItems_eq, hvs']

/-- An object takes its tokens if the values of its fields take theirs. -/
theorem parses_object {fs : List (Name × Value)} (span : Option Span)
    (hvalues : ∀ f ∈ fs, Parses (value true room) f.2.tokens Anything
      fun v' => v'.placeless = f.2.reread) :
    Parses (value true (room + 1)) (Value.object fs span).tokens Anything
      fun v' => v'.placeless = (Value.object fs span).reread := by
  have hfield (f : Name × Value) (hf : f ∈ fs) : Parses (objectField (value true room))
      (.name f.1.text :: .mark .colon :: f.2.tokens) Anything
      fun f' => (f'.1.placeless, f'.2.placeless) = (f.1.placeless, f.2.reread) :=
    (parses_name f.1.text).cons fun n hn => (parses_expectMark .colon).cons fun _ _ =>
      (hvalues f hf).map fun v hv => Prod.ext (Name.placeless_eq hn) hv
  have hobject : Parses (anyBetween .braceL (objectField (value true room)) .braceR)
      (.mark .braceL :: (fs.flatMap (fun f => .name f.1.text :: .mark .colon :: f.2.tokens) ++
        [.mark .braceR])) Anything
      fun fs' => fs'.map (fun f => (f.1.placeless, f.2.placeless)) =
        fs.map fun f => (f.1.placeless, f.2.reread) :=
    parses_anyBetween hfield (fun _ _ => ⟨_, _, rfl, nofun, trivial⟩) trivial
  rw [Value.tokens, Value.fieldTokens_eq, ← List.flatMap_def]
  refine .current_cons ?_
  rintro ⟨_, span⟩ rfl
  refine hobject.bindNil fun fs' hfs' => (parses_spanFrom _).map fun _ _ => ?_
  simp only [Value.stripped, Value.strippedFields_eq, hfs']

/-- A value takes its tokens, whatever follows. -/
theorem parses_value {v : Value} (h : v.Legible T room) :
    Parses (value true room) v.tokens Anything fun v' => v'.placeless = v.reread := by
  induction h with
  | @int _ s =>
    exact parses_atom (.int s) nofun (.token (g := .int s) (fun _ => rfl) fun _ => rfl)
  | @float _ s =>
    exact parses_atom (.float s) nofun (.token (g := .float s) (fun _ => rfl) fun _ => rfl)
  | @string _ v block =>
    have hatom : Parses (atom true) [.ofText block v.display] Anything
        fun v' => v'.placeless = .string (.text v.display) block none := by
      refine .token (g := .string (.text v.display) block) (fun span => ?_) fun _ => rfl
      cases block <;> rfl
    exact parses_atom _ (by cases block <;> nofun) hatom
  | @boolean _ b =>
    refine parses_atom (.name (if b then "true" else "false")) nofun
      (.token (g := .boolean b) (fun span => ?_) fun _ => rfl)
    cases b <;> rfl
  | null => exact parses_atom (.name "null") nofun (.token (g := .null) (fun _ => rfl) fun _ => rfl)
  | @enum _ s _ _ hs =>
    exact parses_atom (.name s) nofun
      (.token (g := namedValue s) (fun _ => rfl) fun span => placeless_namedValue hs span)
  | list _ ih => exact parses_list _ ih
  | object _ _ ih => exact parses_object _ ih

theorem parses_defaultValue {d : Option Value} (h : ∀ v ∈ d, v.Legible T depthRoom) :
    Parses defaultValue (defaultTokens d) (· ≠ .mark .equals)
      fun d' => d'.map Value.placeless = d.map Value.reread := by
  cases d with
  | none =>
    refine (parses_optMark_ne .equals).bindNil ?_
    rintro _ rfl
    exact .pure rfl
  | some v =>
    refine (parses_optMark .equals).cons ?_
    rintro _ rfl
    exact ((parses_value (h v rfl)).before fun _ _ => trivial).map fun _ hv => congrArg some hv

/-! ## Directives -/

theorem parses_argument {a : Argument} (h : a.Legible T room) :
    Parses (argument true room) a.tokens Anything fun a' => a'.placeless = a.reread := by
  refine (parses_name a.name.text).cons fun n hn => (parses_expectMark .colon).cons fun _ _ =>
    (parses_value h.value).map fun v hv => ?_
  simp only [Argument.stripped, hv, Name.placeless_eq hn]

theorem parses_directive {d : Directive} (h : d.Legible T room) :
    Parses (directive true room) d.tokens (· ≠ .mark .parenL)
      fun d' => d'.placeless = d.reread := by
  have harguments : Parses (arguments true room)
      (tokensBetween .parenL (d.arguments.map Argument.tokens) .parenR) (· ≠ .mark .parenL)
      fun as => as.map Argument.placeless = d.arguments.map Argument.reread :=
    parses_optBetween (fun a ha => parses_argument (h.arguments a ha))
      (fun a _ => ⟨_, _, rfl, nofun, trivial⟩) trivial
  refine parses_place.look (fun start _ => (parses_expectMark .atSign).cons fun _ _ =>
    (parses_name d.name.text).cons fun n hn => harguments.bindNil fun as has =>
      (parses_spanFrom start).map fun _ _ => ?_) (F := Anything) fun _ _ => trivial
  simp only [Directive.stripped, has, Name.placeless_eq hn]

/-- Not one of the marks. -/
def Apart (ms : List Mark) (k : TokenKind) : Prop := ∀ m ∈ ms, k ≠ .mark m

theorem parses_constDirectives {ds : List Directive} (h : LegibleDirectives T ds) :
    Parses constDirectives (directiveTokens ds) (Apart [.atSign, .parenL])
      fun ds' => ds'.map Directive.placeless = ds.map Directive.reread := by
  have hrow : Parses constDirectives ((ds.flatMap fun d => [] ++ d.tokens) ++ [])
      (Apart [.atSign, .parenL]) fun ds' => ds'.map Directive.placeless = ds.map Directive.reread :=
    .repeated [] [] (G := (· = .mark .atSign)) (parses_peekMark .atSign)
      ((parses_peekMark_ne .atSign).before fun k hk => hk _ (by simp))
      (fun d hd => parses_directive (h d hd)) (fun d _ => ⟨_, _, rfl, rfl⟩)
      (fun k hk => by subst hk; exact nofun) fun k hk => hk _ (by simp)
  rwa [List.append_nil] at hrow

/-! ## Types and descriptions -/

/-- The type reference with an exclamation mark, or as it is. -/
def banged (t : TypeRef) (bang : Bool) : TypeRef := if bang then .nonNull t none else t

/-- The end of a type reference : an exclamation mark, or nothing. -/
theorem parses_bang (start : Nat) (t : TypeRef) (bang : Bool) :
    Parses (do if ← optMark .bang then return .nonNull t (← spanFrom start) else return t)
      (if bang then [.mark .bang] else []) (· ≠ .mark .bang)
      fun t' => t'.placeless = banged t.placeless bang := by
  cases bang with
  | true =>
    refine ((parses_optMark .bang).before fun _ _ => trivial).bindNil ?_
    rintro _ rfl
    exact (parses_spanFrom start).map fun _ _ => rfl
  | false =>
    refine (parses_optMark_ne .bang).bindNil ?_
    rintro _ rfl
    exact .pure rfl

/-- A type reference takes its tokens, and an exclamation mark if there is one. -/
theorem parses_typeRef_bang {t : TypeRef} (h : t.Legible T room) (bang : Bool)
    (hbang : bang → ∀ u span, t ≠ .nonNull u span) :
    Parses (typeRef room) (t.tokens ++ if bang then [.mark .bang] else []) (· ≠ .mark .bang)
      fun t' => t'.placeless = banged t.placeless bang := by
  induction h generalizing bang with
  | @named room n _ =>
    have hnamed (nested : Option (Parser TypeRef)) : Parses (typeRefWith nested)
        (.name n.text :: if bang then [.mark .bang] else []) (· ≠ .mark .bang)
        fun t' => t'.placeless = banged (.named n.placeless) bang := by
      refine parses_place.look (F := Anything) (fun start _ =>
        (parses_optMark_ne .bracketL).look ?_ fun _ _ he => by cases he) fun _ _ => trivial
      rintro _ rfl
      refine (parses_name n.text).cons fun n' hn =>
        (parses_bang start (.named n') bang).mono fun t' ht => ?_
      rw [ht, TypeRef.placeless, Name.placeless_eq hn]
    cases room <;> exact hnamed _
  | @list room t span _ ih =>
    have hitem : Parses (typeRef room) t.tokens (· ≠ .mark .bang)
        fun t' => t'.placeless = t.placeless := by
      simpa [banged] using ih false fun hbang => by cases hbang
    rw [TypeRef.tokens, List.cons_append, List.append_assoc]
    refine parses_place.look (F := Anything) (fun start _ => (parses_optMark .bracketL).cons ?_)
      fun _ _ => trivial
    rintro _ rfl
    refine hitem.bind (fun t' ht => (parses_expectMark .bracketR).cons fun _ _ =>
      (parses_spanFrom start).look (F := Anything) (fun s _ =>
        (parses_bang start (.list t' s) bang).mono fun t'' ht'' => ?_) fun _ _ => trivial)
      fun _ _ he => by cases he
    rw [ht'', TypeRef.placeless, TypeRef.placeless, ht]
  | @nonNull room t span _ hne ih =>
    obtain rfl : bang = false := by
      cases bang with
      | false => rfl
      | true => exact absurd rfl (hbang rfl t span)
    simpa [TypeRef.tokens, TypeRef.placeless, banged] using ih true fun _ => hne

theorem parses_typeRef {t : TypeRef} (h : t.Legible T room) :
    Parses (typeRef room) t.tokens (· ≠ .mark .bang) fun t' => t'.placeless = t.placeless := by
  simpa [banged] using parses_typeRef_bang h false fun hbang => by cases hbang

theorem parses_description (d : Option Description) :
    Parses description (descriptionTokens d) (fun k => ∀ block s, k ≠ .ofText block s)
      fun d' => d'.map Description.placeless = d.map Description.placeless := by
  cases d with
  | none =>
    refine .current ?_
    rintro ⟨kind, span⟩ ⟨k, hk, hkind : kind = k⟩
    subst hkind
    cases kind with
    | string s => exact absurd rfl (hk false s)
    | block s => exact absurd rfl (hk true s)
    | _ => exact .pure rfl
  | some d =>
    refine .current_cons ?_
    rintro ⟨_, span⟩ rfl
    obtain ⟨s, block, _⟩ := d
    cases block <;> exact (parses_advance.before fun _ _ => trivial).map fun _ _ => rfl

/-! ## Fields -/

/-- A row that may be missing starts with its mark, or what follows it comes first. -/
theorem headD_of {F : TokenKind → Prop} {ks : List TokenKind} {k : TokenKind} {m : Mark}
    (h : ks = [] ∨ StartsWith (· = .mark m) ks) (hm : F (.mark m)) (hk : F k) :
    F (ks.headD k) := by
  rcases h with rfl | ⟨k', ks', rfl, rfl⟩
  · exact hk
  · exact hm

theorem headD_ne {ks : List TokenKind} {k : TokenKind} {m m' : Mark}
    (h : ks = [] ∨ StartsWith (· = .mark m) ks) (hm : m ≠ m') (hk : k ≠ .mark m') :
    ks.headD k ≠ .mark m' :=
  headD_of (F := (· ≠ .mark m')) h (fun h => hm (TokenKind.mark.inj h)) hk

theorem directiveTokens_start (ds : List Directive) :
    directiveTokens ds = [] ∨ StartsWith (· = .mark .atSign) (directiveTokens ds) := by
  cases ds with
  | nil => exact Or.inl rfl
  | cons d ds => exact Or.inr ⟨_, _, rfl, rfl⟩

theorem tokensBetween_start (op close : Mark) (rows : List (List TokenKind)) :
    tokensBetween op rows close = [] ∨ StartsWith (· = .mark op) (tokensBetween op rows close) := by
  cases rows with
  | nil => exact Or.inl rfl
  | cons row rows => exact Or.inr ⟨_, _, rfl, rfl⟩

theorem defaultTokens_start (v : Option Value) :
    defaultTokens v = [] ∨ StartsWith (· = .mark .equals) (defaultTokens v) := by
  cases v with
  | none => exact Or.inl rfl
  | some v => exact Or.inr ⟨_, _, rfl, rfl⟩

/-- What can follow a field, an argument definition or an enum value. -/
def AfterField : TokenKind → Prop := Apart [.bang, .equals, .atSign, .parenL]

theorem afterField_of_not_mark {k : TokenKind} (h : ∀ m, k ≠ .mark m) : AfterField k :=
  fun m _ => h m

/-- The last directives of a field. -/
theorem parses_fieldDirectives {ds : List Directive} (h : LegibleDirectives T ds) :
    Parses constDirectives (directiveTokens ds) AfterField
      fun ds' => ds'.map Directive.placeless = ds.map Directive.reread :=
  (parses_constDirectives h).before
    fun _ hk m hm => hk m (List.mem_cons_of_mem _ (List.mem_cons_of_mem _ hm))

/-- What is named, and may be described, starts with no mark. -/
theorem startsWith_described (d : Option Description) (s : String) (ks : List TokenKind) :
    StartsWith (fun k => ∀ m, k ≠ .mark m) (descriptionTokens d ++ .name s :: ks) := by
  cases d with
  | none => exact ⟨_, _, rfl, nofun⟩
  | some d =>
    obtain ⟨_, block, _⟩ := d
    cases block <;> exact ⟨_, _, rfl, nofun⟩

theorem startsWith_field (close : Mark) (d : Option Description) (s : String)
    (ks : List TokenKind) :
    StartsWith (fun k => k ≠ .mark close ∧ AfterField k) (descriptionTokens d ++ .name s :: ks) :=
  (startsWith_described d s ks).mono fun _ hk => ⟨hk close, afterField_of_not_mark hk⟩

theorem parses_inputValue {v : InputValue} (h : v.Legible T) :
    Parses inputValue v.tokens AfterField fun v' => v'.placeless = v.reread := by
  refine (parses_description v.description).bind (fun d hd =>
    (parses_name v.name.text).cons fun n hn =>
      (parses_expectMark .colon).cons fun _ _ => (parses_typeRef h.type).bind (fun t ht =>
        (parses_defaultValue h.default).bind (fun x hx =>
          (parses_fieldDirectives h.directives).map fun ds hds => ?_) ?_) ?_) fun _ _ => nofun
  · simp only [InputValue.stripped, hd, ht, hx, hds, Name.placeless_eq hn]
  · exact fun k hk => headD_ne (directiveTokens_start _) (by decide) (hk _ (by decide))
  · intro k hk
    rw [headD_append]
    exact headD_ne (defaultTokens_start _) (by decide)
      (headD_ne (directiveTokens_start _) (by decide) (hk _ (by decide)))

theorem parses_argumentDefs {vs : List InputValue} (h : ∀ v ∈ vs, v.Legible T) :
    Parses argumentDefs (tokensBetween .parenL (vs.map InputValue.tokens) .parenR)
      (· ≠ .mark .parenL) fun vs' => vs'.map InputValue.placeless = vs.map InputValue.reread :=
  parses_optBetween (fun v hv => parses_inputValue (h v hv))
    (fun _ _ => startsWith_field _ _ _ _) (by unfold AfterField Apart; decide)

theorem parses_field {f : Field} (h : f.Legible T) :
    Parses field f.tokens AfterField fun f' => f'.placeless = f.reread := by
  refine (parses_description f.description).bind (fun d hd =>
    (parses_name f.name.text).cons fun n hn =>
      (parses_argumentDefs h.arguments).bind (fun as has =>
        (parses_expectMark .colon).cons fun _ _ => (parses_typeRef h.type).bind (fun t ht =>
          (parses_fieldDirectives h.directives).map fun ds hds => ?_) ?_) fun _ _ => nofun)
    fun _ _ => nofun
  · simp only [Field.stripped, hd, ht, hds, has, h.default, Name.placeless_eq hn]
    rfl
  · exact fun k hk => headD_ne (directiveTokens_start _) (by decide) (hk _ (by decide))

/-! ## Types -/

/-- What can follow a definition : another one, or the end. -/
structure AfterDefinition (k : TokenKind) : Prop where
  not_mark : ∀ m, k ≠ .mark m
  not_implements : k ≠ .name "implements"

/-- The fields or the values of a type. -/
theorem parses_block {α β γ : Type} {item : Parser α} {row : β → List TokenKind}
    {view : α → γ} {expected : β → γ} {xs : List β}
    (hitem : ∀ x ∈ xs, Parses item (row x) AfterField fun a => view a = expected x)
    (hstart : ∀ x, StartsWith (fun k => k ≠ .mark .braceR ∧ AfterField k) (row x)) :
    Parses (optBetween .braceL item .braceR) (tokensBetween .braceL (xs.map row) .braceR)
      AfterDefinition fun as => as.map view = xs.map expected :=
  (parses_optBetween hitem (fun x _ => hstart x) (by unfold AfterField Apart; decide)).before
    fun _ hk => hk.not_mark _

/-- Names with a mark between any two. -/
theorem parses_names (sep : Mark) {ns : List Name} (hne : ns ≠ []) :
    Parses (separatedBy sep name) (nameTokens sep ns) (· ≠ .mark sep)
      fun ns' => ns'.map Name.placeless = ns.map Name.placeless := by
  obtain ⟨n, ns, rfl⟩ := List.exists_cons_of_ne_nil hne
  exact parses_separatedBy (fun n : Name => [.name n.text])
    (fun n _ => (parses_name n.text).mono fun _ hn => Name.placeless_eq hn)
    fun _ _ => ⟨_, _, rfl, nofun⟩

theorem parses_interfaces (ns : List Name) :
    Parses interfaces (interfaceTokens ns) (fun k => k ≠ .name "implements" ∧ k ≠ .mark .amp)
      fun ns' => ns'.map Name.placeless = ns.map Name.placeless := by
  by_cases hne : ns = []
  · subst hne
    refine ((parses_optKeyword_ne "implements").before fun _ hk => hk.1).bindNil ?_
    rintro _ rfl
    exact .pure rfl
  · rw [interfaceTokens, if_neg (by simpa using hne)]
    refine (parses_optKeyword "implements").cons ?_
    rintro _ rfl
    exact (parses_names .amp hne).before fun _ hk => hk.2

section Types

variable (d : Option Description)

theorem apart_of_not_mark {ms : List Mark} {k : TokenKind} (h : ∀ m, k ≠ .mark m) : Apart ms k :=
  fun m _ => h m

/-- The directives of a type, before its fields, its members or its values. -/
theorem parses_typeDirectives {ds : List Directive} (h : LegibleDirectives T ds) {m : Mark}
    {ks : List TokenKind} (hks : ks = [] ∨ StartsWith (· = .mark m) ks)
    (hm : m ∉ [.atSign, .parenL]) {α : Type} {f : List Directive → Parser α} {P : α → Prop}
    (hf : ∀ ds', ds'.map Directive.placeless = ds.map Directive.reread →
      Parses (f ds') ks AfterDefinition P) :
    Parses (constDirectives >>= f) (directiveTokens ds ++ ks) AfterDefinition P := by
  refine (parses_constDirectives h).bind hf
    fun k hk => headD_of hks ?_ (apart_of_not_mark hk.not_mark)
  rintro m' hm' h
  exact hm (TokenKind.mark.inj h ▸ hm')

theorem parses_objectType {t : ObjectType} (h : t.Legible T) :
    Parses (objectType d) t.tokens AfterDefinition fun t' =>
      t'.placeless = { t.reread with description := d.map Description.placeless } := by
  have hfields := parses_block (fun f hf => parses_field (h.fields f hf))
    fun _ => startsWith_field _ _ _ _
  refine (parses_name t.name.text).cons fun n hn => (parses_interfaces t.interfaces).bind
    (fun is his => parses_typeDirectives h.directives (tokensBetween_start _ _ _) (by decide)
      fun ds hds => hfields.map fun fs hfs => ?_) fun k hk => ?_
  · simp only [ObjectType.stripped, his, hds, hfs, Name.placeless_eq hn]
  · rw [headD_append]
    refine headD_of (F := fun k => k ≠ .name "implements" ∧ k ≠ .mark .amp)
      (directiveTokens_start _) (by decide) ?_
    exact headD_of (F := fun k => k ≠ .name "implements" ∧ k ≠ .mark .amp)
      (tokensBetween_start _ _ _) (by decide) ⟨hk.not_implements, hk.not_mark _⟩

theorem parses_scalarType {t : ScalarType} (h : t.Legible T) :
    Parses (scalarType d) t.tokens AfterDefinition fun t' =>
      t'.placeless = { t.reread with description := d.map Description.placeless } := by
  refine (parses_name t.name.text).cons fun n hn =>
    ((parses_constDirectives h.directives).before fun _ hk => apart_of_not_mark hk.not_mark).map
      fun ds hds => ?_
  simp only [ScalarType.stripped, hds, Name.placeless_eq hn]

theorem memberTokens_start (ns : List Name) :
    memberTokens ns = [] ∨ StartsWith (· = .mark .equals) (memberTokens ns) := by
  cases ns with
  | nil => exact Or.inl rfl
  | cons n ns => exact Or.inr ⟨_, _, rfl, rfl⟩

theorem parses_unionType {t : UnionType} (h : t.Legible T) :
    Parses (unionType d) t.tokens AfterDefinition fun t' =>
      t'.placeless = { t.reread with description := d.map Description.placeless } := by
  refine (parses_name t.name.text).cons fun n hn =>
    parses_typeDirectives h.directives (memberTokens_start _) (by decide) fun ds hds => ?_
  have hunion (ms : List Name) (hms : ms.map Name.placeless = t.members.map Name.placeless) :
      (UnionType.mk d n ds ms).placeless =
        { t.reread with description := d.map Description.placeless } := by
    simp only [UnionType.stripped, hds, hms, Name.placeless_eq hn]
  by_cases hne : t.members = []
  · rw [memberTokens, if_pos (by simpa using hne)]
    refine ((parses_optMark_ne .equals).before fun _ hk => hk.not_mark _).bindNil ?_
    rintro _ rfl
    exact .pure (hunion [] (by rw [hne]))
  · rw [memberTokens, if_neg (by simpa using hne)]
    refine (parses_optMark .equals).cons ?_
    rintro _ rfl
    exact ((parses_names .pipe hne).before fun _ hk => hk.not_mark _).map fun ms hms =>
      hunion ms hms

theorem parses_enumValueName {s : String} (h : s ∉ ["true", "false", "null"]) :
    Parses enumValueName [.name s] Anything fun n => n.text = s := by
  refine .current_cons ?_
  rintro ⟨_, span⟩ rfl
  have hplain : ¬(TokenKind.name s).value?.any (["true", "false", "null"].contains ·) := by
    simpa [TokenKind.value?] using h
  rw [if_neg hplain]
  exact parses_name s

theorem parses_enumValue {v : EnumValue} (h : v.Legible T) :
    Parses enumValue v.tokens AfterField fun v' => v'.placeless = v.reread := by
  refine (parses_description v.description).bind (fun d hd =>
    (parses_enumValueName h.unreserved).cons fun n hn =>
      (parses_fieldDirectives h.directives).map fun ds hds => ?_) fun _ _ => nofun
  simp only [EnumValue.stripped, hd, hds, Name.placeless_eq hn]

theorem parses_enumType {t : EnumType} (h : t.Legible T) :
    Parses (enumType d) t.tokens AfterDefinition fun t' =>
      t'.placeless = { t.reread with description := d.map Description.placeless } := by
  have hvalues := parses_block (fun v hv => parses_enumValue (h.values v hv))
    fun _ => startsWith_field _ _ _ _
  refine (parses_name t.name.text).cons fun n hn =>
    parses_typeDirectives h.directives (tokensBetween_start _ _ _) (by decide) fun ds hds =>
      hvalues.map fun vs hvs => ?_
  simp only [EnumType.stripped, hds, hvs, Name.placeless_eq hn]

theorem parses_inputType {t : InputType} (h : t.Legible T) :
    Parses (inputType d) t.tokens AfterDefinition fun t' =>
      t'.placeless = { t.reread with description := d.map Description.placeless } := by
  have hfields := parses_block (fun v hv => parses_inputValue (h.fields v hv))
    fun _ => startsWith_field _ _ _ _
  refine (parses_name t.name.text).cons fun n hn =>
    parses_typeDirectives h.directives (tokensBetween_start _ _ _) (by decide) fun ds hds =>
      hfields.map fun fs hfs => ?_
  simp only [InputType.stripped, hds, hfs, Name.placeless_eq hn]

end Types

/-- Each kind of types has its parser, which takes the tokens of a type of the kind, and gives the
type with the description that was read before it. -/
theorem parses_typeBody {t : TypeDef} (h : t.Legible T) : ∃ body, typeBody? t.keyword = some body ∧
    ∀ d, Parses (body d) t.tokens AfterDefinition fun t' =>
      t'.placeless = t.reread.withDescription (d.map Description.placeless) := by
  cases t with
  | scalar t =>
    exact ⟨_, rfl, fun d => (parses_scalarType d h).fmap fun _ ht => congrArg TypeDef.scalar ht⟩
  | object t =>
    exact ⟨_, rfl, fun d => (parses_objectType d h).fmap fun _ ht => congrArg TypeDef.object ht⟩
  | interface t =>
    exact ⟨_, rfl, fun d => (parses_objectType d h).fmap fun _ ht => congrArg TypeDef.interface ht⟩
  | union t =>
    exact ⟨_, rfl, fun d => (parses_unionType d h).fmap fun _ ht => congrArg TypeDef.union ht⟩
  | enum t =>
    exact ⟨_, rfl, fun d => (parses_enumType d h).fmap fun _ ht => congrArg TypeDef.enum ht⟩
  | input t =>
    exact ⟨_, rfl, fun d => (parses_inputType d h).fmap fun _ ht => congrArg TypeDef.input ht⟩

end Parser

end RelationApi.Sdl

import RelationApi.Proofs.Schema.Frame
import RelationApi.Proofs.Schema.Places
import RelationApi.Proofs.Schema.Rebuilding

/-!
# Types in two parts

An object type can be written in two parts, a base and an extension, which may stand on either side
of it. If the type has no other extension, then this changes nothing (`augment_split`) : a run over
the two parts fails as the run over the whole type does, or gives the same document up to places,
which is printed as the same text.

Sorting a document puts the parts together (`sorted_split`), and from then on a run is about the
same types. The document that is put together at the end has the whole type where the base stood,
and the extension is gone (`rebuild_split`).
-/

namespace RelationApi.Schema

open Sdl

/-- Where `d` has an object type, `d'` has the base `t`, and anywhere else the extension `e`. The
type in `d` has the parts of `e` behind those of `t`, and it has no extension. -/
structure Split (t e : ObjectType) (d d' : Document) : Prop where
  name_eq : e.name.text = t.name.text
  unextended : ∀ e', .typeExtension (.object e') ∈ d.definitions → e'.name.text ≠ t.name.text
  places : ∃ before after front back : List Definition,
    d.definitions = before ++ .typeDef (.object { t with
      interfaces := t.interfaces ++ e.interfaces
      directives := t.directives ++ e.directives
      fields := t.fields ++ e.fields }) :: after ∧
    before ++ .typeDef (.object t) :: after = front ++ back ∧
    d'.definitions = front ++ .typeExtension (.object e) :: back

namespace Split

variable {t e : ObjectType} {d d' : Document}

/-- The whole type is the base with the extension folded into it. -/
theorem mem_whole (h : Split t e d d') : .typeDef (.object (t.merge e)) ∈ d.definitions := by
  obtain ⟨before, after, -, -, hd, -⟩ := h.places
  rw [hd]
  exact List.mem_append_right _ List.mem_cons_self

/-! ## What is gathered from the definitions -/

/-- The same is gathered from `d'` if the extension gives nothing, the base what the whole type
gives, and all else what it gave. -/
theorem filterMap_eq {β : Type} (hn : DistinctNames d) (h : Split t e d d')
    {f f' : Definition → Option β} (hext : f' (.typeExtension (.object e)) = none)
    (hbase : f' (.typeDef (.object t)) = f (.typeDef (.object (t.merge e))))
    (hother : ∀ definition,
      (∀ o, definition = .typeDef (.object o) → o.name.text ≠ t.name.text) →
        f' definition = f definition) :
    d'.definitions.filterMap f' = d.definitions.filterMap f := by
  obtain ⟨before, after, front, back, hd, hplace, hd'⟩ := h.places
  -- No other type has the name of the one in two parts, so `hother` is about all that is left.
  have hrest : ∀ definition ∈ before ++ after, f' definition = f definition := by
    refine fun definition hmem => hother definition ?_
    rintro o rfl
    exact hn.name_ne hd hmem
  have hbefore : before.filterMap f' = before.filterMap f :=
    List.filterMap_congr fun x hx => hrest x (List.mem_append_left _ hx)
  have hafter : after.filterMap f' = after.filterMap f :=
    List.filterMap_congr fun x hx => hrest x (List.mem_append_right _ hx)
  calc d'.definitions.filterMap f'
      = (front ++ back).filterMap f' := by
        rw [hd', List.filterMap_append, List.filterMap_cons_none hext, List.filterMap_append]
    _ = (before ++ .typeDef (.object (t.merge e)) :: after).filterMap f := by
        rw [← hplace, List.filterMap_append, List.filterMap_append, List.filterMap_cons,
          List.filterMap_cons, hbase, hbefore, hafter]
    _ = d.definitions.filterMap f := by
        rw [hd]
        rfl

theorem rootNames_eq (hn : DistinctNames d) (h : Split t e d d') : rootNames d' = rootNames d := by
  rw [Schema.rootNames_eq, Schema.rootNames_eq, h.filterMap_eq hn rfl rfl fun _ _ => rfl]

theorem definedObjects_eq (hn : DistinctNames d) (h : Split t e d d') :
    definedObjects d' = definedObjects d :=
  h.filterMap_eq hn rfl rfl fun _ _ => rfl

theorem extensionsOf_whole (h : Split t e d d') : extensionsOf d t.name.text = [] := by
  refine List.eq_nil_iff_forall_not_mem.2 fun e' he' => ?_
  obtain ⟨hmem, hname⟩ := mem_extensionsOf_iff.1 he'
  exact h.unextended e' hmem hname

theorem extensionsOf_of_ne (hn : DistinctNames d) (h : Split t e d d') {n : String}
    (hne : n ≠ t.name.text) : extensionsOf d' n = extensionsOf d n := by
  refine h.filterMap_eq hn ?_ rfl fun _ _ => rfl
  have hname : e.name.text ≠ n := fun he => hne (he ▸ h.name_eq)
  simp [Definition.objectExtension?, hname]

/-- The base has one extension. -/
theorem extensionsOf_base (h : Split t e d d') : extensionsOf d' t.name.text = [e] := by
  obtain ⟨before, after, front, back, hd, hplace, hd'⟩ := h.places
  have hnone : extensionsOf ⟨front ++ back⟩ t.name.text = [] := by
    rw [← h.extensionsOf_whole, ← hplace, extensionsOf, extensionsOf, hd, List.filterMap_append,
      List.filterMap_append]
    rfl
  rw [extensionsOf, List.filterMap_append, List.append_eq_nil_iff] at hnone
  have hsome : (Definition.objectExtension? (.typeExtension (.object e))).filter
      (fun e' => e'.name.text = t.name.text) = some e :=
    Option.filter_some_pos (by simp [h.name_eq])
  rw [extensionsOf, hd', List.filterMap_append, hnone.1, List.nil_append, List.filterMap_cons,
    hsome, hnone.2]

/-! ## Sorting -/

theorem extended_base (h : Split t e d d') : extended d' t = t.merge e := by
  rw [extended, h.extensionsOf_base]
  rfl

theorem extended_whole (h : Split t e d d') : extended d (t.merge e) = t.merge e :=
  extended_of_eq_nil d h.extensionsOf_whole

theorem extended_of_ne (hn : DistinctNames d) (h : Split t e d d') {o : ObjectType}
    (hne : o.name.text ≠ t.name.text) : extended d' o = extended d o := by
  rw [extended, extended, h.extensionsOf_of_ne hn hne]

end Split

open Split

variable {t e : ObjectType} {d d' : Document}

/-- Sorting puts the two parts together. -/
theorem sorted_split (hn : DistinctNames d) (h : Split t e d d') : sorted d' = sorted d := by
  have hroots := h.rootNames_eq hn
  have hdefined : d'.definitions.filterMap (asDefined? d') =
      d.definitions.filterMap (asDefined? d) := by
    refine h.filterMap_eq hn rfl ?_ fun _ hne =>
      asDefined?_congr hroots fun o ho => h.extended_of_ne hn (hne o ho)
    rw [asDefined?, asDefined?, hroots, h.extended_base, h.extended_whole]
    rfl
  have hroot : d'.definitions.filterMap (asRoot? d') = d.definitions.filterMap (asRoot? d) := by
    refine h.filterMap_eq hn rfl ?_ fun _ hne =>
      asRoot?_congr hroots fun o ho => h.extended_of_ne hn (hne o ho)
    rw [asRoot?, asRoot?, hroots, h.extended_base, h.extended_whole]
    rfl
  rw [sorted, sorted, hdefined, hroot]

/-! ## Putting together -/

theorem rebuilt_extension (hn : DistinctNames d) (h : Split t e d d') (types : Types) :
    rebuilt d' types (.typeExtension (.object e)) = none := by
  have hdefined : e.name.text ∈ definedObjects d :=
    mem_definedObjects_iff.2 ⟨_, h.mem_whole, h.name_eq.symm⟩
  rw [rebuilt, h.definedObjects_eq hn, if_pos (List.contains_iff_mem.2 hdefined)]

/-- The same type comes in the place of the base as in that of the whole type. -/
theorem rebuilt_base (hn : DistinctNames d) (h : Split t e d d')
    {resolved : Except SettingsFault Settings} {types : Types}
    (htypes : (augmentedTypes d resolved).result = .ok types) :
    rebuilt d' types (.typeDef (.object t)) =
      rebuilt d types (.typeDef (.object (t.merge e))) := by
  have hfound := found_of_mem h.mem_whole htypes
  have hname : (t.merge e).name = t.name := rfl
  rw [hname] at hfound
  rw [rebuilt, rebuilt, h.rootNames_eq hn, hname]
  cases hroot : ((rootNames d).find? t.name.text).bind types.roots.find? with
  | some root => rfl
  | none =>
    -- The definition itself, which is the base here and the whole type there, is never needed.
    obtain ⟨-, u, hu, -⟩ := hfound hroot
    rw [hu]
    rfl

/-- The extension is dropped, and the whole type stands where the base did. -/
theorem rebuild_split (hn : DistinctNames d) (h : Split t e d d')
    {resolved : Except SettingsFault Settings} {types : Types}
    (htypes : (augmentedTypes d resolved).result = .ok types) :
    rebuild d' types = rebuild d types := by
  have hother : ∀ definition, rebuilt d' types definition = rebuilt d types definition := by
    intro definition
    unfold rebuilt
    rw [h.rootNames_eq hn, h.definedObjects_eq hn]
  rw [rebuild, rebuild, h.filterMap_eq hn (rebuilt_extension hn h types)
    (rebuilt_base hn h htypes) fun x _ => hother x]

/-! ## A whole run -/

theorem result_augment_split (hn : DistinctNames d) (h : Split t e d d')
    (resolved : Except SettingsFault Settings) :
    (augment d' resolved).result = (augment d resolved).result := by
  have htypes : (augmentedTypes d' resolved).result = (augmentedTypes d resolved).result :=
    result_augmentedTypes_of_sorted_eq (sorted_split hn h)
  cases hrun : (augment d resolved).result with
  | error fault =>
    rw [augment_eq_error_iff, htypes]
    exact augment_eq_error_iff.1 hrun
  | ok out =>
    obtain ⟨types, hok, rfl⟩ := augment_eq_ok_iff.1 hrun
    exact augment_eq_ok_iff.2 ⟨types, htypes.trans hok, (rebuild_split hn h hok).symm⟩

theorem DistinctNames.placeless (hn : DistinctNames d) : DistinctNames d.placeless := by
  have hnames : TypeDef.name ∘ TypeDef.placeless = TypeDef.name :=
    funext (TypeDef.name_stripped id)
  rwa [DistinctNames, filterMap_type?_placeless, List.map_map, hnames]

/-- Two parts are as good as one type. If, up to places, `d'` has an object type of `d` in two
parts, then a run fails on both with the same fault, or gives the same document for both up to
places, and so the same text. -/
theorem augment_split (hn : DistinctNames d) (h : Split t e d.placeless d'.placeless)
    (resolved : Except SettingsFault Settings) :
    (∃ fault, (augment d resolved).result = .error fault ∧
      (augment d' resolved).result = .error fault) ∨
    ∃ out out', (augment d resolved).result = .ok out ∧ (augment d' resolved).result = .ok out' ∧
      out'.print = out.print ∧ out'.placeless = out.placeless := by
  have hresult := result_augment_split hn.placeless h resolved
  rw [augment_placeless, augment_placeless] at hresult
  cases hrun : (augment d resolved).result with
  | error fault =>
    rw [hrun] at hresult
    exact Or.inl ⟨fault, rfl, except_map_eq_error_iff.1 hresult⟩
  | ok out =>
    rw [hrun] at hresult
    obtain ⟨out', hrun', hout⟩ := except_map_eq_ok_iff.1 hresult
    refine Or.inr ⟨out, out', rfl, hrun', ?_, hout⟩
    rw [← out'.print_placeless, hout, out.print_placeless]

/-- An extension in front of its base, at places of its own. It makes the type a relationship type
and has one of the two fields that such a type needs. -/
theorem augment_split_relationshipType :
    let field (name type : String) : Field := { name := { text := name }, type := .ofName type }
    let object (name : Name) (ds : List Directive) (fs : List Field) : ObjectType :=
      { name := name, directives := ds, fields := fs }
    let likes (start : Nat) : Name := { text := "Likes", span := some ⟨start, start + 5⟩ }
    let relation : Directive :=
      (Binding.mk ⟨.text "LIKES", .missing, .missing⟩ .missing).toDirective
    let rest : List Definition := [
      .typeDef (.object (object { text := "Mutation" } [] [])),
      .typeDef (.object (object { text := "Person" } [] [field "liked" "Likes"]))]
    let d : Document := ⟨rest ++ [
      .typeDef (.object (object (likes 53) [relation]
        [field "from" "Person", field "to" "Person"]))]⟩
    let d' : Document := ⟨
      .typeExtension (.object (object (likes 12) [relation] [field "to" "Person"])) :: rest ++ [
      .typeDef (.object (object (likes 108) [] [field "from" "Person"]))]⟩
    DistinctNames d ∧ (∃ t e, Split t e d.placeless d'.placeless) ∧
      ∃ out out', (augment d (.ok {})).result = .ok out ∧
        (augment d' (.ok {})).result = .ok out' ∧
        out.definitions.filterMap Definition.name? = ["Mutation", "Person", "Likes",
          "_AddPersonLikedPayload", "_RemovePersonLikedPayload"] ∧
        out'.print = out.print ∧ out'.placeless = out.placeless := by
  intro field object likes relation rest d d'
  have hn : DistinctNames d := by decide
  let t : ObjectType := object { text := "Likes" } [] [field "from" "Person"]
  let e : ObjectType := object { text := "Likes" } [relation] [field "to" "Person"]
  have hunextended : ∀ e', .typeExtension (.object e') ∈ d.placeless.definitions →
      e'.name.text ≠ t.name.text := by
    simp [d, rest, Document.stripped, Definition.stripped, TypeDef.stripped]
  have hsplit : Split t e d.placeless d'.placeless :=
    ⟨rfl, hunextended, rest, [], [], rest ++ [.typeDef (.object t)], rfl, rfl, rfl⟩
  have hrun : ∃ out, (augment d (.ok {})).result = .ok out ∧
      out.definitions.filterMap Definition.name? = ["Mutation", "Person", "Likes",
        "_AddPersonLikedPayload", "_RemovePersonLikedPayload"] := by
    decide
  obtain ⟨out, hout, hnames⟩ := hrun
  refine ⟨hn, ⟨t, e, hsplit⟩, ?_⟩
  rcases augment_split hn hsplit (.ok {}) with ⟨fault, hfault, -⟩ | ⟨out₁, out', h₁, h', hsame⟩
  · rw [hout] at hfault
    cases hfault
  · obtain rfl : out₁ = out := Except.ok.inj (h₁.symm.trans hout)
    exact ⟨out₁, out', h₁, h', hnames, hsame⟩

end RelationApi.Schema

import RelationApi.Proofs.Schema.Idempotence
import RelationApi.Proofs.Schema.Output
import RelationApi.Proofs.Schema.Places
import RelationApi.Proofs.Sdl.LineEnds
import RelationApi.Proofs.Sdl.Reread

/-!
# Running on the output

The text of a run can be the input of another one. What is read from it differs from the new
document in the names of relationships : an attribute that was a flag has become a text
(`Mutation.asText`). So the second run starts with the types that the first one would have had for
relationships with such names (`Schema.reread_rebuild`). It finds the relationships of the first run
and adds nothing, since the mutations have the same names (`Schema.augment_rebuild_offers`).

So the output of a run over a type system without block strings that mentions no generated type is
the output of the next run too (`Schema.augmentText_fixed`).
-/

namespace RelationApi

open Sdl

/-! ## What is made for a mutation -/

theorem Scalar.isGiven_display {s : Scalar} (h : s.isGiven) : (Scalar.text s.display).isGiven := by
  cases s with
  | text t => exact h
  | flag b => cases b <;> rfl
  | missing => rfl

/-- A field of which reading back changes nothing, without its arguments. -/
theorem Sdl.Field.reread_withoutArguments {f : Field} (h : f.reread = f.placeless) :
    f.withoutArguments.reread = f.withoutArguments.placeless :=
  congrArg Field.withoutArguments h

namespace Relationship

variable (r : Relationship)

/-- The relationship with a text for its name. -/
def asText : Relationship := { r with name := .text r.name.display }

theorem reread_mutationField (s : Settings) (a : Action) (n : String) :
    (r.mutationField s a n).reread = (r.asText.mutationField s a n).placeless := by
  have harguments : (r.arguments a).map InputValue.reread =
      (r.arguments a).map InputValue.placeless := by
    unfold arguments
    cases a with
    | create => cases r.outputs.isEmpty <;> rfl
    | delete => rfl
  have hdirectives : (r.directives s a).map Directive.reread =
      (r.asText.directives s a).map Directive.placeless := by
    unfold directives
    split_ifs <;> rfl
  rw [mutationField, Field.reread, Field.stripped]
  dsimp only
  rw [harguments, hdirectives]
  rfl

/-- The fields for the properties are read back as they are, if the properties are. -/
theorem reread_payloadProperties (h : ∀ f ∈ r.outputs, f.reread = f.placeless) :
    r.payloadProperties.map Field.reread = r.payloadProperties.map Field.placeless := by
  refine List.map_congr_left (List.forall_mem_map.2 fun f hf => ?_)
  split_ifs
  · exact Field.reread_withoutArguments (h f hf)
  · exact h f hf

theorem reread_payloadType (h : ∀ f ∈ r.outputs, f.reread = f.placeless) (a : Action)
    (n : String) : (r.payloadType a n).reread = (r.asText.payloadType a n).placeless := by
  have hoptional (name text : String) :
      (Binding.optional (textArgument name (.text text)) (.text text)).map Argument.reread =
        (Binding.optional (textArgument name (.text text)) (.text text)).map
          Argument.placeless := by
    unfold Binding.optional
    split_ifs <;> rfl
  have hdirective : [(Binding.mk r.link .missing).toDirective].map Directive.reread =
      [(Binding.mk r.asText.link .missing).toDirective].map Directive.placeless := by
    rw [List.map_singleton, List.map_singleton, List.singleton_inj]
    unfold Binding.toDirective Directive.reread Directive.placeless Directive.stripped link asText
    dsimp only
    rw [List.map_append, List.map_append, List.map_append, List.map_append, List.map_cons,
      List.map_cons, hoptional, hoptional]
    rfl
  unfold payloadType ObjectType.reread ObjectType.placeless ObjectType.stripped
  cases a with
  | create =>
    dsimp only
    rw [hdirective, List.map_append, reread_payloadProperties r h]
    rfl
  | delete =>
    dsimp only
    rw [hdirective]
    rfl

theorem reread_generatedTypes (h : ∀ f ∈ r.outputs, f.reread = f.placeless) (a : Action)
    (n : String) : (r.generatedTypes a n).map TypeDef.reread =
      (r.asText.generatedTypes a n).map TypeDef.placeless := by
  have hpayload : (TypeDef.object (r.payloadType a n)).reread =
      (TypeDef.object (r.asText.payloadType a n)).placeless :=
    congrArg TypeDef.object (r.reread_payloadType h a n)
  have hinput : ∀ t ∈ (r.inputType?.map TypeDef.input).toList, t.reread = t.placeless := by
    intro t ht
    obtain ⟨i, hi, rfl⟩ := Option.map_eq_some_iff.1 (Option.mem_toList.1 ht)
    obtain ⟨-, rfl⟩ := inputType?_eq_some_iff.1 hi
    rw [TypeDef.reread, TypeDef.placeless, TypeDef.stripped, TypeDef.stripped,
      InputType.stripped, InputType.stripped, List.map_map, List.map_map]
    rfl
  unfold generatedTypes
  rw [List.map_append, List.map_append, List.map_singleton, List.map_singleton, hpayload]
  cases a with
  | create => exact congrArg (· ++ _) (List.map_congr_left hinput)
  | delete => rfl

end Relationship

namespace Mutation

/-- The mutation of a relationship with a text for its name. -/
def asText (m : Mutation) : Mutation := { m with relationship := m.relationship.asText }

variable {m : Mutation} (h : ∀ f ∈ m.relationship.outputs, f.reread = f.placeless)
include h

/-- What a mutation generates is read back as what is generated for a relationship with a text for
its name. -/
theorem reread_generated :
    m.asText.placeless.generated = m.generated.map (Prod.map id Definition.reread) := by
  have htypes : m.asText.placeless.relationship.generatedTypes m.action m.name =
      (m.relationship.generatedTypes m.action m.name).map TypeDef.reread :=
    (m.asText.relationship.generatedTypes_placeless m.action m.name).trans
      (m.relationship.reread_generatedTypes h m.action m.name).symm
  exact (congrArg (List.map _) htypes).trans (entries_stripped .asText _)

end Mutation

namespace Schema

/-! ## Types -/

namespace Types

/-- The types as they are read back. -/
abbrev reread (t : Types) : Types := t.stripped .asText

/-- What is offered comes back as the offer of a relationship with a text for its name. -/
theorem reread_offer (s : Settings) (t : Types) {m : Mutation}
    (h : ∀ f ∈ m.relationship.outputs, f.reread = f.placeless) :
    (t.offer s m).reread = t.reread.offer s m.asText.placeless := by
  have hfield : m.asText.placeless.field s = (m.field s).reread :=
    (m.asText.relationship.mutationField_placeless s m.action m.name).trans
      (m.relationship.reread_mutationField s m.action m.name).symm
  exact (offer_stripped s t (Mutation.reread_generated h) hfield rfl).symm

theorem reread_foldl_offer (s : Settings) {ms : List Mutation}
    (h : ∀ m ∈ ms, ∀ f ∈ m.relationship.outputs, f.reread = f.placeless) {t t₀ : Types}
    (ht : t.reread = t₀.placeless) : (ms.foldl (offer s) t).reread =
      ((ms.map Mutation.asText).foldl (offer s) t₀).placeless := by
  rw [← foldl_offer_placeless, List.map_map, ← ht]
  -- By now only the types as they are read back are left, and each offer keeps to these.
  clear ht
  induction ms generalizing t with
  | nil => rfl
  | cons m ms ih =>
    rw [List.forall_mem_cons] at h
    rw [List.foldl_cons, ih h.2, reread_offer s t h.1]
    rfl

end Types

variable {d : Document} (hd : d.reread = d.placeless)
include hd

/-- The parts of a type and of its extensions are read back as they are, apart from places. -/
theorem reread_extended {t : ObjectType} (ht : .typeDef (.object t) ∈ d.definitions) :
    (extended d t).reread = (extended d t).placeless := by
  have ht' : t.reread = t.placeless :=
    TypeDef.object.inj (Definition.typeDef.inj (Document.reread_of_mem hd _ ht))
  have hextensions : (extensionsOf d t.name.text).map ObjectType.reread =
      (extensionsOf d t.name.text).map ObjectType.placeless :=
    List.map_congr_left fun e he => TypeDef.object.inj (Definition.typeExtension.inj
      (Document.reread_of_mem hd _ (mem_extensionsOf_iff.1 he).1))
  calc (extended d t).reread
      = ((extensionsOf d t.name.text).map ObjectType.reread).foldl ObjectType.merge t.reread := by
        rw [List.foldl_map]
        exact (List.foldl_hom ObjectType.reread (ObjectType.merge_stripped .asText)).symm
    _ = ((extensionsOf d t.name.text).map ObjectType.placeless).foldl ObjectType.merge
          t.placeless := by rw [hextensions, ht']
    _ = (extended d t).placeless := by
        rw [List.foldl_map]
        exact List.foldl_hom ObjectType.placeless (ObjectType.merge_stripped id)

theorem reread_sorted : (sorted d).reread = (sorted d).placeless := by
  have hdefined : (sorted d).defined.map TypeDef.reread =
      (sorted d).defined.map TypeDef.placeless := by
    refine Registry.map_congr fun n t ht => ?_
    obtain ⟨u, hu, -, ⟨o, rfl, -, rfl⟩ | ⟨-, rfl⟩⟩ := mem_of_find?_defined ht
    · exact congrArg TypeDef.object (reread_extended hd hu)
    · exact Definition.typeDef.inj (Document.reread_of_mem hd _ hu)
  have hroots : (sorted d).roots.map ObjectType.reread =
      (sorted d).roots.map ObjectType.placeless := by
    refine Registry.map_congr fun k root hroot => ?_
    obtain ⟨t, ht, -, rfl⟩ := mem_of_find?_roots hroot
    exact reread_extended hd ht
  rw [Types.reread, Types.placeless, Types.stripped, Types.stripped, hdefined, hroots]
  rfl

/-- The properties of what is found are fields of the document. -/
theorem reread_outputs_of_mem_collect {found : List Relationship}
    (hfound : Relationship.collect (sorted d).defined = .ok found) {r : Relationship}
    (hr : r ∈ found) : ∀ f ∈ r.outputs, f.reread = f.placeless := by
  obtain ⟨t, f, hsite⟩ := Relationship.exists_site_of_mem_collect (keptByName_defined d) hfound hr
  cases hsite.leads with
  | @type o q hfind hq =>
    obtain ⟨_, -, -, _, -, _, -, rfl⟩ := RelationshipType.of?_eq_some_iff.1 hq
    obtain ⟨u, hu, rfl⟩ := exists_extended_of_find?_defined hfind
    have hfields : (extended d u).fields.map Field.reread =
        (extended d u).fields.map Field.placeless :=
      congrArg ObjectType.fields (reread_extended hd hu)
    exact fun g hg => List.map_inj_left.1 hfields g (List.mem_of_mem_filter hg)
  | field _ _ _ hr =>
    obtain ⟨-, _, -, rfl⟩ := Relationship.throughField_eq_ok_iff.1 hr
    nofun

/-- What takes the place of a definition is read back as the types are. -/
theorem reread_rebuilt {types types₀ : Types} (htypes : types.reread = types₀.placeless)
    {x : Definition} (hx : x ∈ d.definitions) :
    (rebuilt d types x).map Definition.reread = (rebuilt d types₀ x).map Definition.placeless := by
  have hx' := Document.reread_of_mem hd x hx
  unfold rebuilt
  split
  · next t =>
    have hroot : (((rootNames d).find? t.name.text).bind types.roots.find?).map
        ObjectType.reread =
          (((rootNames d).find? t.name.text).bind types₀.roots.find?).map
            ObjectType.placeless := by
      rw [Option.map_bind, Option.map_bind]
      refine congrArg (Option.bind _) (funext fun k => ?_)
      rw [Function.comp_apply, Function.comp_apply, ← Registry.find?_map, ← Registry.find?_map]
      exact congrArg (fun types : Types => types.roots.find? k) htypes
    have hdefined : (types.defined.find? t.name.text).map TypeDef.reread =
        (types₀.defined.find? t.name.text).map TypeDef.placeless := by
      rw [← Registry.find?_map, ← Registry.find?_map]
      exact congrArg (fun types : Types => types.defined.find? t.name.text) htypes
    generalize ((rootNames d).find? t.name.text).bind types.roots.find? = root at hroot
    generalize ((rootNames d).find? t.name.text).bind types₀.roots.find? = root₀ at hroot
    cases root with
    | some root =>
      obtain ⟨root₀, rfl, hsame⟩ := Option.map_eq_some_iff.1 hroot.symm
      change some (Definition.typeDef (.object root.reread)) =
        some (Definition.typeDef (.object root₀.placeless))
      rw [hsame]
    | none =>
      obtain rfl := Option.map_eq_none_iff.1 hroot.symm
      have ht : (TypeDef.object t).reread = (TypeDef.object t).placeless :=
        Definition.typeDef.inj hx'
      have hkept : ((types.defined.find? t.name.text).getD (.object t)).reread =
          ((types₀.defined.find? t.name.text).getD (.object t)).placeless := by
        rw [← Option.getD_map TypeDef.reread, ← Option.getD_map TypeDef.placeless, hdefined, ht]
      exact congrArg (some ∘ Definition.typeDef) hkept
  · split_ifs
    · rfl
    · exact congrArg some hx'
  · exact congrArg some hx'

theorem reread_rebuild {types types₀ : Types} (htypes : types.reread = types₀.placeless) :
    (rebuild d types).reread = (rebuild d types₀).placeless := by
  have hgenerated : types.generated.values.map Definition.reread =
      types₀.generated.values.map Definition.placeless := by
    rw [← Registry.values_map, ← Registry.values_map]
    exact congrArg (fun types : Types => types.generated.values) htypes
  rw [rebuild, rebuild, Document.reread, Document.placeless, Document.stripped, Document.stripped,
    List.map_append, List.map_append, List.map_filterMap, List.map_filterMap, hgenerated]
  exact congrArg (fun ds => Document.mk (ds ++ _))
    (List.filterMap_congr fun x hx => reread_rebuilt hd htypes hx)

omit hd

/-! ## The second run -/

/-- Whatever was offered to the types of a document, for relationships with names, a run over the
new document offers the mutations that it finds in the old one. If the root has fields for them, the
run adds nothing. -/
theorem augment_rebuild_offers {s : Settings} {found : List Relationship} {ms : List Mutation}
    (hfound : Relationship.collect (sorted d).defined = .ok found)
    (hadd : ((sorted d).roots.find? .mutation).isSome → ∀ r ∈ found, s.CanAdd r)
    (hnames : ∀ m ∈ ms, m.relationship.name.isGiven)
    (hms : ∀ m ∈ s.offers found, m.name ∈ ms.map Mutation.name)
    (hnew : ∀ n ∈ (ms.foldl (Types.offer s) (sorted d)).generated.keys, n ∉ d.typeNames) :
    (augment (rebuild d (ms.foldl (Types.offer s) (sorted d))) (.ok s)).result =
      .ok (rebuild d (ms.foldl (Types.offer s) (sorted d))) := by
  have hextends := Types.extends_foldl_offer hnew
  have hfound' := collect_rebuild hextends fun t ht => Types.exists_of?_of_mem_added hnames ht
  rw [hfound] at hfound'
  refine augment_eq_ok_iff.2 ⟨_, augmentedTypes_eq_ok_iff.2
    ⟨s, found, rfl, hfound', fun hroot => hadd ?_, ?_⟩, hextends.rebuild_rebuild.symm⟩
  · rwa [hextends.find?_roots_rebuild, Types.isSome_roots_foldl_offer] at hroot
  · refine (Types.foldl_offer_of_mem s _ fun root hroot m hm => ?_).symm
    rw [hextends.find?_roots_rebuild] at hroot
    obtain ⟨m', hm', hname⟩ := List.mem_map.1 (hms m hm)
    exact hname ▸ Types.name_mem_fieldNames_foldl_offer s _ _ hroot m' hm'

/-- The new document is read back as one that a run does not change, if it has no other strings than
texts, and mentions no type that was generated. -/
theorem exists_fixed_of_reread (hd : d.reread = d.placeless)
    {resolved : Except SettingsFault Settings} {types : Types}
    (htypes : (augmentedTypes d resolved).result = .ok types)
    (hnew : ∀ n ∈ types.generated.keys, n ∉ d.typeNames) :
    ∃ d₀, (rebuild d types).reread = d₀.placeless ∧ (augment d₀ resolved).result = .ok d₀ := by
  obtain ⟨s, found, rfl, hfound, hadd, rfl⟩ := augmentedTypes_eq_ok_iff.1 htypes
  have houtputs : ∀ m ∈ s.offers found, ∀ f ∈ m.relationship.outputs, f.reread = f.placeless :=
    fun m hm => reread_outputs_of_mem_collect hd hfound (s.relationship_mem_of_mem_offers hm)
  have hreread := Types.reread_foldl_offer s houtputs (reread_sorted hd)
  refine ⟨_, reread_rebuild hd hreread, augment_rebuild_offers hfound hadd ?_ ?_ ?_⟩
  · exact List.forall_mem_map.2 fun m hm => Scalar.isGiven_display
      (Relationship.isGiven_of_mem_collect hfound (s.relationship_mem_of_mem_offers hm))
  · intro m hm
    rw [List.map_map]
    exact List.mem_map.2 ⟨m, hm, rfl⟩
  · -- The generated types have the same names, whatever the relationships are called.
    have hkeys := congrArg (fun types : Types => types.generated.keys) hreread
    simp only [Types.stripped, Registry.keys_map] at hkeys
    rwa [← hkeys]

/-! ## Texts -/

/-- A text is augmented to the text of what its definitions are augmented to. -/
theorem augmentText_eq_ok_iff {text out : String} {resolved : Except SettingsFault Settings} :
    (augmentText text resolved).result = .ok out ↔ ∃ d d', Document.parse text = .ok d ∧
      (augment d resolved).result = .ok d' ∧ d'.print = out := by
  have hread (d : Document) : read text = .ok d ↔ Document.parse text = .ok d :=
    mapError_eq_ok_iff
  rw [augmentText, Run.result_bind_eq_ok_iff]
  simp only [Run.result_ofExcept, Run.result_bind_eq_ok_iff, Run.result_pure, Except.ok.injEq,
    hread, exists_and_left]

/-- The output for a type system without block strings is the output for itself, if the input
mentions no type that was generated. Line ends may have been unified in between. -/
theorem augmentText_fixed {text out : String} {resolved : Except SettingsFault Settings}
    (hparse : Document.parse text = .ok d) (hsystem : ∀ x ∈ d.definitions, x.isTypeSystem)
    (hblock : ∀ t ∈ Token.ofString text, ∀ s, t.kind ≠ .block s)
    (hnew : ∀ types, (augmentedTypes d resolved).result = .ok types →
      ∀ n ∈ types.generated.keys, n ∉ d.typeNames)
    (h : (augmentText text resolved).result = .ok out) :
    (augmentText (Text.unifyLineEnds out) resolved).result = .ok out := by
  obtain ⟨_, _, hparse', hrun, rfl⟩ := augmentText_eq_ok_iff.1 h
  obtain rfl := Except.ok.inj (hparse.symm.trans hparse')
  obtain ⟨types, htypes, rfl⟩ := augment_eq_ok_iff.1 hrun
  have hlegible : d.Legible TokenKind.Plain := Document.legible_of_parse hparse plain_finish
    fun t ht => ⟨Token.legible_of_mem_ofChars ht, hblock t ht⟩
  have hlegible' := legible_rebuild (legible_augmentedTypes hlegible htypes)
    fun x hx => ⟨hlegible x hx, hsystem x hx⟩
  -- What is read from the output is, up to places, a document that a run does not change.
  obtain ⟨d', hd', hplaceless⟩ := Document.Legible.parse_unifyLineEnds
    (fun x hx => (hlegible' x hx).1) (fun x hx => (hlegible' x hx).2)
    (rebuild_ne_nil (Document.definitions_ne_nil_of_parse hparse) types)
  obtain ⟨d₀, hreread, hfixed⟩ :=
    exists_fixed_of_reread (Document.reread_of_parse hparse hsystem) htypes (hnew types htypes)
  obtain ⟨out, hout, hsame⟩ := exists_augment_of_placeless_eq (hplaceless.trans hreread) hfixed
  refine augmentText_eq_ok_iff.2 ⟨d', out, hd', hout, ?_⟩
  rw [← out.print_placeless, hsame, ← hreread, Document.print_reread]

end Schema

end RelationApi

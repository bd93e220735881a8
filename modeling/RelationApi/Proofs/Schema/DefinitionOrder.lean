import Mathlib.Data.List.Flatten
import RelationApi.Proofs.Schema.Frame
import RelationApi.Proofs.Schema.Permanence
import RelationApi.Proofs.Schema.Rebuilding

/-!
# The order of definitions

A run goes through the types of a document one after the other, and what it adds comes in the order
in which the relationships are found. The order of the definitions decides on nothing else, as long
as the type definitions have different names, no operation gets two roots, and the extensions of
each type keep their order (`Reordered`). The sorted types are the same by name
(`find?_roots_reordered`, `entries_defined_reordered`), so the same relationships are found
(`Relationship.collect_perm`). If all mutations have different names, none of them takes the place
of another, and the root takes the same ones (`Mutation.accepted_perm`).

`augment_reordered` puts this together for a whole run.
-/

namespace RelationApi

open Sdl

/-! ## Rows in another order -/

section Rows

variable {ε α β : Type}

/-- Where at most one member of a row can be found, the order of the row does not matter. -/
theorem find?_eq_of_mem_iff {p : α → Bool} {as as' : List α} (hmem : ∀ a, a ∈ as' ↔ a ∈ as)
    (hone : ∀ a ∈ as, ∀ b ∈ as, p a → p b → a = b) : as'.find? p = as.find? p := by
  cases h : as.find? p with
  | none =>
    rw [List.find?_eq_none] at h ⊢
    exact fun a ha => h a ((hmem a).1 ha)
  | some a =>
    have ha := List.mem_of_find?_eq_some h
    have hsome : (as'.find? p).isSome :=
      List.find?_isSome.2 ⟨a, (hmem a).2 ha, List.find?_some h⟩
    obtain ⟨b, hb⟩ := Option.isSome_iff_exists.1 hsome
    have hbmem : b ∈ as := (hmem b).1 (List.mem_of_find?_eq_some hb)
    rw [hb, hone a ha b hbmem (List.find?_some h) (List.find?_some hb)]

/-- A loop that succeeds does so in any order, and finds the same. -/
theorem flatMapM_perm {f : α → Except ε (List β)} {as as' : List α} (h : as.Perm as')
    {bs : List β} (hbs : as.flatMapM f = .ok bs) :
    ∃ bs', as'.flatMapM f = .ok bs' ∧ bs.Perm bs' := by
  induction h generalizing bs with
  | nil => exact ⟨bs, hbs, .rfl⟩
  | cons a _ ih =>
    obtain ⟨cs, ds, hcs, hds, rfl⟩ := flatMapM_cons_eq_ok_iff.1 hbs
    obtain ⟨ds', hds', hperm⟩ := ih hds
    exact ⟨cs ++ ds', flatMapM_cons_eq_ok_iff.2 ⟨cs, ds', hcs, hds', rfl⟩, hperm.append_left cs⟩
  | swap a b as =>
    obtain ⟨cs, _, hcs, hrest, rfl⟩ := flatMapM_cons_eq_ok_iff.1 hbs
    obtain ⟨ds, es, hds, hes, rfl⟩ := flatMapM_cons_eq_ok_iff.1 hrest
    refine ⟨ds ++ (cs ++ es), flatMapM_cons_eq_ok_iff.2 ⟨ds, cs ++ es, hds, ?_, rfl⟩, ?_⟩
    · exact flatMapM_cons_eq_ok_iff.2 ⟨cs, es, hcs, hes, rfl⟩
    · exact List.perm_append_comm_assoc cs ds es
  | trans _ _ ih ih' =>
    obtain ⟨bs', hbs', hperm⟩ := ih hbs
    obtain ⟨bs'', hbs'', hperm'⟩ := ih' hbs'
    exact ⟨bs'', hbs'', hperm.trans hperm'⟩

end Rows

/-! ## The search -/

namespace RelationshipType

/-- Two relationship types of the same name are the same type, wherever they are found. -/
theorem find?_eq_of_perm {types : Registry String TypeDef} (hnames : KeptByName types)
    {relTypes relTypes' : List RelationshipType} (h : collect types.values = .ok relTypes)
    (hperm : relTypes'.Perm relTypes) (n : String) :
    (relTypes'.find? fun q => q.type.name.text = n) =
      relTypes.find? fun q => q.type.name.text = n := by
  refine find?_eq_of_mem_iff (fun q => hperm.mem_iff) fun q hq q' hq' hn hn' => ?_
  obtain ⟨hfind, ho⟩ := Relationship.of_mem_collect_types hnames h hq
  obtain ⟨hfind', ho'⟩ := Relationship.of_mem_collect_types hnames h hq'
  rw [of_decide_eq_true hn] at hfind
  rw [of_decide_eq_true hn', hfind] at hfind'
  rw [TypeDef.object.inj (Option.some.inj hfind'), ho'] at ho
  exact (Option.some.inj (Except.ok.inj ho)).symm

end RelationshipType

namespace Relationship

/-- The same relationships are found whatever the order of the types. -/
theorem collect_perm {types types' : Registry String TypeDef} (hnames : KeptByName types)
    (h : types'.entries.Perm types.entries) {rs : List Relationship}
    (hrs : collect types = .ok rs) : ∃ rs', collect types' = .ok rs' ∧ rs.Perm rs' := by
  have hvalues : types.values.Perm types'.values := (h.map Prod.snd).symm
  obtain ⟨relTypes, hrel, hrs⟩ := (collect_eq_ok_iff types).1 hrs
  rw [RelationshipType.collect_eq] at hrel
  obtain ⟨relTypes', hrel', hperm⟩ := flatMapM_perm hvalues hrel
  rw [← RelationshipType.collect_eq] at hrel hrel'
  have hsame : ∀ t, ofType types' relTypes' t = ofType types relTypes t := by
    intro t
    cases t with
    | object t =>
      rw [ofType, ofType, ofFields_eq, ofFields_eq, hperm.symm.any_eq]
      refine congrArg (ite _ _) (flatMapM_congr fun f _ => ?_)
      rw [ofField?, ofField?, RelationshipType.find?_eq_of_perm hnames hrel hperm.symm,
        Registry.find?_eq_of_perm h]
    | _ => rfl
  obtain ⟨rs', hrs', hperm'⟩ := flatMapM_perm hvalues hrs
  refine ⟨rs', (collect_eq_ok_iff types').2 ⟨relTypes', hrel', ?_⟩, hperm'⟩
  rw [← hrs']
  exact flatMapM_congr fun t _ => hsame t

end Relationship

/-! ## The mutations taken -/

namespace Mutation

/-- Where all names are different, the mutations taken are those whose names are free. -/
theorem accepted_of_nodup {ms : List Mutation} (h : (ms.map name).Nodup) (names : List String) :
    accepted names ms = ms.filter (·.name ∉ names) := by
  induction ms generalizing names with
  | nil => rfl
  | cons m ms ih =>
    rw [List.map_cons, List.nodup_cons] at h
    rw [accepted]
    split
    · next hm => rw [ih h.2, List.filter_cons_of_neg (by simpa using hm)]
    · next hm =>
      rw [ih h.2, List.filter_cons_of_pos (by simpa using hm)]
      refine congrArg (m :: ·) (List.filter_congr fun m' hm' => ?_)
      have hne : m'.name ≠ m.name := fun he => h.1 (he ▸ List.mem_map_of_mem hm')
      simp [hne]

theorem accepted_perm {ms ms' : List Mutation} (hperm : ms.Perm ms') (h : (ms.map name).Nodup)
    (names : List String) : (accepted names ms).Perm (accepted names ms') := by
  rw [accepted_of_nodup h, accepted_of_nodup ((hperm.map name).nodup_iff.1 h)]
  exact hperm.filter _

end Mutation

theorem Settings.offers_perm (s : Settings) {rs rs' : List Relationship} (h : rs.Perm rs') :
    (s.offers rs).Perm (s.offers rs') :=
  (h.filter _).flatMap_right _

namespace Schema

/-! ## Definitions in another order -/

/-- There is at most one schema definition, and it names each operation at most once. -/
structure OneSchema (d : Document) : Prop where
  length_le : (d.definitions.filterMap Definition.schema?).length ≤ 1
  nodup : ∀ s ∈ d.definitions.filterMap Definition.schema?, (s.roots.map Prod.fst).Nodup

/-- The definitions of `d'` are those of `d` in another order, in which the extensions of each type
have the order that they had. -/
structure Reordered (d d' : Document) : Prop where
  perm : d'.definitions.Perm d.definitions
  extensions : ∀ n, extensionsOf d' n = extensionsOf d n

variable {d d' : Document}

/-- No operation gets two roots. -/
theorem OneSchema.singleRoots (h : OneSchema d) : SingleRoots d := by
  intro n _ n' _ k hn hn'
  rw [rootNames_eq] at hn hn'
  cases hs : (d.definitions.filterMap Definition.schema?).getLast? with
  | none =>
    rw [hs] at hn hn'
    rw [eq_rootName_of_default hn, eq_rootName_of_default hn']
  | some s =>
    rw [hs] at hn hn'
    obtain ⟨r, hr, he⟩ := List.mem_map.1 (Registry.mem_of_find?_ofList hn)
    obtain ⟨r', hr', he'⟩ := List.mem_map.1 (Registry.mem_of_find?_ofList hn')
    obtain ⟨rfl, rfl⟩ := Prod.mk.inj he
    obtain ⟨rfl, hk⟩ := Prod.mk.inj he'
    rw [List.inj_on_of_nodup_map (h.nodup s (List.mem_of_getLast? hs)) hr' hr hk]

namespace Reordered

theorem symm (h : Reordered d d') : Reordered d' d :=
  ⟨h.perm.symm, fun n => (h.extensions n).symm⟩

theorem distinctNames (h : Reordered d d') (hn : DistinctNames d) : DistinctNames d' :=
  ((h.perm.filterMap _).map _).nodup_iff.2 hn

theorem schemas (h : Reordered d d') (hs : OneSchema d) :
    d'.definitions.filterMap Definition.schema? = d.definitions.filterMap Definition.schema? := by
  have hperm := h.perm.filterMap Definition.schema?
  cases hd : d.definitions.filterMap Definition.schema? with
  | nil => exact List.perm_nil.1 (hd ▸ hperm)
  | cons s ss =>
    have hlen := hs.length_le
    rw [hd, List.length_cons] at hlen
    obtain rfl : ss = [] := List.eq_nil_of_length_eq_zero (by omega)
    exact List.perm_singleton.1 (hd ▸ hperm)

theorem oneSchema (h : Reordered d d') (hs : OneSchema d) : OneSchema d' := by
  refine ⟨?_, ?_⟩ <;> rw [h.schemas hs]
  · exact hs.length_le
  · exact hs.nodup

theorem rootNames_eq (h : Reordered d d') (hs : OneSchema d) : rootNames d' = rootNames d := by
  rw [Schema.rootNames_eq, Schema.rootNames_eq, h.schemas hs]

theorem extended_eq (h : Reordered d d') (t : ObjectType) : extended d' t = extended d t := by
  rw [extended, extended, h.extensions]

end Reordered

/-! ## The sorted types -/

theorem name_of_asDefined? {definition : Definition} {e : String × TypeDef}
    (h : asDefined? d definition = some e) :
    ∃ t, definition.type? = some t ∧ t.name = e.1 := by
  unfold asDefined? at h
  split at h
  · split at h
    · cases h
    · cases h
      exact ⟨_, rfl, rfl⟩
  · cases h
    exact ⟨_, rfl, rfl⟩
  · cases h

/-- If all type definitions have different names, each of those that are no roots has its entry, in
order. -/
theorem entries_defined_sorted (hn : DistinctNames d) :
    (sorted d).defined.entries = d.definitions.filterMap (asDefined? d) := by
  refine Registry.entries_insertAll_of_nodup ?_ (by simp [Registry.keys, Registry.empty])
  rw [DistinctNames, List.Nodup, List.pairwise_map, List.pairwise_filterMap] at hn
  rw [List.Nodup, List.pairwise_map, List.pairwise_filterMap]
  refine hn.imp fun hne e he e' he' => ?_
  obtain ⟨t, ht, hte⟩ := name_of_asDefined? he
  obtain ⟨t', ht', hte'⟩ := name_of_asDefined? he'
  rw [← hte, ← hte']
  exact hne t ht t' ht'

theorem entries_defined_reordered (hn : DistinctNames d) (hs : OneSchema d)
    (h : Reordered d d') : (sorted d').defined.entries.Perm (sorted d).defined.entries := by
  have hsame : asDefined? d' = asDefined? d :=
    funext fun _ => asDefined?_congr (h.rootNames_eq hs) fun t _ => h.extended_eq t
  rw [entries_defined_sorted hn, entries_defined_sorted (h.distinctNames hn), hsame]
  exact h.perm.filterMap _

theorem find?_roots_reordered (hn : DistinctNames d) (hs : OneSchema d) (h : Reordered d d')
    (k : OperationKind) : (sorted d').roots.find? k = (sorted d).roots.find? k := by
  -- A root of one document comes from a definition, which is one of the other as well.
  have hsub : ∀ {d₁ d₂ : Document}, DistinctNames d₂ → OneSchema d₁ → Reordered d₁ d₂ →
      ∀ root, (sorted d₁).roots.find? k = some root → (sorted d₂).roots.find? k = some root := by
    intro d₁ d₂ hn hs h root hroot
    obtain ⟨t, ht, hk, rfl⟩ := mem_of_find?_roots hroot
    rw [← h.extended_eq]
    exact find?_roots_sorted hn (h.oneSchema hs).singleRoots (h.perm.mem_iff.2 ht)
      (by rwa [h.rootNames_eq hs])
  exact Option.ext fun root =>
    ⟨hsub hn (h.oneSchema hs) h.symm root, hsub (h.distinctNames hn) hs h root⟩

/-! ## A whole run -/

variable {resolved : Except SettingsFault Settings}

theorem exists_run_reordered (hn : DistinctNames d) (hs : OneSchema d) (h : Reordered d d')
    {types : Types} (htypes : (augmentedTypes d resolved).result = .ok types) :
    ∃ s found found', resolved = .ok s ∧
      Relationship.collect (sorted d).defined = .ok found ∧
      Relationship.collect (sorted d').defined = .ok found' ∧ found.Perm found' ∧
      types = (s.offers found).foldl (Types.offer s) (sorted d) ∧
      (augmentedTypes d' resolved).result =
        .ok ((s.offers found').foldl (Types.offer s) (sorted d')) := by
  obtain ⟨s, found, hs', hfound, hadd, htypes⟩ := augmentedTypes_eq_ok_iff.1 htypes
  obtain ⟨found', hfound', hperm⟩ := Relationship.collect_perm (keptByName_defined d)
    (entries_defined_reordered hn hs h) hfound
  refine ⟨s, found, found', hs', hfound, hfound', hperm, htypes, ?_⟩
  refine augmentedTypes_eq_ok_iff.2 ⟨s, found', hs', hfound', ?_, rfl⟩
  rw [find?_roots_reordered hn hs h]
  exact fun hroot r hr => hadd hroot r (hperm.mem_iff.2 hr)

/-- If the names of the mutations are all different, the root takes the same ones. -/
theorem taken_reordered (hn : DistinctNames d) (hs : OneSchema d) (h : Reordered d d')
    {found found' : List Relationship} (hperm : found.Perm found')
    (hnames : ((found.flatMap Relationship.mutations).map Mutation.name).Nodup) (s : Settings) :
    ((sorted d).taken (s.offers found)).Perm ((sorted d').taken (s.offers found')) := by
  rw [Types.taken, Types.taken, find?_roots_reordered hn hs h]
  split
  · exact .rfl
  · exact Mutation.accepted_perm (s.offers_perm hperm)
      (((s.offers_sublist found).map _).nodup hnames) _

/-- The order of definitions does not matter. A run succeeds in any order that keeps the extensions
of each type in theirs, if it succeeds in one. If the mutations of all relationships found have
different names, then the same fields are added to the mutation root, whose own fields are the same,
and under each name the same type is generated. -/
theorem augment_reordered (hn : DistinctNames d) (hs : OneSchema d) (h : Reordered d d') :
    ((∃ out, (augment d resolved).result = .ok out) ↔
      ∃ out, (augment d' resolved).result = .ok out) ∧
    ∀ types found, (augmentedTypes d resolved).result = .ok types →
      Relationship.collect (sorted d).defined = .ok found →
      (found.flatMap fun r => Action.all.map fun a =>
        a.label ++ r.typeName ++ Text.capitalized r.fieldName).Nodup →
      ∃ types', (augmentedTypes d' resolved).result = .ok types' ∧
        (sorted d').mutationFields = (sorted d).mutationFields ∧
        ∃ added added', types.mutationFields = (sorted d).mutationFields ++ added ∧
          types'.mutationFields = (sorted d').mutationFields ++ added' ∧
          (∀ f, f ∈ added ↔ f ∈ added') ∧
          ∀ n, types.generated.find? n = types'.generated.find? n := by
  have hok : ∀ {d₁ d₂ : Document}, DistinctNames d₁ → OneSchema d₁ → Reordered d₁ d₂ →
      (∃ out, (augment d₁ resolved).result = .ok out) →
      ∃ out, (augment d₂ resolved).result = .ok out := by
    rintro d₁ d₂ hn hs h ⟨out, hout⟩
    obtain ⟨types, htypes, -⟩ := augment_eq_ok_iff.1 hout
    obtain ⟨_, _, _, -, -, -, -, -, hrun⟩ := exists_run_reordered hn hs h htypes
    exact ⟨_, augment_eq_ok_iff.2 ⟨_, hrun, rfl⟩⟩
  refine ⟨⟨hok hn hs h, hok (h.distinctNames hn) (h.oneSchema hs) h.symm⟩, ?_⟩
  intro types found htypes hfound hnames
  obtain ⟨s, found₁, found', -, hfound₁, hfound', hperm, rfl, hrun⟩ :=
    exists_run_reordered hn hs h htypes
  obtain rfl : found₁ = found := Except.ok.inj (hfound₁.symm.trans hfound)
  have hnames : ((found₁.flatMap Relationship.mutations).map Mutation.name).Nodup := by
    rwa [List.map_flatMap]
  have htaken := taken_reordered hn hs h hperm hnames s
  refine ⟨_, hrun, ?_, _, _, Types.mutationFields_eq s _ _, Types.mutationFields_eq s _ _,
    fun f => (htaken.map _).mem_iff, fun n => Option.ext fun definition => ?_⟩
  · rw [Types.mutationFields, Types.mutationFields, find?_roots_reordered hn hs h]
  · have hfits := fitsOffers_sorted hfound s
    have hfits' := fitsOffers_sorted hfound' s
    rw [Types.generated_foldl_offer, Types.generated_foldl_offer]
    exact (Registry.Fits.find?_ofList_iff hfits).trans
      ((htaken.flatMap_right _).mem_iff.trans (Registry.Fits.find?_ofList_iff hfits').symm)

/-- Two halves of a document that change places, with two extensions of one type in one of them and
a schema definition in the other : the fields are added in another order. -/
theorem augment_reordered_halves :
    let field (name type : String) (ds : List Directive) : Field :=
      { name := { text := name }, type := .ofName type, directives := ds }
    let object (name : String) (fs : List Field) : ObjectType :=
      { name := { text := name }, fields := fs }
    let relation (name : String) : List Directive :=
      [(Binding.mk ⟨.text name, .missing, .missing⟩ .missing).toDirective]
    let half : List Definition := [
      .schema { roots := [(.mutation, { text := "Change" })] },
      .typeDef (.object (object "Change" [])),
      .typeDef (.object (object "City" [field "twin" "City" (relation "TWIN")]))]
    let half' : List Definition := [
      .typeExtension (.object (object "Person" [field "home" "City" (relation "HOME")])),
      .typeDef (.object (object "Person" [])),
      .typeExtension (.object (object "Person" [field "boss" "Person" (relation "BOSS")]))]
    let d : Document := ⟨half ++ half'⟩
    let d' : Document := ⟨half' ++ half⟩
    DistinctNames d ∧ OneSchema d ∧ Reordered d d' ∧ ∃ types types',
      (augmentedTypes d (.ok {})).result = .ok types ∧
      (augmentedTypes d' (.ok {})).result = .ok types' ∧
      (types.mutationFields.map fun f => f.name.text) =
        ["AddCityTwin", "RemoveCityTwin", "AddPersonHome", "RemovePersonHome",
          "AddPersonBoss", "RemovePersonBoss"] ∧
      (types'.mutationFields.map fun f => f.name.text) =
        ["AddPersonHome", "RemovePersonHome", "AddPersonBoss", "RemovePersonBoss",
          "AddCityTwin", "RemoveCityTwin"] ∧
      (∀ f, f ∈ types.mutationFields ↔ f ∈ types'.mutationFields) ∧
      ∀ n, types.generated.find? n = types'.generated.find? n := by
  intro field object relation half half' d d'
  have hn : DistinctNames d := by decide
  have hs : OneSchema d := ⟨by decide, by decide⟩
  have hext : ∀ n, extensionsOf d' n = extensionsOf d n := fun n => by
    rw [extensionsOf, extensionsOf, List.filterMap_append, List.filterMap_append]
    exact List.append_nil _
  have h : Reordered d d' := ⟨List.perm_append_comm, hext⟩
  have hrun : ∃ types, (augmentedTypes d (.ok {})).result = .ok types ∧
      (types.mutationFields.map fun f => f.name.text) =
        ["AddCityTwin", "RemoveCityTwin", "AddPersonHome", "RemovePersonHome",
          "AddPersonBoss", "RemovePersonBoss"] := by decide
  have hrun' : ∃ types', (augmentedTypes d' (.ok {})).result = .ok types' ∧
      (types'.mutationFields.map fun f => f.name.text) =
        ["AddPersonHome", "RemovePersonHome", "AddPersonBoss", "RemovePersonBoss",
          "AddCityTwin", "RemoveCityTwin"] := by decide
  have hfound : ∃ found, Relationship.collect (sorted d).defined = .ok found ∧
      (found.flatMap fun r => Action.all.map fun a =>
        a.label ++ r.typeName ++ Text.capitalized r.fieldName).Nodup := by decide
  obtain ⟨types, htypes, hfields⟩ := hrun
  obtain ⟨found, hfound, hnames⟩ := hfound
  obtain ⟨types', htypes', hown, added, added', hadded, hadded', hsame, hgenerated⟩ :=
    (augment_reordered hn hs h).2 types found htypes hfound hnames
  obtain ⟨types₂, htypes₂, hfields'⟩ := hrun'
  obtain rfl : types₂ = types' := Except.ok.inj (htypes₂.symm.trans htypes')
  refine ⟨hn, hs, h, types, types₂, htypes, htypes', hfields, hfields', fun f => ?_, hgenerated⟩
  rw [hadded, hadded', List.mem_append, List.mem_append, hown, hsame]

end Schema

end RelationApi

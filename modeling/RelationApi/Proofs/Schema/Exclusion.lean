import RelationApi.Proofs.Schema.Idempotence
import RelationApi.Proofs.Schema.SharedNames

/-!
# Excluded types

The setting of mutations can exclude types by name (`Settings.excluding`). A relationship is let
through if neither of its ends is excluded (`Settings.letsThrough_excluding`), so nothing that is
added says it is for a relationship with an excluded end (`Sdl.Directive.Avoids`).

Excluding more can hand a mutation over : with the first relationship of a name ruled out, the next
one gets it. So the fields are not among those added before, but their names are, since a row of
offers that has fewer names leaves the root with fewer (`Schema.Types.names_taken_subset`). And as
the settings are asked about the ends of relationships only, lists that agree on these lead to the
same document (`Schema.excluding_types`).
-/

namespace RelationApi

open Sdl

/-! ## Settings that exclude types -/

namespace Settings

/-- The settings with mutations for all types but the excluded ones. -/
def excluding (s : Settings) (types : List String) : Settings :=
  { s with mutation := .mapping [(.text "exclude", .list (types.map .text))] }

/-- The settings with mutations for all types. -/
def mutatingAll (s : Settings) : Settings := { s with mutation := .flag true }

variable (s : Settings) (E : List String) (r : Relationship)

theorem admits_excluding (type : String) :
    admits (s.excluding E).mutation type = .ok (decide (type ∉ E)) := by
  have hname : (E.map Data.text).any (Data.isText type) = decide (type ∈ E) := by
    simp [Data.isText, List.any_eq]
  change (!·) <$> Except.ok ((E.map Data.text).any (Data.isText type)) = _
  rw [hname, decide_not]
  rfl

/-- A relationship is let through if neither of its ends is excluded. -/
theorem mutates_excluding :
    (s.excluding E).mutates r = .ok (decide (r.fromType ∉ E ∧ r.toType ∉ E)) := by
  rw [mutates_eq, admits_excluding, admits_excluding]
  by_cases h : r.fromType ∈ E <;> simp [h, bind, Except.bind, pure, Except.pure]

theorem letsThrough_excluding :
    (s.excluding E).letsThrough r = decide (r.fromType ∉ E ∧ r.toType ∉ E) :=
  letsThrough_of_ok (s.mutates_excluding E r)

theorem mutates_mutatingAll : s.mutatingAll.mutates r = .ok true := rfl

/-- What a mutation adds does not depend on which types are excluded. -/
theorem offer_excluding : Schema.Types.offer (s.excluding E) = Schema.Types.offer s := rfl

variable {s E r}

/-- A mutation is offered only for a relationship without an excluded end. -/
theorem notMem_of_mem_offers_excluding {rs : List Relationship} {m : Mutation}
    (h : m ∈ (s.excluding E).offers rs) :
    m.relationship.fromType ∉ E ∧ m.relationship.toType ∉ E := by
  obtain ⟨r, hr, hm⟩ := List.mem_flatMap.1 h
  obtain ⟨a, -, rfl⟩ := List.mem_map.1 hm
  simpa [letsThrough_excluding] using (List.mem_filter.1 hr).2

/-- Excluding more leaves fewer offers. -/
theorem offers_excluding_subset {E' : List String} (h : E ⊆ E') (rs : List Relationship) :
    (s.excluding E').offers rs ⊆ (s.excluding E).offers rs := by
  intro m hm
  obtain ⟨r, hr, hmr⟩ := List.mem_flatMap.1 hm
  obtain ⟨hr, hthrough⟩ := List.mem_filter.1 hr
  rw [letsThrough_excluding, decide_eq_true_eq] at hthrough
  refine List.mem_flatMap.2 ⟨r, List.mem_filter.2 ⟨hr, ?_⟩, hmr⟩
  rw [letsThrough_excluding, decide_eq_true_eq]
  exact ⟨fun hfrom => hthrough.1 (h hfrom), fun hto => hthrough.2 (h hto)⟩

/-- Only the names of ends matter. -/
theorem offers_excluding_congr {E' : List String} {rs : List Relationship}
    (h : ∀ r ∈ rs, (r.fromType ∈ E ↔ r.fromType ∈ E') ∧ (r.toType ∈ E ↔ r.toType ∈ E')) :
    (s.excluding E').offers rs = (s.excluding E).offers rs := by
  rw [offers, offers]
  congr 1
  refine List.filter_congr fun r hr => ?_
  simp only [letsThrough_excluding, (h r hr).1, (h r hr).2]

/-- Excluding no end is excluding nothing. -/
theorem offers_mutatingAll {rs : List Relationship}
    (h : ∀ r ∈ rs, r.fromType ∉ E ∧ r.toType ∉ E) :
    s.mutatingAll.offers rs = (s.excluding E).offers rs := by
  rw [offers, offers]
  congr 1
  refine List.filter_congr fun r hr => ?_
  rw [letsThrough_excluding, letsThrough_of_ok (mutates_mutatingAll s r), decide_eq_true (h r hr)]

end Settings

/-! ## What directives say about the ends -/

/-- The relationship that a directive says something is for, or bound to. -/
def Sdl.Directive.link? (d : Directive) : Option Link :=
  match Annotation.ofDirective d with
  | .ok (some (.mutationMeta m)) => some m.link
  | .ok (some (.relation b)) => some b.link
  | _ => none

/-- The directive names no relationship with one of the types at an end. -/
def Sdl.Directive.Avoids (d : Directive) (types : List String) : Prop :=
  ∀ l ∈ d.link?, ∀ n ∈ types, l.fromType ≠ .text n ∧ l.toType ≠ .text n

theorem Sdl.Scalar.normal_text_ne {n n' : String} (h : n ≠ n') : (text n).normal ≠ text n' := by
  rw [normal]
  split
  · simpa using h
  · intro he
    cases he

namespace Mutation

variable {m : Mutation} {E : List String}
  (h : m.relationship.fromType ∉ E ∧ m.relationship.toType ∉ E)
include h

/-- The directives of a mutation's field name its relationship, or none. -/
theorem avoids_field (s : Settings) : ∀ p ∈ (m.field s).directives, p.Avoids E := by
  have hpurpose : (MutationPurpose.mk m.relationship.link).toDirective.link? =
      some m.relationship.link := by
    rw [Directive.link?, ofDirective_purpose]
  have hguard : (m.relationship.scopes m.action).toDirective.link? = none := by
    have hscope : Annotation.ofDirective (m.relationship.scopes m.action).toDirective = _ :=
      Annotation.ofDirective_hasScope (m.relationship.scopes m.action)
    rw [Directive.link?, hscope]
  intro p hp l hl n hn
  rcases List.mem_cons.1 hp with rfl | hp
  · rw [hpurpose] at hl
    cases hl
    exact ⟨fun he => h.1 (Scalar.text.inj he ▸ hn), fun he => h.2 (Scalar.text.inj he ▸ hn)⟩
  · split at hp
    · rw [List.mem_singleton.1 hp, hguard] at hl
      cases hl
    · exact absurd hp List.not_mem_nil

/-- The directive of a payload names the relationship of its mutation. -/
theorem avoids_payload : ∀ p ∈ m.payload.directives, p.Avoids E := by
  intro p hp l hl n hn
  have hread : Annotation.ofDirective (Binding.mk m.relationship.link .missing).toDirective = _ :=
    Annotation.ofDirective_relation ⟨m.relationship.link, .missing⟩
  rw [List.mem_singleton.1 hp, Directive.link?, hread] at hl
  cases hl
  exact ⟨Scalar.normal_text_ne fun he => h.1 (he ▸ hn),
    Scalar.normal_text_ne fun he => h.2 (he ▸ hn)⟩

end Mutation

namespace Schema

/-! ## Fewer offers -/

/-- A root that is offered fewer mutations has no name that it would not have with more of them. -/
theorem Types.names_taken_subset (t : Types) {ms ms' : List Mutation} (h : ms' ⊆ ms) :
    (t.taken ms').map Mutation.name ⊆ (t.taken ms).map Mutation.name := by
  intro n hn
  cases hroot : t.roots.find? .mutation with
  | none =>
    rw [taken, hroot] at hn
    exact absurd hn List.not_mem_nil
  | some root =>
    rw [taken_of_some hroot] at hn ⊢
    obtain ⟨m, hm, rfl⟩ := List.mem_map.1 hn
    exact Mutation.name_mem_accepted (h ((Mutation.accepted_sublist ms' _).subset hm))
      (Mutation.name_notMem_of_mem_accepted hm)

variable {text : String} {d : Document}

/-! ## Runs with different lists -/

/-- Where a run with excluded types succeeds, no field that it adds to the mutation root and no type
that it generates names a relationship with one of these at an end. Under any other list the run
succeeds as well : with more types excluded it adds no name that it did not add before, and with the
same ends of relationships excluded it gives the same document. If no end is excluded, this is the
document with all mutations. -/
theorem excluding_types (hparse : Document.parse text = .ok d) (s : Settings) (E : List String)
    {out : Document} (hrun : (augment d (.ok (s.excluding E))).result = .ok out) :
    ∃ found types added, Relationship.collect (sorted d).defined = .ok found ∧
      (augmentedTypes d (.ok (s.excluding E))).result = .ok types ∧ out = rebuild d types ∧
      types.mutationFields = (sorted d).mutationFields ++ added ∧
      (∀ f ∈ added, ∀ p ∈ f.directives, p.Avoids E) ∧
      (∀ t, .typeDef (.object t) ∈ types.generated.values → ∀ p ∈ t.directives, p.Avoids E) ∧
      (∀ E', ∃ types' added', (augmentedTypes d (.ok (s.excluding E'))).result = .ok types' ∧
        types'.mutationFields = (sorted d).mutationFields ++ added' ∧
        (E ⊆ E' → ∀ f' ∈ added', ∃ f ∈ added, f.name.text = f'.name.text) ∧
        ((∀ r ∈ found,
            (r.fromType ∈ E ↔ r.fromType ∈ E') ∧ (r.toType ∈ E ↔ r.toType ∈ E')) →
          (augment d (.ok (s.excluding E'))).result = .ok out)) ∧
      ((∀ r ∈ found, r.fromType ∉ E ∧ r.toType ∉ E) →
        (augment d (.ok { s with mutation := .flag true })).result = .ok out) := by
  obtain ⟨types, htypes, rfl⟩ := augment_eq_ok_iff.1 hrun
  obtain ⟨_, found, hs, hfound, -, rfl⟩ := augmentedTypes_eq_ok_iff.1 htypes
  cases hs
  have hexcluding : ∀ E', (augmentedTypes d (.ok (s.excluding E'))).result =
      .ok (((s.excluding E').offers found).foldl (Types.offer s) (sorted d)) := fun E' =>
    augmentedTypes_of_answers hparse hfound fun r _ => ⟨_, s.mutates_excluding E' r⟩
  have hall : (augmentedTypes d (.ok s.mutatingAll)).result =
      .ok ((s.mutatingAll.offers found).foldl (Types.offer s) (sorted d)) :=
    augmentedTypes_of_answers hparse hfound fun r _ => ⟨_, s.mutates_mutatingAll r⟩
  refine ⟨found, _, _, hfound, htypes, rfl, Types.mutationFields_eq _ _ _, ?_, ?_,
    fun E' => ⟨_, _, hexcluding E', Types.mutationFields_eq _ _ _, ?_, ?_⟩, ?_⟩
  · intro f hf
    obtain ⟨m, hm, rfl⟩ := List.mem_map.1 hf
    have hends := Settings.notMem_of_mem_offers_excluding (Types.mem_of_mem_taken hm)
    exact m.avoids_field hends _
  · intro t ht
    obtain ⟨e, he, hte⟩ := List.mem_map.1 ht
    obtain ⟨m, hm, hem⟩ := Types.exists_of_mem_generated he
    obtain ⟨u, rfl, -, hpayload⟩ := m.of_mem_generated hem
    cases hte
    rw [hpayload t rfl]
    exact m.avoids_payload (Settings.notMem_of_mem_offers_excluding hm)
  · intro hsubset f' hf'
    obtain ⟨m', hm', rfl⟩ := List.mem_map.1 hf'
    have hnames := Types.names_taken_subset (sorted d)
      (Settings.offers_excluding_subset (s := s) hsubset found)
    obtain ⟨m, hm, hname⟩ := List.mem_map.1 (hnames (List.mem_map_of_mem hm'))
    exact ⟨_, List.mem_map_of_mem hm, hname⟩
  · intro hagree
    refine augment_eq_ok_iff.2 ⟨_, hexcluding E', ?_⟩
    rw [Settings.offers_excluding_congr hagree, Settings.offer_excluding]
  · intro hfree
    refine augment_eq_ok_iff.2 ⟨_, hall, ?_⟩
    rw [Settings.offers_mutatingAll hfree, Settings.offer_excluding]

/-- The field `bC` of `A` is ruled out, so that its names go to the field `c` of `AB`. Excluding a
type that no relationship has at an end makes no difference. -/
theorem excluding_types_shared_names :
    ∃ d out types, Document.parse sharedNames = .ok d ∧
      (augment d (.ok (Settings.excluding {} ["A"]))).result = .ok out ∧
      (augmentedTypes d (.ok (Settings.excluding {} ["A"]))).result = .ok types ∧
      types.mutationFields.map (fun f => f.name.text) = ["noop", "AddABC", "RemoveABC"] ∧
      (∀ f ∈ types.mutationFields, ∀ p ∈ f.directives, p.Avoids ["A"]) ∧
      (types.mutationFields.flatMap fun f => f.directives.filterMap Directive.link?) =
        List.replicate 2 ⟨.text "SECOND", .text "AB", .text "B"⟩ ∧
      (augment d (.ok (Settings.excluding {} ["A", "Genre"]))).result = .ok out := by
  have hinput : ∃ d, Document.parse sharedNames = .ok d ∧
      (∃ found, Relationship.collect (sorted d).defined = .ok found ∧ ∀ r ∈ found,
        (r.fromType ∈ ["A"] ↔ r.fromType ∈ ["A", "Genre"]) ∧
        (r.toType ∈ ["A"] ↔ r.toType ∈ ["A", "Genre"])) ∧
      (∀ f ∈ (sorted d).mutationFields, f.directives = []) ∧
      ∃ types, (augmentedTypes d (.ok (Settings.excluding {} ["A"]))).result = .ok types ∧
        types.mutationFields.map (fun f => f.name.text) = ["noop", "AddABC", "RemoveABC"] ∧
        (types.mutationFields.flatMap fun f => f.directives.filterMap Directive.link?) =
          List.replicate 2 ⟨.text "SECOND", .text "AB", .text "B"⟩ := by
    decide +kernel
  obtain ⟨d, hparse, ⟨found, hfound, hagree⟩, hplain, types, htypes, hnames, hlinks⟩ := hinput
  have hrun := augment_eq_ok_iff.2 ⟨types, htypes, rfl⟩
  obtain ⟨found', types', added, hfound', htypes', -, hfields, havoids, -, hlists, -⟩ :=
    excluding_types hparse {} ["A"] hrun
  cases hfound.symm.trans hfound'
  cases htypes.symm.trans htypes'
  obtain ⟨_, _, -, -, -, hsame⟩ := hlists ["A", "Genre"]
  refine ⟨d, _, types, hparse, hrun, htypes, hnames, fun f hf => ?_, hlinks, hsame hagree⟩
  rw [hfields, List.mem_append] at hf
  rcases hf with hf | hf
  · rw [hplain f hf]
    exact fun _ hp => absurd hp List.not_mem_nil
  · exact havoids f hf

end Schema

end RelationApi

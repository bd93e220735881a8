import RelationApi.Proofs.Relationship.Discovery

/-!
# Where relationships are found

Every relationship that a search finds has its site : a field of a node type that leads along it
(`Relationship.Site`). Either the type of the field is a relationship type, and then the
relationship takes its ends and its properties from there, or it is another object type and the
field itself says what the relationship is, which then has no properties.

So the output type alone decides on the properties (`Relationship.agreeOnInputs_of_collect`) : all
fields of one relationship type lead to the same ones.
-/

namespace RelationApi

open Sdl

namespace Sdl.ObjectType

/-- Whether the type is bound to a relationship, by `@relation`. -/
def IsBound (t : ObjectType) : Prop := (binding? t.directives).isSome

/-- The fields that are no endpoints. -/
def properties (t : ObjectType) : List Field :=
  t.fields.filter fun f => f.name.text ≠ fromField ∧ f.name.text ≠ toField

end Sdl.ObjectType

/-- Each type is kept under its name. -/
def KeptByName (types : Registry String TypeDef) : Prop :=
  ∀ n t, types.find? n = some t → t.name = n

namespace RelationshipType

theorem properties_eq (r : RelationshipType) : r.properties = r.type.properties := by
  unfold properties ObjectType.properties
  congr 1
  funext f
  simp [endpointNames, Bool.not_or]

theorem type_of?_eq_some {t : ObjectType} {r : RelationshipType} (h : of? t = .ok (some r)) :
    r.type = t ∧ t.IsBound := by
  obtain ⟨b, hb, -, _, -, _, -, rfl⟩ := of?_eq_some_iff.1 h
  exact ⟨rfl, by rw [ObjectType.IsBound, hb]; rfl⟩

/-- A type is passed over only if it is not bound. -/
theorem not_isBound_of?_eq_none {t : ObjectType} (h : of? t = .ok none) : ¬t.IsBound := by
  unfold of? at h
  cases hb : binding? t.directives with
  | none => simp [ObjectType.IsBound, hb]
  | some b =>
    rw [hb] at h
    simp only [bind, Except.bind] at h
    repeat' split at h
    all_goals cases h

end RelationshipType

namespace Relationship

/-- The field `f` of the type `t` leads along a relationship : the one of its type, if this is a
relationship type, or else the one that it is bound to itself. -/
inductive Leads (types : Registry String TypeDef) (t : ObjectType) (f : Field) : Relationship → Prop
  | type {o : ObjectType} {q : RelationshipType} : types.find? f.type.typeName = some (.object o) →
      RelationshipType.of? o = .ok (some q) → Leads types t f (throughType t.name.text f q)
  | field {o : ObjectType} {b : Binding} {r : Relationship} :
      types.find? f.type.typeName = some (.object o) → ¬o.IsBound →
      binding? f.directives = some b → throughField t.name.text f b = .ok r → Leads types t f r

/-- The relationship is found at the field `f` of the node type `t`. -/
structure Site (types : Registry String TypeDef) (t : ObjectType) (f : Field) (r : Relationship) :
    Prop where
  type : types.find? t.name.text = some (.object t)
  node : ¬t.IsBound
  field : f ∈ t.fields
  uncomputed : isComputed f.directives = false
  leads : Leads types t f r

section Search

variable {types : Registry String TypeDef} (hnames : KeptByName types)
include hnames

theorem find?_name_of_mem_values {t : ObjectType} (ht : .object t ∈ types.values) :
    types.find? t.name.text = some (.object t) := by
  obtain ⟨⟨n, u⟩, he, rfl⟩ := List.mem_map.1 ht
  have hfind := Registry.mem_entries_iff.1 he
  rwa [← hnames n _ hfind] at hfind

/-- A relationship type that is found is the type of its name, and it is bound. -/
theorem of_mem_collect_types {relTypes : List RelationshipType}
    (h : RelationshipType.collect types.values = .ok relTypes) {q : RelationshipType}
    (hq : q ∈ relTypes) : types.find? q.type.name.text = some (.object q.type) ∧
      RelationshipType.of? q.type = .ok (some q) := by
  obtain ⟨t, ht, ho⟩ := RelationshipType.of?_of_mem_collect h hq
  obtain ⟨rfl, -⟩ := RelationshipType.type_of?_eq_some ho
  exact ⟨find?_name_of_mem_values hnames ht, ho⟩

omit hnames in
/-- Every type that is bound is found as a relationship type. -/
theorem exists_mem_of_isBound {relTypes : List RelationshipType}
    (h : RelationshipType.collect types.values = .ok relTypes) {t : ObjectType}
    (ht : .object t ∈ types.values) (hb : t.IsBound) : ∃ q ∈ relTypes, q.type = t := by
  obtain ⟨o, ho, hsub⟩ := RelationshipType.exists_of_collect h ht
  cases o with
  | none => exact absurd hb (RelationshipType.not_isBound_of?_eq_none ho)
  | some q => exact ⟨q, hsub (by simp), (RelationshipType.type_of?_eq_some ho).1⟩

/-- What is found at a field is what the field leads along. -/
theorem leads_of_ofField? {relTypes : List RelationshipType}
    (h : RelationshipType.collect types.values = .ok relTypes) {t : ObjectType} {f : Field}
    {r : Relationship} (hr : ofField? types relTypes t.name.text f = .ok (some r)) :
    isComputed f.directives = false ∧ Leads types t f r := by
  unfold ofField? at hr
  split at hr
  · cases hr
  · next hcomputed =>
    refine ⟨by simpa using hcomputed, ?_⟩
    split at hr
    · next q hq =>
      cases hr
      obtain ⟨hfind, ho⟩ := of_mem_collect_types hnames h (List.mem_of_find?_eq_some hq)
      have hname : q.type.name.text = f.type.typeName := by simpa using List.find?_some hq
      exact .type (hname ▸ hfind) ho
    · next hnone =>
      split at hr
      · next o b ho hb =>
        obtain ⟨r', hr', he⟩ := except_map_eq_ok_iff.1 hr
        cases he
        obtain ⟨u, hu, hobject⟩ := Option.bind_eq_some_iff.1 ho
        obtain rfl : u = .object o := by cases u <;> cases hobject; rfl
        refine .field hu (fun hbound => ?_) hb hr'
        have hmem : TypeDef.object o ∈ types.values :=
          List.mem_map.2 ⟨_, Registry.mem_entries_iff.2 hu, rfl⟩
        obtain ⟨q, hq, rfl⟩ := exists_mem_of_isBound h hmem hbound
        have hne := List.find?_eq_none.1 hnone q hq
        have hname : q.type.name.text = f.type.typeName := hnames _ _ hu
        simp [hname] at hne
      · cases hr

/-- Every relationship that is found has a site. -/
theorem exists_site_of_mem_collect {rs : List Relationship} (h : collect types = .ok rs)
    {r : Relationship} (hr : r ∈ rs) : ∃ t f, Site types t f r := by
  obtain ⟨relTypes, hrel, hrs⟩ := (collect_eq_ok_iff types).1 h
  obtain ⟨u, hu, cs, hcs, hr⟩ := exists_of_mem_flatMapM hrs hr
  unfold ofType at hcs
  split at hcs
  · next t =>
    split at hcs
    · cases hcs
      simp at hr
    · next hany =>
      rw [ofFields_eq] at hcs
      obtain ⟨f, hf, ds, hds, hr⟩ := exists_of_mem_flatMapM hcs hr
      obtain ⟨o, ho, rfl⟩ := except_map_eq_ok_iff.1 hds
      rw [Option.mem_toList.1 hr] at ho
      obtain ⟨hcomputed, hleads⟩ := leads_of_ofField? hnames hrel ho
      refine ⟨t, f, find?_name_of_mem_values hnames hu, fun hb => hany ?_, hf, hcomputed, hleads⟩
      obtain ⟨q, hq, rfl⟩ := exists_mem_of_isBound hrel hu hb
      exact List.any_eq_true.2 ⟨q, hq, by simp⟩
  · cases hcs
    simp at hr

end Search

/-! ## What the site says about a relationship -/

section Site

variable {types : Registry String TypeDef} {t : ObjectType} {f : Field} {r : Relationship}

theorem Leads.outputType_eq (hnames : KeptByName types) (h : Leads types t f r) :
    r.outputType = f.type.typeName := by
  cases h with
  | type hfind ho =>
    obtain ⟨rfl, -⟩ := RelationshipType.type_of?_eq_some ho
    exact hnames _ _ hfind
  | field _ _ _ hr =>
    obtain ⟨-, _, -, rfl⟩ := throughField_eq_ok_iff.1 hr
    rfl

/-- The properties of a relationship are those of its output type, if this is a relationship type;
otherwise there are none. -/
theorem Leads.outputs_eq (h : Leads types t f r) {o : ObjectType}
    (ho : types.find? f.type.typeName = some (.object o)) :
    (o.IsBound → r.outputs = o.properties) ∧ (¬o.IsBound → r.outputs = []) := by
  cases h with
  | type hfind hq =>
    cases hfind.symm.trans ho
    obtain ⟨rfl, hb⟩ := RelationshipType.type_of?_eq_some hq
    exact ⟨fun _ => RelationshipType.properties_eq _, fun hnb => absurd hb hnb⟩
  | field hfind hnb _ hr =>
    cases hfind.symm.trans ho
    obtain ⟨-, _, -, rfl⟩ := throughField_eq_ok_iff.1 hr
    exact ⟨fun hb => absurd hb hnb, fun _ => rfl⟩

/-- The inputs are made from the outputs. -/
theorem Leads.inputs_eq (h : Leads types t f r) : r.inputs = r.outputs.map Field.toInputValue := by
  cases h with
  | type => rfl
  | field _ _ _ hr =>
    obtain ⟨-, _, -, rfl⟩ := throughField_eq_ok_iff.1 hr
    rfl

theorem Leads.exists_object (h : Leads types t f r) :
    ∃ o, types.find? f.type.typeName = some (.object o) := by
  cases h with
  | type hfind _ => exact ⟨_, hfind⟩
  | field hfind _ _ _ => exact ⟨_, hfind⟩

end Site

/-- Relationships with the same output type have the same inputs. -/
def AgreeOnInputs (rs : List Relationship) : Prop :=
  ∀ r ∈ rs, ∀ r' ∈ rs, r.outputType = r'.outputType → r.inputs = r'.inputs

theorem agreeOnInputs_of_collect {types : Registry String TypeDef} (hnames : KeptByName types)
    {rs : List Relationship} (h : collect types = .ok rs) : AgreeOnInputs rs := by
  intro r hr r' hr' heq
  obtain ⟨t, f, hsite⟩ := exists_site_of_mem_collect hnames h hr
  obtain ⟨t', f', hsite'⟩ := exists_site_of_mem_collect hnames h hr'
  rw [hsite.leads.outputType_eq hnames, hsite'.leads.outputType_eq hnames] at heq
  obtain ⟨o, ho⟩ := hsite.leads.exists_object
  have h₁ := hsite.leads.outputs_eq ho
  have h₂ := hsite'.leads.outputs_eq (heq ▸ ho)
  rw [hsite.leads.inputs_eq, hsite'.leads.inputs_eq]
  by_cases hb : o.IsBound
  · rw [h₁.1 hb, h₂.1 hb]
  · rw [h₁.2 hb, h₂.2 hb]

end Relationship

end RelationApi

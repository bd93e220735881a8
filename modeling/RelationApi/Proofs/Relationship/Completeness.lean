import RelationApi.Proofs.Relationship.Search
import RelationApi.Proofs.Schema.Permanence

/-!
# All relationships are found

A search that succeeds finds one relationship for each field of a node type that leads along one
(`Relationship.sites`), in the order of types and fields, and no others. Fields that are computed,
whose type is no object type, or whose type is a node type without their having a binding of their
own, are passed over.

What is found at a field is determined by the type of the field. If this is a relationship type,
then all but the place of the field comes from there, whatever the directives of the field are
(`Relationship.ThroughType`); if it is a node type, then the field's own binding says what the
relationship is, which has no properties (`Relationship.ThroughField`). `Schema.collect_sites` puts
this together for the types of a document.
-/

namespace RelationApi

open Sdl

/-- A loop that finds at most one thing at each item finds things at those items that have a
property, if it is the items with the property at which it finds something. -/
theorem forall₂_of_flatMapM {ε α β : Type} {g : α → Except ε (Option β)} {p : α → Prop}
    [DecidablePred p] {R : α → β → Prop} {as : List α} {bs : List β}
    (hnone : ∀ a ∈ as, g a = .ok none → ¬p a)
    (hsome : ∀ a ∈ as, ∀ b, g a = .ok (some b) → p a ∧ R a b)
    (h : (as.flatMapM fun a => Option.toList <$> g a) = .ok bs) :
    List.Forall₂ R (as.filter p) bs := by
  induction as generalizing bs with
  | nil =>
    obtain rfl : [] = bs := Except.ok.inj h
    exact .nil
  | cons a as ih =>
    rw [List.forall_mem_cons] at hnone hsome
    obtain ⟨cs, ds, hcs, hds, rfl⟩ := flatMapM_cons_eq_ok_iff.1 h
    obtain ⟨o, ho, rfl⟩ := except_map_eq_ok_iff.1 hcs
    have hrest := ih hnone.2 hsome.2 hds
    cases o with
    | none =>
      rw [List.filter_cons_of_neg (by simpa using hnone.1 ho)]
      exact hrest
    | some b =>
      obtain ⟨hp, hR⟩ := hsome.1 b ho
      rw [List.filter_cons_of_pos (by simpa using hp)]
      exact .cons hR hrest

theorem RelationshipType.endpoint_eq_ok_iff {t : ObjectType} {name n : String} :
    endpoint t name = .ok n ↔ ∃ f, t.field? name = some f ∧ n = f.type.typeName := by
  unfold endpoint
  cases t.field? name with
  | none => simp
  | some f => simp [eq_comm]

namespace Relationship

/-! ## What a field can lead along -/

/-- A field of a node type leads along a relationship : it is not computed, and its type is a
relationship type, or a node type and the field has a binding of its own. -/
def LeadsAlong (types : Registry String TypeDef) (f : Field) : Prop :=
  isComputed f.directives = false ∧ ∃ o ∈ objectType? types f.type.typeName,
    o.IsBound ∨ (binding? f.directives).isSome

instance (types : Registry String TypeDef) (f : Field) : Decidable (LeadsAlong types f) :=
  inferInstanceAs (Decidable (isComputed f.directives = false ∧
    ∃ o ∈ objectType? types f.type.typeName, o.IsBound ∨ (binding? f.directives).isSome))

/-- The fields of node types that lead along a relationship, each with its type, in the order of
types and fields. -/
def sites (types : Registry String TypeDef) : List (ObjectType × Field) :=
  ((objectsOf types).flatMap fun t => t.fields.map (Prod.mk t)).filter fun x =>
    ¬x.1.IsBound ∧ LeadsAlong types x.2

theorem sites_eq (types : Registry String TypeDef) :
    sites types = (nodeFields types).filter fun x => LeadsAlong types x.2 := by
  rw [sites, nodeFields, List.filter_flatMap, List.filter_flatMap]
  refine congrArg (fun g => List.flatMap g (objectsOf types)) (funext fun t => ?_)
  by_cases hb : t.IsBound
  · rw [if_pos hb]
    simp [hb]
  · rw [if_neg hb, List.filter_map, List.filter_map]
    simp [hb, Function.comp_def]

/-- The relationship takes its name, its ends and its properties from the relationship type `o`. -/
structure ThroughType (o : ObjectType) (r : Relationship) : Prop where
  name : ∃ x, AnnotationKind.relation.first? o.directives = some x ∧ r.name = x.attribute "name"
  fromType : ∃ f, o.field? fromField = some f ∧ r.fromType = f.type.typeName
  toType : ∃ f, o.field? toField = some f ∧ r.toType = f.type.typeName
  outputs : r.outputs = o.fields.filter fun f => f.name.text ≠ fromField ∧ f.name.text ≠ toField
  inputs : List.Forall₂ (fun v f =>
    v.name.text = f.name.text ∧ v.type = f.type ∧ v.directives = f.directives) r.inputs r.outputs

/-- A direction that leads towards the type that has the field. -/
def Inward (direction : Scalar) : Prop := ∃ s, direction = .text s ∧ Text.upper s = "IN"

/-- The relationship takes its name from the field `f` of the type `t`; its ends are this type and
the type of the field, in the order that the direction says, and there are no properties. -/
structure ThroughField (t : ObjectType) (f : Field) (r : Relationship) : Prop where
  binding : ∃ x, AnnotationKind.relation.first? f.directives = some x ∧
    r.name = x.attribute "name" ∧
    (Inward (x.attribute "direction") →
      r.fromType = f.type.typeName ∧ r.toType = t.name.text) ∧
    (¬Inward (x.attribute "direction") →
      r.fromType = t.name.text ∧ r.toType = f.type.typeName)
  outputs : r.outputs = []
  inputs : r.inputs = []

/-- The relationship is the one that the field `f` of the node type `t` leads along. -/
structure FoundAt (types : Registry String TypeDef) (t : ObjectType) (f : Field)
    (r : Relationship) : Prop where
  typeName : r.typeName = t.name.text
  fieldName : r.fieldName = f.name.text
  outputType : r.outputType = f.type.typeName
  ofType : ∃ o, types.find? f.type.typeName = some (.object o) ∧
    (o.IsBound → ThroughType o r) ∧ (¬o.IsBound → ThroughField t f r)

/-! ## What is found at a field -/

section Found

variable {types : Registry String TypeDef} {t o : ObjectType} {f : Field} {r : Relationship}

theorem throughType_throughType {q : RelationshipType}
    (hq : RelationshipType.of? o = .ok (some q)) :
    ThroughType o (throughType t.name.text f q) := by
  obtain ⟨b, hb, -, fromType, hfrom, toType, hto, rfl⟩ := RelationshipType.of?_eq_some_iff.1 hq
  obtain ⟨x, hx, rfl⟩ := Option.map_eq_some_iff.1 hb
  refine ⟨⟨x, hx, rfl⟩, RelationshipType.endpoint_eq_ok_iff.1 hfrom,
    RelationshipType.endpoint_eq_ok_iff.1 hto, RelationshipType.properties_eq _, ?_⟩
  exact List.forall₂_map_left_iff.2 (List.forall₂_same.2 fun f _ => ⟨rfl, rfl, rfl⟩)

/-- Without a text, or with an empty one, a direction is not inward. -/
theorem inward_iff {direction : Scalar} {inward : Bool} (h : isInward direction = .ok inward) :
    Inward direction ↔ inward = true := by
  unfold isInward at h
  split at h
  · next s =>
    obtain rfl := Except.ok.inj h
    rw [decide_eq_true_eq]
    by_cases hs : s = ""
    · subst hs
      exact iff_of_false (by simp [Inward, show Text.upper "" = "" by decide]) (by decide)
    · simp [Inward, hs]
  · cases h
  · obtain rfl := Except.ok.inj h
    simp [Inward]
  · obtain rfl := Except.ok.inj h
    simp [Inward]

theorem throughField_throughField {b : Binding} (hb : binding? f.directives = some b)
    (hr : throughField t.name.text f b = .ok r) : ThroughField t f r := by
  obtain ⟨x, hx, rfl⟩ := Option.map_eq_some_iff.1 hb
  obtain ⟨-, inward, hinward, rfl⟩ := throughField_eq_ok_iff.1 hr
  have hiff : Inward (x.attribute "direction") ↔ inward = true := inward_iff hinward
  refine ⟨⟨x, hx, rfl, fun h => ?_, fun h => ?_⟩, rfl, rfl⟩
  · rw [hiff.1 h]
    exact ⟨rfl, rfl⟩
  · rw [Bool.eq_false_iff.2 (mt hiff.2 h)]
    exact ⟨rfl, rfl⟩

theorem Leads.foundAt (hnames : KeptByName types) (h : Leads types t f r) :
    FoundAt types t f r := by
  have houtput := h.outputType_eq hnames
  cases h with
  | @type o q ho hq =>
    obtain ⟨-, hb⟩ := RelationshipType.type_of?_eq_some hq
    exact ⟨rfl, rfl, houtput, o, ho, fun _ => throughType_throughType hq, fun hnb => absurd hb hnb⟩
  | @field o b _ ho hnb hb hr =>
    have hfield := throughField_throughField hb hr
    obtain ⟨-, _, -, rfl⟩ := throughField_eq_ok_iff.1 hr
    exact ⟨rfl, rfl, houtput, o, ho, fun hb => absurd hb hnb, fun _ => hfield⟩

theorem Leads.leadsAlong (hf : isComputed f.directives = false) (h : Leads types t f r) :
    LeadsAlong types f := by
  refine ⟨hf, ?_⟩
  cases h with
  | @type o q ho hq =>
    exact ⟨o, objectType?_eq_some_iff.2 ho, Or.inl (RelationshipType.type_of?_eq_some hq).2⟩
  | @field o b _ ho _ hb _ =>
    exact ⟨o, objectType?_eq_some_iff.2 ho, Or.inr (by rw [hb]; rfl)⟩

/-- Wherever a field leads along a relationship, something is found or the search fails. -/
theorem LeadsAlong.lead?_ne (h : LeadsAlong types f) : lead? types t f ≠ .ok none := by
  obtain ⟨hf, o, ho, hor⟩ := h
  intro hnone
  by_cases hb : o.IsBound
  · rw [lead?_of_isBound hf ho hb] at hnone
    obtain ⟨q, hq, hmap⟩ := except_map_eq_ok_iff.1 hnone
    obtain rfl := Option.map_eq_none_iff.1 hmap
    exact RelationshipType.not_isBound_of?_eq_none (mapError_eq_ok_iff.1 hq) hb
  · obtain ⟨b, hbinding⟩ := Option.isSome_iff_exists.1 (hor.resolve_left hb)
    rw [lead?_of_not_isBound hf ho hb, hbinding] at hnone
    obtain ⟨_, -, hsome⟩ := except_map_eq_ok_iff.1 hnone
    exact Option.some_ne_none _ hsome

end Found

end Relationship

namespace Schema

open Relationship

variable {d : Document} {rs : List Relationship}

/-- A search that succeeds finds one relationship for each field of a node type that leads along
one, in the order of types and fields, and what it finds is what the field or its type says. -/
theorem collect_sites (h : collect (sorted d).defined = .ok rs) :
    rs.map (fun r => (r.typeName, r.fieldName)) =
      (sites (sorted d).defined).map (fun x => (x.1.name.text, x.2.name.text)) ∧
    List.Forall₂ (fun x => FoundAt (sorted d).defined x.1 x.2) (sites (sorted d).defined) rs := by
  have hnames := keptByName_defined d
  obtain ⟨relTypes, hrel, hrs⟩ := (collect_eq_ok_iff _).1 h
  rw [← ofTypes_eq, ofTypes_values_eq hnames hrel] at hrs
  have hfound : List.Forall₂ (fun x => FoundAt (sorted d).defined x.1 x.2)
      (sites (sorted d).defined) rs := by
    rw [sites_eq]
    refine forall₂_of_flatMapM (fun x _ hx hleads => hleads.lead?_ne hx) (fun x _ r hr => ?_) hrs
    rw [← ofField?_eq_lead? hnames hrel] at hr
    obtain ⟨hcomputed, hleads⟩ := leads_of_ofField? hnames hrel hr
    exact ⟨hleads.leadsAlong hcomputed, hleads.foundAt hnames⟩
  refine ⟨?_, hfound⟩
  rw [← List.forall₂_eq_eq_eq, List.forall₂_map_left_iff, List.forall₂_map_right_iff]
  exact hfound.flip.imp fun r x hx => Prod.ext hx.typeName hx.fieldName

/-- A field whose direction is inward in lower case, a field with a binding whose type is a
relationship type, which has ends of its own, and two fields of one name. A field that is computed
and fields that lead to a root or an interface are passed over, and so is what is on a root or an
interface. -/
theorem collect_sites_overlap :
    let bound (name direction : String) : Directive :=
      (Binding.mk ⟨.text name, .missing, .missing⟩ (.text direction)).toDirective
    let field (name type : String) (w : Wrapping) (ds : List Directive) : Field :=
      { name := { text := name }, type := .ofName type w, directives := ds }
    let object (name : String) (fields : List Field) : ObjectType :=
      { name := { text := name }, fields := fields }
    let d : Document := ⟨[
      .typeDef (.object (object "A" [
        field "bs" "B" { nonNullName := true, list := true } [bound "LIKES" "in"],
        field "rated" "R" { list := true } [bound "SAW" "OUT"],
        field "top" "B" {} [{ name := { text := "cypher" } }, bound "TOP" "OUT"],
        field "i" "I" {} [bound "I" "OUT"], field "query" "Query" {} [bound "Q" "OUT"]])),
      .typeDef (.object (object "B" [
        field "a" "A" {} [bound "FIRST" "OUT"], field "a" "A" {} [bound "SECOND" "OUT"]])),
      .typeDef (.interface (object "I" [field "a" "A" {} [bound "I" "OUT"]])),
      .typeDef (.object { object "R" [field "from" "A" {} [], field "to" "B" { list := true } [],
        field "stars" "Int" {} []] with directives := [bound "RATED" "OUT"] }),
      .typeDef (.object (object "Query" [field "a" "A" {} [bound "Q" "OUT"]]))]⟩
    ∃ rs, collect (sorted d).defined = .ok rs ∧
      rs.map (fun r => (r.typeName, r.fieldName)) =
        [("A", "bs"), ("A", "rated"), ("B", "a"), ("B", "a")] ∧
      rs.map (fun r => (r.fromType, r.toType)) =
        [("B", "A"), ("A", "B"), ("B", "A"), ("B", "A")] ∧
      List.Forall₂ (fun x => FoundAt (sorted d).defined x.1 x.2) (sites (sorted d).defined) rs := by
  intro bound field object d
  have hsites : (sites (sorted d).defined).map (fun x => (x.1.name.text, x.2.name.text)) =
      [("A", "bs"), ("A", "rated"), ("B", "a"), ("B", "a")] := by
    decide
  obtain ⟨rs, hrs, hends⟩ : ∃ rs, collect (sorted d).defined = .ok rs ∧
      rs.map (fun r => (r.fromType, r.toType)) =
        [("B", "A"), ("A", "B"), ("B", "A"), ("B", "A")] := by
    decide
  obtain ⟨hpairs, hfound⟩ := collect_sites hrs
  exact ⟨rs, hrs, hpairs.trans hsites, hends, hfound⟩

end Schema

end RelationApi

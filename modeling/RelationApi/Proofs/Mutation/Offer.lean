import Mathlib.Data.List.Flatten
import Mathlib.Tactic.SplitIfs
import RelationApi.Schema.Augment

/-!
# Offers

Adding the mutations for relationships is a row of offers to the mutation root. Each relationship
that the settings let through has two mutations (`Relationship.mutations`), and each mutation is
offered in turn (`Schema.Types.offer`) : the root takes it, with the types that go with it, unless a
field of its name is there already.

`addRelationships_eq_ok_iff` says when a run succeeds and what it makes of the types. Without a
mutation root every run succeeds and changes nothing; with one, the settings must have an answer for
each relationship, and each one that they let through needs a field name. Otherwise the run fails
with the fault of the first relationship that cannot be added (`addRelationships_eq_error_iff`).
-/

namespace RelationApi

open Sdl

/-- A mutation that a relationship can have. -/
structure Mutation where
  relationship : Relationship
  action : Action
deriving DecidableEq

namespace Mutation

variable (m : Mutation)

/-- The name of the mutation's field. -/
def name : String :=
  m.action.label ++ m.relationship.typeName ++ Text.capitalized m.relationship.fieldName

/-- The field of the mutation root. -/
def field (s : Settings) : Field :=
  m.relationship.mutationField s m.action m.name

@[simp] theorem name_field (s : Settings) : (m.field s).name.text = m.name := rfl

/-- The type that the mutation returns. -/
def payload : ObjectType :=
  m.relationship.payloadType m.action m.name

/-- The types that go with the mutation, under their names. -/
def generated : List (String × Definition) :=
  (m.relationship.generatedTypes m.action m.name).map fun t => (t.name, .typeDef t)

end Mutation

/-- The mutations of a relationship, in order. -/
def Relationship.mutations (r : Relationship) : List Mutation :=
  Action.all.map (Mutation.mk r)

namespace Settings

variable (s : Settings)

/-- The answer of the settings on the mutations of a relationship. -/
def mutates (r : Relationship) : Except SettingsFault Bool :=
  s.augmentsRelationship OperationKind.mutation.keyword r.fromType r.toType

/-- Only one of the settings is asked, first for one end and then for the other. -/
theorem mutates_eq (r : Relationship) : s.mutates r = do
    if ← admits s.mutation r.fromType then admits s.mutation r.toType else return false :=
  rfl

/-- Whether the settings let the mutations of a relationship through. -/
def letsThrough (r : Relationship) : Bool :=
  (s.mutates r).toOption.getD false

theorem letsThrough_of_ok {s : Settings} {r : Relationship} {b : Bool} (h : s.mutates r = .ok b) :
    s.letsThrough r = b := by
  rw [letsThrough, h]
  rfl

/-- The mutations that relationships are offered, in order. -/
def offers (rs : List Relationship) : List Mutation :=
  (rs.filter s.letsThrough).flatMap Relationship.mutations

theorem offers_cons (r : Relationship) (rs : List Relationship) :
    s.offers (r :: rs) = s.offers [r] ++ s.offers rs := by
  unfold offers
  rw [← List.flatMap_append, ← List.filter_append]
  rfl

/-- Relationships are offered for one by one. -/
theorem offers_append (rs rs' : List Relationship) :
    s.offers (rs ++ rs') = s.offers rs ++ s.offers rs' := by
  rw [offers, List.filter_append, List.flatMap_append]
  rfl

/-- The mutations offered are among those of all relationships. -/
theorem offers_sublist (rs : List Relationship) :
    (s.offers rs).Sublist (rs.flatMap Relationship.mutations) :=
  List.filter_sublist.flatMap _

theorem relationship_mem_of_mem_offers {rs : List Relationship} {m : Mutation}
    (hm : m ∈ s.offers rs) : m.relationship ∈ rs := by
  obtain ⟨r, hr, hmr⟩ := List.mem_flatMap.1 hm
  obtain ⟨a, -, rfl⟩ := List.mem_map.1 hmr
  exact (List.mem_filter.1 hr).1

/-- A relationship that can be added : the settings have an answer for it, and if they let it
through, its field has a name. -/
def CanAdd (r : Relationship) : Prop :=
  ∃ b, s.mutates r = .ok b ∧ (b = true → r.fieldName ≠ "")

/-- Why a relationship cannot be added, if it cannot. -/
def fault? (r : Relationship) : Option Fault :=
  match s.mutates r with
  | .error e => some (.settings e)
  | .ok true =>
    if r.fieldName = "" then some (.definition (.fieldNameEmpty r.typeName "")) else none
  | .ok false => none

/-- A relationship can be added if it has no fault. -/
theorem canAdd_iff {s : Settings} {r : Relationship} : s.CanAdd r ↔ s.fault? r = none := by
  rw [CanAdd, fault?]
  rcases s.mutates r with e | _ | _ <;> simp

end Settings

/-! ## The types that go with a mutation -/

theorem result_addGenerated (g : Registry String Definition) (t : TypeDef) :
    (addGenerated g t).result = .ok (g.insert t.name (.typeDef t)) := by
  unfold addGenerated
  cases g.find? t.name with
  | none => rfl
  | some old =>
    dsimp only
    split_ifs <;> rfl

/-- Generated types are put in one after another, and that never fails. -/
theorem result_addAllGenerated (g : Registry String Definition) (ts : List TypeDef) :
    (addAllGenerated g ts).result =
      .ok (g.insertAll (ts.map fun t => (t.name, .typeDef t))) := by
  induction ts generalizing g with
  | nil => rfl
  | cons t ts ih =>
    rw [addAllGenerated, Run.result_bind, result_addGenerated]
    exact ih _

theorem mutationName_of_ne (a : Action) (type : String) {field : String} (h : field ≠ "") :
    a.mutationName type field = .ok (a.label ++ type ++ Text.capitalized field) := by
  rw [Action.mutationName, if_neg (by simpa using h)]

theorem mutationName_empty (a : Action) (type : String) :
    a.mutationName type "" = .error (.fieldNameEmpty type "") :=
  rfl

namespace Schema.Types

/-! ## Offers -/

/-- Offer a mutation to the mutation root, if there is one. -/
def offer (s : Settings) (t : Types) (m : Mutation) : Types :=
  match t.roots.find? .mutation with
  | none => t
  | some root =>
    if (root.field? m.name).isSome then t
    else
      { t with
        generated := t.generated.insertAll m.generated
        roots := t.roots.insert .mutation (root.append (m.field s)) }

section Offer

variable (s : Settings) (t : Types) (m : Mutation)

theorem offer_of_none (h : t.roots.find? .mutation = none) : t.offer s m = t := by
  rw [offer, h]

/-- The root takes a mutation only if it has no field of that name. -/
theorem offer_of_some {root : ObjectType} (h : t.roots.find? .mutation = some root) :
    t.offer s m =
      if (root.field? m.name).isSome then t
      else
        { t with
          generated := t.generated.insertAll m.generated
          roots := t.roots.insert .mutation (root.append (m.field s)) } := by
  rw [offer, h]

@[simp] theorem defined_offer : (t.offer s m).defined = t.defined := by
  unfold offer
  split
  · rfl
  · split <;> rfl

theorem find?_roots_offer_of_ne {k : OperationKind} (hk : k ≠ .mutation) :
    (t.offer s m).roots.find? k = t.roots.find? k := by
  unfold offer
  split
  · rfl
  · split
    · rfl
    · exact Registry.find?_insert_of_ne _ hk _

theorem keys_roots_offer : (t.offer s m).roots.keys = t.roots.keys := by
  unfold offer
  split
  · rfl
  · next root h =>
    split
    · rfl
    · have hk := (t.roots.isSome_find?_iff .mutation).1 (by rw [h]; rfl)
      rw [Registry.keys_insert, if_pos hk]

/-- Without a mutation root, offers change nothing. -/
theorem foldl_offer_of_none (h : t.roots.find? .mutation = none) (ms : List Mutation) :
    ms.foldl (offer s) t = t := by
  induction ms with
  | nil => rfl
  | cons m ms ih => rw [List.foldl_cons, offer_of_none s t m h, ih]

/-- What offers leave alone : the defined types, and the roots of the other operations. -/
theorem foldl_offer_frame (ms : List Mutation) :
    (ms.foldl (offer s) t).defined = t.defined ∧
      (ms.foldl (offer s) t).roots.keys = t.roots.keys ∧
      ∀ k ≠ .mutation, (ms.foldl (offer s) t).roots.find? k = t.roots.find? k := by
  induction ms generalizing t with
  | nil => exact ⟨rfl, rfl, fun _ _ => rfl⟩
  | cons m ms ih =>
    obtain ⟨hd, hk, hf⟩ := ih (t.offer s m)
    exact ⟨hd.trans (defined_offer s t m), hk.trans (keys_roots_offer s t m),
      fun k h => (hf k h).trans (find?_roots_offer_of_ne s t m h)⟩

theorem isSome_roots_foldl_offer (ms : List Mutation) :
    ((ms.foldl (offer s) t).roots.find? .mutation).isSome =
      (t.roots.find? .mutation).isSome := by
  rw [Bool.eq_iff_iff, Registry.isSome_find?_iff, Registry.isSome_find?_iff,
    (foldl_offer_frame s t ms).2.1]

end Offer

/-! ## Adding as a row of offers -/

section Add

variable {s : Settings} {t t' : Types} {r : Relationship}

/-- A mutation is added as an offer, if its field has a name. -/
theorem result_addMutation {root : ObjectType} (hroot : t.roots.find? .mutation = some root)
    (hr : r.fieldName ≠ "") (a : Action) :
    (t.addMutation root s r a).result = .ok (t.offer s ⟨r, a⟩) := by
  rw [addMutation, mutationName_of_ne a r.typeName hr, offer_of_some s t _ hroot]
  change (if (root.field? (Mutation.name ⟨r, a⟩)).isSome then _ else _ : Run Fault Types).result = _
  split_ifs
  · rfl
  · rw [Run.result_bind, result_addAllGenerated]
    rfl

/-- Mutations are added as offers, one after another. -/
theorem result_addMutations (hr : r.fieldName ≠ "") (as : List Action) :
    (t.addMutations s r as).result = .ok ((as.map (Mutation.mk r)).foldl (offer s) t) := by
  induction as generalizing t with
  | nil => rfl
  | cons a as ih =>
    rw [addMutations]
    cases hroot : t.roots.find? .mutation with
    | none => rw [foldl_offer_of_none s t hroot]; rfl
    | some root =>
      dsimp only
      rw [Run.result_bind, result_addMutation hroot hr]
      exact ih

/-- Without a field name the first mutation of a relationship cannot be named. -/
theorem result_addMutations_error {root : ObjectType}
    (hroot : t.roots.find? .mutation = some root) (hr : r.fieldName = "") (a : Action)
    (as : List Action) : (t.addMutations s r (a :: as)).result =
      .error (.definition (.fieldNameEmpty r.typeName "")) := by
  rw [addMutations, hroot]
  dsimp only
  rw [Run.result_bind, addMutation, hr, mutationName_empty]
  rfl

theorem result_addRelationship_of_none (hroot : t.roots.find? .mutation = none) :
    (t.addRelationship s r).result = .ok t := by
  rw [addRelationship, Registry.contains, hroot]
  rfl

/-- With a root, what is added depends on whether the settings let the relationship through. -/
theorem result_addRelationship {root : ObjectType}
    (hroot : t.roots.find? .mutation = some root) : (t.addRelationship s r).result =
      match s.mutates r with
      | .error e => .error (.settings e)
      | .ok true => (t.addMutations s r Action.all).result
      | .ok false => .ok t := by
  rw [addRelationship, Registry.contains, hroot]
  change (Run.ofExcept ((s.mutates r).mapError Fault.settings) >>= _).result = _
  rcases s.mutates r with e | _ | _ <;> rfl

theorem offers_singleton_of_ok {b : Bool} (h : s.mutates r = .ok b) :
    s.offers [r] = if b then r.mutations else [] := by
  have hb : s.letsThrough r = b := Settings.letsThrough_of_ok h
  cases b <;> simp [Settings.offers, hb]

/-- Adding a relationship offers its mutations, if the settings let it through. -/
theorem addRelationship_eq_ok_iff : (t.addRelationship s r).result = .ok t' ↔
    ((t.roots.find? .mutation).isSome → s.CanAdd r) ∧ t' = (s.offers [r]).foldl (offer s) t := by
  cases hroot : t.roots.find? .mutation with
  | none =>
    rw [result_addRelationship_of_none hroot, foldl_offer_of_none s t hroot]
    simpa using eq_comm
  | some root =>
    rw [result_addRelationship hroot, Settings.CanAdd]
    cases hm : s.mutates r with
    | error e => simp
    | ok b =>
      rw [offers_singleton_of_ok hm]
      cases b with
      | false => simpa using eq_comm
      | true =>
        by_cases hr : r.fieldName = ""
        · simp [Action.all, result_addMutations_error hroot hr, hr]
        · simpa [result_addMutations hr, hr, Relationship.mutations] using eq_comm

/-- Adding relationships succeeds exactly when each can be added, or there is no mutation root; then
it offers the mutations of all of them, in order. -/
theorem addRelationships_eq_ok_iff {rs : List Relationship} :
    (t.addRelationships s rs).result = .ok t' ↔
      ((t.roots.find? .mutation).isSome → ∀ r ∈ rs, s.CanAdd r) ∧
        t' = (s.offers rs).foldl (offer s) t := by
  induction rs generalizing t with
  | nil => simpa [addRelationships, Settings.offers] using eq_comm
  | cons r rs ih =>
    rw [addRelationships, Run.result_bind_eq_ok_iff, Settings.offers_cons, List.foldl_append,
      List.forall_mem_cons]
    simp only [addRelationship_eq_ok_iff, ih]
    constructor
    · rintro ⟨u, ⟨hr, rfl⟩, hrs, rfl⟩
      rw [isSome_roots_foldl_offer] at hrs
      exact ⟨fun h => ⟨hr h, hrs h⟩, rfl⟩
    · rintro ⟨h, rfl⟩
      refine ⟨_, ⟨fun hroot => (h hroot).1, rfl⟩, fun hroot => (h ?_).2, rfl⟩
      rwa [isSome_roots_foldl_offer] at hroot

/-- Adding a relationship that cannot be added fails, if there is a mutation root. -/
theorem addRelationship_eq_error_iff {e : Fault} : (t.addRelationship s r).result = .error e ↔
    (t.roots.find? .mutation).isSome ∧ s.fault? r = some e := by
  cases hroot : t.roots.find? .mutation with
  | none => simp [result_addRelationship_of_none hroot]
  | some root =>
    rw [result_addRelationship hroot, Settings.fault?]
    rcases s.mutates r with e' | _ | _
    · simp
    · simp
    · by_cases hr : r.fieldName = ""
      · simp [Action.all, result_addMutations_error hroot hr, hr]
      · simp [result_addMutations hr, hr]

/-- The first relationship that cannot be added decides how a run fails. -/
theorem addRelationships_eq_error_iff {rs : List Relationship} {e : Fault} :
    (t.addRelationships s rs).result = .error e ↔
      (t.roots.find? .mutation).isSome ∧ rs.findSome? s.fault? = some e := by
  induction rs generalizing t with
  | nil => simp [addRelationships]
  | cons r rs ih =>
    rw [addRelationships, Run.result_bind_eq_error_iff, List.findSome?_cons]
    simp only [addRelationship_eq_error_iff, addRelationship_eq_ok_iff, ih]
    constructor
    · rintro (⟨hroot, he⟩ | ⟨_, ⟨hadd, rfl⟩, hroot, he⟩)
      · exact ⟨hroot, by rw [he]⟩
      · rw [isSome_roots_foldl_offer] at hroot
        exact ⟨hroot, by rwa [Settings.canAdd_iff.1 (hadd hroot)]⟩
    · rintro ⟨hroot, he⟩
      cases hfault : s.fault? r with
      | some e' => exact Or.inl ⟨hroot, by rwa [hfault] at he⟩
      | none =>
        rw [hfault] at he
        refine Or.inr ⟨_, ⟨fun _ => Settings.canAdd_iff.2 hfault, rfl⟩, ?_, he⟩
        rwa [isSome_roots_foldl_offer]

end Add

end Schema.Types

end RelationApi

import RelationApi.Proofs.Relationship.Sites

/-!
# The search, field by field

A search goes through the types twice : first for the relationship types, which have to be well
formed, and then for the fields of the node types. Once the first part is over, what a field leads
along can be told from the type that it has and from its own directives, without the list of the
relationship types (`Relationship.lead?`). So a search is a loop over all object types, which keeps
nothing but the failure, and a loop over the fields of all node types (`Relationship.collect_eq`).

A loop fails at the first item that fails, and as this one does (`flatMapM_eq_error_iff`).
-/

namespace RelationApi

open Sdl

/-! ## Loops that may fail -/

section Loop

variable {ε α β γ : Type}

theorem flatMapM_flatMap (f : β → Except ε (List γ)) (g : α → List β) (as : List α) :
    (as.flatMap g).flatMapM f = as.flatMapM fun a => (g a).flatMapM f := by
  induction as with
  | nil => rfl
  | cons a as ih => rw [List.flatMap_cons, flatMapM_append, List.flatMapM_cons, ih]

theorem flatMapM_map (f : β → Except ε (List γ)) (g : α → β) (as : List α) :
    (as.map g).flatMapM f = as.flatMapM fun a => f (g a) := by
  induction as with
  | nil => rfl
  | cons a as ih => rw [List.map_cons, List.flatMapM_cons, List.flatMapM_cons, ih]

theorem flatMapM_filterMap (f : β → Except ε (List γ)) (g : α → Option β) (as : List α) :
    (as.filterMap g).flatMapM f = as.flatMapM fun a => (g a).elim (.ok []) f := by
  induction as with
  | nil => rfl
  | cons a as ih =>
    rw [List.flatMapM_cons, ← ih]
    cases hg : g a with
    | none =>
      rw [List.filterMap_cons_none hg]
      cases (as.filterMap g).flatMapM f <;> rfl
    | some b => rw [List.filterMap_cons_some hg, List.flatMapM_cons, Option.elim_some]

theorem exists_flatMapM_eq_ok_iff {f : α → Except ε (List β)} {as : List α} :
    (∃ bs, as.flatMapM f = .ok bs) ↔ ∀ a ∈ as, ∃ bs, f a = .ok bs := by
  induction as with
  | nil => exact iff_of_true ⟨[], rfl⟩ fun _ h => absurd h List.not_mem_nil
  | cons a as ih =>
    rw [List.forall_mem_cons, ← ih]
    simp only [flatMapM_cons_eq_ok_iff]
    constructor
    · rintro ⟨_, bs, cs, hbs, hcs, -⟩
      exact ⟨⟨bs, hbs⟩, cs, hcs⟩
    · rintro ⟨⟨bs, hbs⟩, cs, hcs⟩
      exact ⟨_, bs, cs, hbs, hcs, rfl⟩

theorem flatMapM_cons_eq_error_iff {f : α → Except ε (List β)} {a : α} {as : List α} {e : ε} :
    (a :: as).flatMapM f = .error e ↔
      f a = .error e ∨ (∃ bs, f a = .ok bs) ∧ as.flatMapM f = .error e := by
  rw [List.flatMapM_cons, except_bind_eq_error_iff]
  simp only [except_bind_eq_error_iff, pure, Except.pure, reduceCtorEq, and_false, exists_false,
    or_false, exists_and_right]

/-- A loop fails at the first item that fails. -/
theorem flatMapM_eq_error_iff {f : α → Except ε (List β)} {as : List α} {e : ε} :
    as.flatMapM f = .error e ↔ ∃ before a after, as = before ++ a :: after ∧
      (∀ b ∈ before, ∃ bs, f b = .ok bs) ∧ f a = .error e := by
  induction as with
  | nil =>
    constructor
    · intro h
      cases h
    · rintro ⟨before, a, after, h, -⟩
      simp at h
  | cons a as ih =>
    rw [flatMapM_cons_eq_error_iff, ih]
    constructor
    · rintro (ha | ⟨ha, before, b, after, rfl, hbefore, hb⟩)
      · exact ⟨[], a, as, rfl, fun _ h => absurd h List.not_mem_nil, ha⟩
      · exact ⟨a :: before, b, after, rfl, List.forall_mem_cons.2 ⟨ha, hbefore⟩, hb⟩
    · rintro ⟨_ | ⟨_, before⟩, b, after, h, hbefore, hb⟩
      · obtain ⟨rfl, -⟩ := List.cons.inj h
        exact Or.inl hb
      · obtain ⟨rfl, rfl⟩ := List.cons.inj h
        rw [List.forall_mem_cons] at hbefore
        exact Or.inr ⟨hbefore.1, before, b, after, rfl, hbefore.2, hb⟩

end Loop

/-! ## Types and their fields -/

instance (t : ObjectType) : Decidable t.IsBound :=
  inferInstanceAs (Decidable ((binding? t.directives).isSome = true))

/-- The object types, in order. -/
def objectsOf (types : Registry String TypeDef) : List ObjectType :=
  types.values.filterMap TypeDef.object?

/-- The fields of the node types, each with its type, in the order of types and fields. -/
def nodeFields (types : Registry String TypeDef) : List (ObjectType × Field) :=
  (objectsOf types).flatMap fun t => if t.IsBound then [] else t.fields.map (Prod.mk t)

/-- The object type of a name. -/
def objectType? (types : Registry String TypeDef) (n : String) : Option ObjectType :=
  (types.find? n).bind TypeDef.object?

section Fields

variable {types : Registry String TypeDef} {t : ObjectType}

theorem object?_eq_some_iff {u : TypeDef} : u.object? = some t ↔ u = .object t := by
  cases u <;> simp [TypeDef.object?]

theorem objectType?_eq_some_iff {n : String} :
    objectType? types n = some t ↔ types.find? n = some (.object t) := by
  simp [objectType?, Option.bind_eq_some_iff, object?_eq_some_iff]

theorem mem_objectsOf_iff : t ∈ objectsOf types ↔ .object t ∈ types.values := by
  simp [objectsOf, object?_eq_some_iff]

theorem mem_nodeFields_iff {f : Field} :
    (t, f) ∈ nodeFields types ↔ t ∈ objectsOf types ∧ ¬t.IsBound ∧ f ∈ t.fields := by
  rw [nodeFields, List.mem_flatMap]
  constructor
  · rintro ⟨u, hu, hf⟩
    split at hf
    · simp at hf
    · next hb =>
      obtain ⟨g, hg, he⟩ := List.mem_map.1 hf
      obtain ⟨rfl, rfl⟩ := Prod.mk.inj he
      exact ⟨hu, hb, hg⟩
  · rintro ⟨ht, hb, hf⟩
    exact ⟨t, ht, by rw [if_neg hb]; exact List.mem_map_of_mem hf⟩

theorem objectType?_eq_some_iff_mem (hnames : KeptByName types) {n : String} :
    objectType? types n = some t ↔ t ∈ objectsOf types ∧ t.name.text = n := by
  rw [objectType?_eq_some_iff, mem_objectsOf_iff]
  constructor
  · intro h
    exact ⟨List.mem_map.2 ⟨_, Registry.mem_entries_iff.2 h, rfl⟩, hnames _ _ h⟩
  · rintro ⟨ht, rfl⟩
    exact Relationship.find?_name_of_mem_values hnames ht

end Fields

/-! ## The first part -/

namespace RelationshipType

theorem of?_of_not_isBound {t : ObjectType} (h : ¬t.IsBound) : of? t = .ok none := by
  have hnone : binding? t.directives = none := by simpa [ObjectType.IsBound] using h
  rw [of?, hnone]

/-- The search for relationship types looks at object types only. -/
theorem collect_values_eq (types : Registry String TypeDef) :
    collect types.values = (objectsOf types).flatMapM fun t => Option.toList <$> of? t := by
  rw [collect_eq, objectsOf, flatMapM_filterMap]
  exact flatMapM_congr fun t _ => by cases t <;> rfl

variable {types : Registry String TypeDef} (hnames : KeptByName types)
  {relTypes : List RelationshipType} (h : collect types.values = .ok relTypes)
include hnames h

/-- Under a name the search has found what the type of this name is. -/
theorem find?_collect_eq_some_iff {n : String} {q : RelationshipType} :
    (relTypes.find? fun q => q.type.name.text = n) = some q ↔
      ∃ o, objectType? types n = some o ∧ of? o = .ok (some q) := by
  have hmem {q : RelationshipType} (hq : (relTypes.find? fun q => q.type.name.text = n) = some q) :
      objectType? types n = some q.type ∧ of? q.type = .ok (some q) := by
    obtain rfl : q.type.name.text = n := by simpa using List.find?_some hq
    rw [objectType?_eq_some_iff]
    exact Relationship.of_mem_collect_types hnames h (List.mem_of_find?_eq_some hq)
  constructor
  · exact fun hq => ⟨q.type, hmem hq⟩
  · rintro ⟨o, ho, hq⟩
    obtain ⟨hmemo, hname⟩ := (objectType?_eq_some_iff_mem hnames).1 ho
    obtain ⟨_, ho', hsub⟩ := exists_of_collect h (mem_objectsOf_iff.1 hmemo)
    obtain rfl := Except.ok.inj (hq.symm.trans ho')
    rw [← (type_of?_eq_some hq).1] at hname
    have hsome : (relTypes.find? fun q => q.type.name.text = n).isSome :=
      List.find?_isSome.2 ⟨q, hsub (by simp), by simpa using hname⟩
    obtain ⟨q', hq'⟩ := Option.isSome_iff_exists.1 hsome
    obtain ⟨hfind, hof⟩ := hmem hq'
    cases ho.symm.trans hfind
    rw [hq', Option.some.inj (Except.ok.inj (hof.symm.trans hq))]

theorem any_collect_iff {t : ObjectType} (ht : t ∈ objectsOf types) :
    (relTypes.any fun q => q.type.name.text = t.name.text) ↔ t.IsBound := by
  constructor
  · intro hany
    obtain ⟨q, hq, hname⟩ := List.any_eq_true.1 hany
    obtain ⟨hq', ho⟩ := Relationship.of_mem_collect_types hnames h hq
    rw [of_decide_eq_true hname, ← objectType?_eq_some_iff,
      (objectType?_eq_some_iff_mem hnames).2 ⟨ht, rfl⟩] at hq'
    rw [Option.some.inj hq']
    exact (type_of?_eq_some ho).2
  · intro hb
    obtain ⟨q, hq, rfl⟩ := Relationship.exists_mem_of_isBound h (mem_objectsOf_iff.1 ht) hb
    exact List.any_eq_true.2 ⟨q, hq, by simp⟩

end RelationshipType

/-! ## The second part -/

namespace Relationship

/-- The relationship that the field of a node type leads along, if any, as the type of the field and
its directives tell. -/
def lead? (types : Registry String TypeDef) (t : ObjectType) (f : Field) :
    Except Fault (Option Relationship) :=
  if isComputed f.directives then .ok none
  else
    match objectType? types f.type.typeName with
    | none => .ok none
    | some o => do
      match ← (RelationshipType.of? o).mapError .definition with
      | some q => return some (throughType t.name.text f q)
      | none =>
        match binding? f.directives with
        | some b => some <$> throughField t.name.text f b
        | none => return none

section Lead

variable {types : Registry String TypeDef} {t o : ObjectType} {f : Field}

/-- Neither a computed field nor one whose type is no object type leads along a relationship. -/
theorem lead?_of_none (h : isComputed f.directives = true ∨
    objectType? types f.type.typeName = none) : lead? types t f = .ok none := by
  rw [lead?]
  rcases h with h | h
  · rw [if_pos h]
  · rw [h]
    exact ite_self _

variable (hf : isComputed f.directives = false)
  (ho : objectType? types f.type.typeName = some o)
include hf ho

/-- A field whose type is bound leads along the relationship type that this is, whatever its own
directives are. -/
theorem lead?_of_isBound (hb : o.IsBound) : lead? types t f =
    ((RelationshipType.of? o).mapError .definition).map fun q =>
      q.map (throughType t.name.text f) := by
  rw [lead?, if_neg (by simp [hf]), ho]
  dsimp only
  cases hq : RelationshipType.of? o with
  | error e => rfl
  | ok q =>
    cases q with
    | none => exact absurd hb (RelationshipType.not_isBound_of?_eq_none hq)
    | some q => rfl

/-- A field whose type is a node type leads along a relationship if it has a binding of its own. -/
theorem lead?_of_not_isBound (hb : ¬o.IsBound) : lead? types t f =
    (binding? f.directives).elim (.ok none) fun b => some <$> throughField t.name.text f b := by
  rw [lead?, if_neg (by simp [hf]), ho]
  dsimp only
  rw [RelationshipType.of?_of_not_isBound hb]
  cases binding? f.directives <;> rfl

end Lead

section Search

variable {types : Registry String TypeDef} (hnames : KeptByName types)
include hnames

theorem ofField?_eq_lead? {relTypes : List RelationshipType}
    (h : RelationshipType.collect types.values = .ok relTypes) (t : ObjectType) (f : Field) :
    ofField? types relTypes t.name.text f = lead? types t f := by
  have hiff (q : RelationshipType) := RelationshipType.find?_collect_eq_some_iff hnames h
    (n := f.type.typeName) (q := q)
  rw [ofField?, lead?]
  refine congrArg (ite _ _) ?_
  rw [← objectType?]
  cases ho : objectType? types f.type.typeName with
  | none =>
    have hnone : (relTypes.find? fun q => q.type.name.text = f.type.typeName) = none := by
      refine Option.eq_none_iff_forall_ne_some.2 fun q hq => ?_
      obtain ⟨o, ho', -⟩ := (hiff q).1 hq
      exact Option.some_ne_none o (ho'.symm.trans ho)
    rw [hnone]
  | some o =>
    obtain ⟨r, hr, -⟩ := RelationshipType.exists_of_collect h
      (mem_objectsOf_iff.1 ((objectType?_eq_some_iff_mem hnames).1 ho).1)
    have hrel : (relTypes.find? fun q => q.type.name.text = f.type.typeName) = r := by
      refine Option.ext fun q => (hiff q).trans ⟨?_, fun hq => ⟨o, ho, by rw [hr, hq]⟩⟩
      rintro ⟨o', ho', hq⟩
      obtain rfl := Option.some.inj (ho.symm.trans ho')
      exact Except.ok.inj (hr.symm.trans hq)
    dsimp only
    rw [hrel, hr]
    cases r with
    | some q => rfl
    | none => cases binding? f.directives <;> rfl

/-- After the first part, the second part is a loop over the fields of the node types. -/
theorem ofTypes_values_eq {relTypes : List RelationshipType}
    (h : RelationshipType.collect types.values = .ok relTypes) :
    ofTypes types relTypes types.values =
      (nodeFields types).flatMapM fun x => Option.toList <$> lead? types x.1 x.2 := by
  have hobject : ∀ t ∈ types.values, ofType types relTypes t =
      t.object?.elim (.ok []) fun t => ofType types relTypes (.object t) :=
    fun t _ => by cases t <;> rfl
  rw [ofTypes_eq, flatMapM_congr hobject, ← flatMapM_filterMap, nodeFields, flatMapM_flatMap]
  refine flatMapM_congr fun t ht => ?_
  have hany := RelationshipType.any_collect_iff hnames h ht
  rw [ofType, ofFields_eq]
  by_cases hb : t.IsBound
  · rw [if_pos (hany.2 hb), if_pos hb]
    rfl
  · rw [if_neg (mt hany.1 hb), if_neg hb, flatMapM_map]
    simp only [ofField?_eq_lead? hnames h]

/-- A search checks the object types, and then goes through the fields of the node types. -/
theorem collect_eq : collect types =
    ((objectsOf types).flatMapM fun t =>
      Option.toList <$> RelationshipType.of? t).mapError Fault.definition >>= fun _ =>
        (nodeFields types).flatMapM fun x => Option.toList <$> lead? types x.1 x.2 := by
  rw [collect, ← RelationshipType.collect_values_eq]
  cases h : RelationshipType.collect types.values with
  | error e => rfl
  | ok relTypes => exact ofTypes_values_eq hnames h

end Search

end Relationship

end RelationApi

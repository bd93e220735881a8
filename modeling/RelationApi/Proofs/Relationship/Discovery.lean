import RelationApi.Proofs.Failure
import RelationApi.Relationship.Discovery

/-!
# Which relationships are found

The three loops of the search put together what they find item by item, and the first failure ends
them. They are `List.flatMapM` of what is found at one item (`RelationshipType.collect_eq`,
`Relationship.ofFields_eq`, `Relationship.ofTypes_eq`), so a search over more types is the search
over the old ones, followed by one over the rest.

`Relationship.collect_append` is about types that were added behind others : if the old types do not
mention them, and each object type among them is a relationship type, then the search finds the same
relationships as before.
-/

namespace RelationApi

open Sdl

/-! ## Loops that may fail -/

section Loop

variable {ε α β : Type}

theorem flatMapM_append (f : α → Except ε (List β)) (as as' : List α) :
    (as ++ as').flatMapM f = do return (← as.flatMapM f) ++ (← as'.flatMapM f) := by
  induction as with
  | nil => simp
  | cons a as ih =>
    simp only [List.cons_append, List.flatMapM_cons, ih, bind_assoc, pure_bind, List.append_assoc]

theorem flatMapM_cons_eq_ok_iff {f : α → Except ε (List β)} {a : α} {as : List α} {bs : List β} :
    (a :: as).flatMapM f = .ok bs ↔
      ∃ cs ds, f a = .ok cs ∧ as.flatMapM f = .ok ds ∧ bs = cs ++ ds := by
  rw [List.flatMapM_cons, except_bind_eq_ok_iff]
  simp only [except_bind_eq_ok_iff, pure, Except.pure, Except.ok.injEq]
  grind

theorem flatMapM_congr {f g : α → Except ε (List β)} {as : List α} (h : ∀ a ∈ as, f a = g a) :
    as.flatMapM f = as.flatMapM g := by
  induction as with
  | nil => rfl
  | cons a as ih =>
    rw [List.forall_mem_cons] at h
    rw [List.flatMapM_cons, List.flatMapM_cons, h.1, ih h.2]

/-- If each round over changed items gives what it gave before, changed, then so does the loop. -/
theorem flatMapM_map_comm {α' β' : Type} {f : α → Except ε (List β)}
    {f' : α' → Except ε (List β')} {p : α → α'} {q : β → β'} {as : List α}
    (h : ∀ a ∈ as, f' (p a) = List.map q <$> f a) :
    (as.map p).flatMapM f' = List.map q <$> as.flatMapM f := by
  induction as with
  | nil => rfl
  | cons a as ih =>
    rw [List.forall_mem_cons] at h
    rw [List.map_cons, List.flatMapM_cons, List.flatMapM_cons, h.1, ih h.2]
    cases f a with
    | error e => rfl
    | ok bs =>
      cases as.flatMapM f with
      | error e => rfl
      | ok cs => exact congrArg Except.ok List.map_append.symm

/-- What such a loop gives was found at one of the items. -/
theorem exists_of_mem_flatMapM {f : α → Except ε (List β)} {as : List α} {bs : List β}
    (h : as.flatMapM f = .ok bs) {b : β} (hb : b ∈ bs) : ∃ a ∈ as, ∃ cs, f a = .ok cs ∧ b ∈ cs := by
  induction as generalizing bs with
  | nil =>
    obtain rfl : [] = bs := Except.ok.inj h
    simp at hb
  | cons a as ih =>
    obtain ⟨cs, ds, hcs, hds, rfl⟩ := flatMapM_cons_eq_ok_iff.1 h
    rcases List.mem_append.1 hb with hb | hb
    · exact ⟨a, List.mem_cons_self, cs, hcs, hb⟩
    · obtain ⟨a', ha', h'⟩ := ih hds hb
      exact ⟨a', List.mem_cons_of_mem a ha', h'⟩

/-- If such a loop succeeds, then so does each of its rounds, and nothing that a round finds is
lost. -/
theorem exists_subset_of_flatMapM {f : α → Except ε (List β)} {as : List α} {bs : List β}
    (h : as.flatMapM f = .ok bs) {a : α} (ha : a ∈ as) : ∃ cs, f a = .ok cs ∧ cs ⊆ bs := by
  induction as generalizing bs with
  | nil => simp at ha
  | cons a' as ih =>
    obtain ⟨cs, ds, hcs, hds, rfl⟩ := flatMapM_cons_eq_ok_iff.1 h
    rcases List.mem_cons.1 ha with rfl | ha
    · exact ⟨cs, hcs, List.subset_append_left _ _⟩
    · obtain ⟨es, hes, hsub⟩ := ih hds ha
      exact ⟨es, hes, List.Subset.trans hsub (List.subset_append_right _ _)⟩

theorem flatMapM_eq_nil {f : α → Except ε (List β)} {as : List α} (h : ∀ a ∈ as, f a = .ok []) :
    as.flatMapM f = .ok [] := by
  induction as with
  | nil => rfl
  | cons a as ih =>
    rw [List.forall_mem_cons] at h
    rw [List.flatMapM_cons, h.1, ih h.2]
    rfl

end Loop

/-! ## Relationship types -/

namespace RelationshipType

/-- The relationship type that a type is, if it is one. -/
def found : TypeDef → Except DefinitionFault (List RelationshipType)
  | .object t => Option.toList <$> of? t
  | _ => .ok []

theorem collect_eq (ts : List TypeDef) : collect ts = ts.flatMapM found := by
  induction ts with
  | nil => rfl
  | cons t ts ih =>
    rw [List.flatMapM_cons, ← ih]
    cases t with
    | object t =>
      rw [collect, found]
      cases of? t <;> rfl
    | _ =>
      change collect ts = do return [] ++ (← collect ts)
      cases collect ts <;> rfl

/-- An object type is a relationship type if it is bound to a relationship that has a name, and has
a field for each end. -/
theorem of?_eq_some_iff {t : ObjectType} {r : RelationshipType} :
    of? t = .ok (some r) ↔ ∃ b, binding? t.directives = some b ∧ b.link.name.isGiven ∧
      ∃ fromType, endpoint t fromField = .ok fromType ∧
        ∃ toType, endpoint t toField = .ok toType ∧
          (⟨t, b.link.name, fromType, toType⟩ : RelationshipType) = r := by
  unfold of?
  cases hb : binding? t.directives with
  | none => simp
  | some b =>
    simp only [Option.some.injEq, exists_eq_left']
    cases b.link.name.isGiven with
    | false => exact iff_of_false nofun nofun
    | true =>
      cases endpoint t fromField with
      | error e => exact iff_of_false nofun nofun
      | ok fromType =>
        cases endpoint t toField with
        | error e => exact iff_of_false nofun nofun
        | ok toType =>
          change Except.ok (some (RelationshipType.mk t b.link.name fromType toType)) = _ ↔ _
          simp

theorem of?_of_mem_collect {ts : List TypeDef} {relTypes : List RelationshipType}
    (h : collect ts = .ok relTypes) {r : RelationshipType} (hr : r ∈ relTypes) :
    ∃ t, .object t ∈ ts ∧ of? t = .ok (some r) := by
  rw [collect_eq] at h
  obtain ⟨t, ht, cs, hcs, hr⟩ := exists_of_mem_flatMapM h hr
  cases t with
  | object t =>
    obtain ⟨o, ho, rfl⟩ := except_map_eq_ok_iff.1 hcs
    exact ⟨t, ht, by rw [ho, Option.mem_toList.1 hr]⟩
  | _ =>
    obtain rfl := Except.ok.inj hcs
    simp at hr

/-- If the search succeeds, the relationship types among the types are found. -/
theorem exists_of_collect {ts : List TypeDef} {relTypes : List RelationshipType}
    (h : collect ts = .ok relTypes) {t : ObjectType} (ht : .object t ∈ ts) :
    ∃ o, of? t = .ok o ∧ o.toList ⊆ relTypes := by
  rw [collect_eq] at h
  obtain ⟨cs, hcs, hsub⟩ := exists_subset_of_flatMapM h ht
  obtain ⟨o, ho, rfl⟩ := except_map_eq_ok_iff.1 hcs
  exact ⟨o, ho, hsub⟩

/-- If all object types are relationship types, then all of them are found. -/
theorem exists_collect_of_forall {ts : List TypeDef}
    (h : ∀ t, .object t ∈ ts → ∃ r, of? t = .ok (some r)) :
    ∃ relTypes, collect ts = .ok relTypes ∧
      relTypes.map RelationshipType.type = ts.filterMap TypeDef.object? := by
  induction ts with
  | nil => exact ⟨[], rfl, rfl⟩
  | cons t ts ih =>
    obtain ⟨relTypes, hts, hmap⟩ := ih fun t' ht' => h t' (List.mem_cons_of_mem t ht')
    cases t with
    | object t =>
      obtain ⟨r, hr⟩ := h t List.mem_cons_self
      obtain ⟨b, -, -, fromType, -, toType, -, hrt⟩ := of?_eq_some_iff.1 hr
      refine ⟨r :: relTypes, by rw [collect, hr, hts]; rfl, ?_⟩
      rw [List.map_cons, hmap, ← hrt]
      rfl
    | _ => exact ⟨relTypes, hts, hmap⟩

end RelationshipType

namespace Relationship

/-! ## Relationships on node types -/

section Search

variable (types : Registry String TypeDef) (relTypes : List RelationshipType)

theorem ofFields_eq (typeName : String) (fs : List Field) :
    ofFields types relTypes typeName fs =
      fs.flatMapM fun f => Option.toList <$> ofField? types relTypes typeName f := by
  induction fs with
  | nil => rfl
  | cons f fs ih =>
    rw [List.flatMapM_cons, ← ih, ofFields]
    cases ofField? types relTypes typeName f <;> rfl

/-- A field with `@relation` needs a name for the relationship, and a direction that can be read. -/
theorem throughField_eq_ok_iff {typeName : String} {f : Field} {b : Binding} {r : Relationship} :
    throughField typeName f b = .ok r ↔ b.link.name.isGiven ∧
      ∃ inward, isInward b.direction = .ok inward ∧
        { typeName := typeName
          fieldName := f.name.text
          outputType := f.type.typeName
          fromType := if inward then f.type.typeName else typeName
          toType := if inward then typeName else f.type.typeName
          name := b.link.name } = r := by
  unfold throughField
  cases b.link.name.isGiven with
  | false => exact iff_of_false nofun nofun
  | true =>
    cases isInward b.direction with
    | error e => exact iff_of_false nofun nofun
    | ok inward =>
      change Except.ok (Relationship.mk typeName f.name.text f.type.typeName _ _ _ [] []) = _ ↔ _
      simp

/-- The relationships on a type, if it is a node type. -/
def ofType : TypeDef → Except Fault (List Relationship)
  | .object t =>
    if relTypes.any fun r => r.type.name.text = t.name.text then .ok []
    else ofFields types relTypes t.name.text t.fields
  | _ => .ok []

theorem ofTypes_eq (ts : List TypeDef) :
    ofTypes types relTypes ts = ts.flatMapM (ofType types relTypes) := by
  induction ts with
  | nil => rfl
  | cons t ts ih =>
    rw [List.flatMapM_cons, ← ih]
    cases t with
    | object t => rw [ofTypes, ofType]; split <;> rfl
    | _ =>
      change ofTypes types relTypes ts = do return [] ++ (← ofTypes types relTypes ts)
      cases ofTypes types relTypes ts <;> rfl

/-- A search succeeds if the relationship types are found, and then what is on the node types. -/
theorem collect_eq_ok_iff {rs : List Relationship} : collect types = .ok rs ↔
    ∃ relTypes, RelationshipType.collect types.values = .ok relTypes ∧
      types.values.flatMapM (ofType types relTypes) = .ok rs := by
  simp only [collect, except_bind_eq_ok_iff, mapError_eq_ok_iff, ofTypes_eq]

/-- A relationship that is found is on a field of an object type. -/
theorem exists_of_mem_collect {rs : List Relationship} (h : collect types = .ok rs)
    {r : Relationship} (hr : r ∈ rs) : ∃ relTypes t f,
      RelationshipType.collect types.values = .ok relTypes ∧ .object t ∈ types.values ∧
      f ∈ t.fields ∧ ofField? types relTypes t.name.text f = .ok (some r) := by
  obtain ⟨relTypes, hrel, hrs⟩ := (collect_eq_ok_iff types).1 h
  obtain ⟨t, ht, cs, hcs, hr⟩ := exists_of_mem_flatMapM hrs hr
  unfold ofType at hcs
  split at hcs
  · next t =>
    split at hcs
    · obtain rfl := Except.ok.inj hcs
      simp at hr
    · rw [ofFields_eq] at hcs
      obtain ⟨f, hf, ds, hds, hr⟩ := exists_of_mem_flatMapM hcs hr
      obtain ⟨o, ho, rfl⟩ := except_map_eq_ok_iff.1 hds
      exact ⟨relTypes, t, f, hrel, ht, hf, by rw [ho, Option.mem_toList.1 hr]⟩
  · obtain rfl := Except.ok.inj hcs
    simp at hr

end Search

/-- Whatever leads along a relationship, the relationship has a name. -/
theorem isGiven_of_mem_collect {types : Registry String TypeDef} {rs : List Relationship}
    (h : collect types = .ok rs) {r : Relationship} (hr : r ∈ rs) : r.name.isGiven := by
  obtain ⟨relTypes, t, f, hrel, -, -, hf⟩ := exists_of_mem_collect types h hr
  unfold ofField? at hf
  split at hf
  · cases hf
  · split at hf
    · next q hq =>
      obtain ⟨u, -, hu⟩ := RelationshipType.of?_of_mem_collect hrel (List.mem_of_find?_eq_some hq)
      obtain ⟨b, -, hb, _, -, _, -, rfl⟩ := RelationshipType.of?_eq_some_iff.1 hu
      obtain rfl := Option.some.inj (Except.ok.inj hf)
      exact hb
    · split at hf
      · next b _ hb =>
        obtain ⟨r', hr', he⟩ := except_map_eq_ok_iff.1 hf
        obtain rfl := Option.some.inj he
        obtain ⟨hname, inward, -, rfl⟩ := throughField_eq_ok_iff.1 hr'
        exact hname
      · cases hf

/-! ## More types -/

/-- The names that count for the relationships on a type : its own, and those of the types of its
fields. -/
def namesOf : TypeDef → List String
  | .object t => t.name.text :: t.fields.map fun f => f.type.typeName
  | t => [t.name]

section Added

variable {types types' : Registry String TypeDef} {added : List TypeDef}

/-- A type that mentions none of the added ones leads along the same relationships as before. -/
theorem ofType_append (hentries : types'.entries = types.entries ++ added.map fun t => (t.name, t))
    {relTypes more : List RelationshipType}
    (hmore : more.map RelationshipType.type = added.filterMap TypeDef.object?) {t : TypeDef}
    (ht : ∀ n ∈ added.map TypeDef.name, n ∉ namesOf t) :
    ofType types' (relTypes ++ more) t = ofType types relTypes t := by
  have hnone : ∀ n ∈ namesOf t, ∀ r ∈ more, r.type.name.text ≠ n := by
    rintro n hn r hr rfl
    have hr : r.type ∈ added.filterMap TypeDef.object? := hmore ▸ List.mem_map_of_mem hr
    obtain ⟨u, hu, hobject⟩ := List.mem_filterMap.1 hr
    have hname : u.name = r.type.name.text := by
      cases u <;> cases hobject
      rfl
    exact ht _ (List.mem_map.2 ⟨u, hu, hname⟩) hn
  have hfind : ∀ n ∈ namesOf t, types'.find? n = types.find? n := fun n hn =>
    Registry.find?_of_entries_append hentries fun h => ht n (by simpa using h) hn
  cases t with
  | object t =>
    have hany : (more.any fun r => r.type.name.text = t.name.text) = false := by
      simpa using hnone _ List.mem_cons_self
    rw [ofType, ofType, List.any_append, hany, Bool.or_false, ofFields_eq, ofFields_eq]
    refine congrArg (ite _ _) (flatMapM_congr fun f hf => ?_)
    have hf : f.type.typeName ∈ namesOf (.object t) :=
      List.mem_cons_of_mem _ (List.mem_map_of_mem hf)
    have hmore : (more.find? fun r => r.type.name.text = f.type.typeName) = none := by
      simpa using hnone _ hf
    rw [ofField?, ofField?, List.find?_append, hmore, Option.or_none, hfind _ hf]
  | _ => rfl

/-- Types that are added behind the others lead along no relationships, and change nothing for the
others, if they are not mentioned there and the object types among them are relationship types. -/
theorem collect_append (hentries : types'.entries = types.entries ++ added.map fun t => (t.name, t))
    (hnew : ∀ t ∈ types.values, ∀ n ∈ added.map TypeDef.name, n ∉ namesOf t)
    (hbound : ∀ t, .object t ∈ added → ∃ r, RelationshipType.of? t = .ok (some r)) :
    collect types' = collect types := by
  have hvalues : types'.values = types.values ++ added := by
    simp [Registry.values, hentries, Function.comp_def]
  obtain ⟨more, hcollect, hmore⟩ := RelationshipType.exists_collect_of_forall hbound
  have hsum : RelationshipType.collect types'.values = do
      return (← RelationshipType.collect types.values) ++ more := by
    rw [hvalues, RelationshipType.collect_eq, flatMapM_append, ← RelationshipType.collect_eq,
      ← RelationshipType.collect_eq, hcollect]
    rfl
  rw [collect, collect, hsum]
  cases RelationshipType.collect types.values with
  | error e => rfl
  | ok relTypes =>
    have hold : ∀ t ∈ types.values, ofType types' (relTypes ++ more) t = ofType types relTypes t :=
      fun t ht => ofType_append hentries hmore (hnew t ht)
    have hadded : ∀ t ∈ added, ofType types' (relTypes ++ more) t = .ok [] := by
      intro t ht
      cases t with
      | object t =>
        have ht' : t ∈ more.map RelationshipType.type :=
          hmore ▸ List.mem_filterMap.2 ⟨_, ht, rfl⟩
        obtain ⟨r, hr, rfl⟩ := List.mem_map.1 ht'
        rw [ofType, if_pos]
        exact List.any_eq_true.2 ⟨r, List.mem_append_right _ hr, by simp⟩
      | _ => rfl
    change ofTypes types' (relTypes ++ more) types'.values = ofTypes types relTypes types.values
    rw [ofTypes_eq, ofTypes_eq, hvalues, flatMapM_append, flatMapM_congr hold,
      flatMapM_eq_nil hadded]
    cases types.values.flatMapM (ofType types relTypes) with
    | error e => rfl
    | ok rs => exact congrArg Except.ok (List.append_nil rs)

end Added

end Relationship

end RelationApi

import RelationApi.Proofs.Mutation.Offer

/-!
# The order of mutations

Which fields a row of offers leaves in the mutation root. The root takes the first mutation of each
name that none of its own fields has (`Mutation.accepted`), and puts the fields of these after its
own (`Schema.Types.foldl_offer_of_some`). So of several relationships with the same name for a
mutation the first one has it, whatever comes later.

`addRelationships_fields` is the whole run : the root's own fields stay in front, the names behind
them are those of all offers without the taken ones and without repetitions, and the field of each
name is that of the first offer with the name.
-/

namespace RelationApi

open Sdl

namespace Sdl.ObjectType

/-- The names of the fields, in order. -/
def fieldNames (t : ObjectType) : List String :=
  t.fields.map fun f => f.name.text

/-- The type with more fields, after its own. -/
def extend (t : ObjectType) (fs : List Field) : ObjectType :=
  { t with fields := t.fields ++ fs }

@[simp] theorem extend_nil (t : ObjectType) : t.extend [] = t := by
  simp [extend]

theorem extend_append (t : ObjectType) (f : Field) (fs : List Field) :
    (t.append f).extend fs = t.extend (f :: fs) := by
  simp [extend, append]

@[simp] theorem fieldNames_append (t : ObjectType) (f : Field) :
    (t.append f).fieldNames = t.fieldNames ++ [f.name.text] := by
  simp [fieldNames, append]

@[simp] theorem fieldNames_extend (t : ObjectType) (fs : List Field) :
    (t.extend fs).fieldNames = t.fieldNames ++ fs.map fun f => f.name.text := by
  simp [fieldNames, extend]

theorem isSome_field?_iff (t : ObjectType) (n : String) :
    (t.field? n).isSome ↔ n ∈ t.fieldNames := by
  simp [field?, Field.find?, fieldNames]

end Sdl.ObjectType

namespace Mutation

/-! ## The first of each new name -/

/-- The mutations that a root takes if the names are those of its fields : the first of each name
that is not among them. -/
def accepted (names : List String) : List Mutation → List Mutation
  | [] => []
  | m :: ms =>
    if m.name ∈ names then accepted names ms
    else m :: accepted (names ++ [m.name]) ms

theorem name_notMem_of_mem_accepted {m : Mutation} :
    ∀ {ms : List Mutation} {names : List String}, m ∈ accepted names ms → m.name ∉ names
  | [], _, h => by simp [accepted] at h
  | m' :: ms, names, h => by
    rw [accepted] at h
    split at h
    · exact name_notMem_of_mem_accepted h
    · next hm' =>
      rcases List.mem_cons.1 h with rfl | h
      · exact hm'
      · exact fun hm => name_notMem_of_mem_accepted h (List.mem_append_left _ hm)

theorem accepted_sublist (ms : List Mutation) (names : List String) :
    (accepted names ms).Sublist ms := by
  induction ms generalizing names with
  | nil => exact .slnil
  | cons m ms ih =>
    rw [accepted]
    split
    · exact (ih names).cons m
    · exact (ih _).cons_cons m

/-- The names of the mutations taken : all names, but for those taken before and repetitions. -/
theorem map_name_accepted (ms : List Mutation) (names : List String) :
    (accepted names ms).map name = ((ms.map name).filter (· ∉ names)).eraseDups := by
  induction ms generalizing names with
  | nil => rfl
  | cons m ms ih =>
    rw [accepted, List.map_cons]
    split
    · next h => rw [ih, List.filter_cons_of_neg (by simpa using h)]
    · next h =>
      rw [List.map_cons, ih, List.filter_cons_of_pos (by simpa using h), List.eraseDups_cons,
        List.filter_filter]
      congr 3
      funext n
      by_cases hn : n = m.name <;> simp [hn]

theorem nodup_accepted (ms : List Mutation) (names : List String) :
    ((accepted names ms).map name).Nodup := by
  induction ms generalizing names with
  | nil => simp [accepted]
  | cons m ms ih =>
    rw [accepted]
    split
    · exact ih names
    · refine List.nodup_cons.2 ⟨fun hm => ?_, ih _⟩
      obtain ⟨m', hm', he⟩ := List.mem_map.1 hm
      exact name_notMem_of_mem_accepted hm' (by simp [he])

/-- A root that has taken the first mutations knows their names when it comes to the others. -/
theorem accepted_append (ms ms' : List Mutation) (names : List String) :
    accepted names (ms ++ ms') =
      accepted names ms ++ accepted (names ++ (accepted names ms).map name) ms' := by
  induction ms generalizing names with
  | nil => simp [accepted]
  | cons m ms ih =>
    rw [List.cons_append, accepted, accepted]
    split
    · exact ih names
    · simp [ih]

/-- A mutation is taken only if it is the first of its name. -/
theorem find?_of_mem_accepted {m : Mutation} :
    ∀ {ms : List Mutation} {names : List String}, m ∈ accepted names ms →
      (ms.find? fun m' => m'.name = m.name) = some m
  | [], _, h => by simp [accepted] at h
  | m' :: ms, names, h => by
    have hm := name_notMem_of_mem_accepted h
    rw [accepted] at h
    split at h
    · next hm' =>
      have hne : m'.name ≠ m.name := fun he => hm (he ▸ hm')
      rw [List.find?_cons_of_neg (by simpa using hne)]
      exact find?_of_mem_accepted h
    · rcases List.mem_cons.1 h with rfl | h
      · simp
      · have hne : m'.name ≠ m.name := fun he =>
          name_notMem_of_mem_accepted h (by simp [he])
        rw [List.find?_cons_of_neg (by simpa using hne)]
        exact find?_of_mem_accepted h

/-- A name that is offered is taken, unless it is there already. -/
theorem name_mem_accepted {m : Mutation} {ms : List Mutation} {names : List String} (h : m ∈ ms)
    (hm : m.name ∉ names) : m.name ∈ (accepted names ms).map name := by
  rw [map_name_accepted]
  simpa [hm] using ⟨m, h, rfl⟩

end Mutation

namespace Schema.Types

/-! ## What a row of offers makes of the types -/

/-- A row of offers adds the mutations that the root takes, in order. -/
theorem foldl_offer_of_some (s : Settings) (ms : List Mutation) {t : Types} {root : ObjectType}
    (hroot : t.roots.find? .mutation = some root) :
    ms.foldl (offer s) t =
      { t with
        generated := t.generated.insertAll
          ((Mutation.accepted root.fieldNames ms).flatMap Mutation.generated)
        roots := t.roots.insert .mutation
          (root.extend ((Mutation.accepted root.fieldNames ms).map fun m => m.field s)) } := by
  induction ms generalizing t root with
  | nil =>
    rw [Mutation.accepted, List.map_nil, ObjectType.extend_nil,
      Registry.insert_of_find?_eq_some hroot]
    rfl
  | cons m ms ih =>
    rw [List.foldl_cons, offer_of_some s t m hroot, Mutation.accepted]
    by_cases hm : m.name ∈ root.fieldNames
    · rw [if_pos ((root.isSome_field?_iff m.name).2 hm), if_pos hm]
      exact ih hroot
    · rw [if_neg (mt (root.isSome_field?_iff m.name).1 hm), if_neg hm,
        ih (Registry.find?_insert_self _ _ _), List.flatMap_cons, List.map_cons,
        Registry.insertAll_append, Registry.insert_insert, ObjectType.extend_append,
        ObjectType.fieldNames_append]
      rfl

/-- The mutations that the root takes out of those it is offered; without a root, none. -/
def taken (t : Types) (ms : List Mutation) : List Mutation :=
  match t.roots.find? .mutation with
  | none => []
  | some root => Mutation.accepted root.fieldNames ms

theorem taken_of_some {t : Types} {root : ObjectType}
    (hroot : t.roots.find? .mutation = some root) (ms : List Mutation) :
    t.taken ms = Mutation.accepted root.fieldNames ms := by
  rw [taken, hroot]

/-- Of the mutations offered under one name, the first is the one taken. -/
theorem find?_of_mem_taken {t : Types} {ms : List Mutation} {m : Mutation} (hm : m ∈ t.taken ms) :
    (ms.find? fun m' => m'.name = m.name) = some m := by
  unfold taken at hm
  split at hm
  · simp at hm
  · exact Mutation.find?_of_mem_accepted hm

theorem mem_of_mem_taken {t : Types} {ms : List Mutation} {m : Mutation} (hm : m ∈ t.taken ms) :
    m ∈ ms :=
  List.mem_of_find?_eq_some (find?_of_mem_taken hm)

theorem taken_sublist (t : Types) (ms : List Mutation) : (t.taken ms).Sublist ms := by
  unfold taken
  split
  · exact List.nil_sublist ms
  · exact Mutation.accepted_sublist ms _

/-- No two of the mutations taken have the same name. -/
theorem nodup_taken (t : Types) (ms : List Mutation) : ((t.taken ms).map Mutation.name).Nodup := by
  unfold taken
  split
  · simp
  · exact Mutation.nodup_accepted ms _

/-- What is generated are the types that go with the mutations taken. -/
theorem generated_foldl_offer (s : Settings) (t : Types) (ms : List Mutation) :
    (ms.foldl (offer s) t).generated =
      t.generated.insertAll ((t.taken ms).flatMap Mutation.generated) := by
  cases hroot : t.roots.find? .mutation with
  | none => rw [foldl_offer_of_none s t hroot, taken, hroot]; rfl
  | some root => rw [foldl_offer_of_some s ms hroot, taken_of_some hroot]

/-- The mutation root gets the fields of the mutations taken. -/
theorem find?_roots_foldl_offer (s : Settings) (t : Types) (ms : List Mutation) :
    (ms.foldl (offer s) t).roots.find? .mutation =
      (t.roots.find? .mutation).map fun root =>
        root.extend ((t.taken ms).map fun m => m.field s) := by
  cases hroot : t.roots.find? .mutation with
  | none => rw [foldl_offer_of_none s t hroot, hroot]; rfl
  | some root =>
    rw [foldl_offer_of_some s ms hroot, taken_of_some hroot]
    exact Registry.find?_insert_self _ _ _

/-- What is taken of a row is what is taken of its first part, and then of the rest. -/
theorem taken_append (s : Settings) (t : Types) (ms ms' : List Mutation) :
    t.taken (ms ++ ms') = t.taken ms ++ (ms.foldl (offer s) t).taken ms' := by
  cases hroot : t.roots.find? .mutation with
  | none => rw [foldl_offer_of_none s t hroot, taken, taken, taken, hroot]; rfl
  | some root =>
    have hroot' := find?_roots_foldl_offer s t ms
    rw [hroot, Option.map_some] at hroot'
    rw [taken_of_some hroot, taken_of_some hroot, taken_of_some hroot', Mutation.accepted_append,
      ObjectType.fieldNames_extend, taken_of_some hroot, List.map_map]
    rfl

/-! ## Offers in vain -/

/-- A root that has fields of all the names takes none of the mutations. -/
theorem foldl_offer_of_mem (s : Settings) (t : Types) {ms : List Mutation}
    (h : ∀ root, t.roots.find? .mutation = some root → ∀ m ∈ ms, m.name ∈ root.fieldNames) :
    ms.foldl (offer s) t = t := by
  induction ms with
  | nil => rfl
  | cons m ms ih =>
    have hm : t.offer s m = t := by
      cases hroot : t.roots.find? .mutation with
      | none => exact offer_of_none s t m hroot
      | some root =>
        have hfield := h root hroot m List.mem_cons_self
        rw [offer_of_some s t m hroot, if_pos ((root.isSome_field?_iff m.name).2 hfield)]
    rw [List.foldl_cons, hm]
    exact ih fun root hroot m' hm' => h root hroot m' (List.mem_cons_of_mem m hm')

/-- Each name that was offered is the name of a field of the mutation root. -/
theorem name_mem_fieldNames_foldl_offer (s : Settings) (t : Types) (ms : List Mutation)
    {root : ObjectType} (hroot : (ms.foldl (offer s) t).roots.find? .mutation = some root) :
    ∀ m ∈ ms, m.name ∈ root.fieldNames := by
  intro m hm
  rw [find?_roots_foldl_offer, Option.map_eq_some_iff] at hroot
  obtain ⟨old, hold, rfl⟩ := hroot
  have hnames : (old.extend ((t.taken ms).map fun m => m.field s)).fieldNames =
      old.fieldNames ++ (t.taken ms).map Mutation.name := by
    simp [ObjectType.fieldNames, ObjectType.extend]
  rw [hnames, List.mem_append, taken_of_some hold]
  by_cases hm' : m.name ∈ old.fieldNames
  · exact Or.inl hm'
  · exact Or.inr (Mutation.name_mem_accepted hm hm')

/-! ## A row of relationships -/

/-- Adding relationships whose fields have names, under settings that have an answer for each of
them, always succeeds. Without a mutation root nothing changes. With one, its own fields are
followed by the added ones : their names are those of all mutations offered, without the taken ones
and with the first occurrence of each only, and the field of a name is that of the first mutation
offered under it. Nothing else of the mutation root changes, and no other root. -/
theorem addRelationships_fields (t : Types) (s : Settings) (rs : List Relationship)
    (hs : ∀ r ∈ rs, ∃ b, s.mutates r = .ok b) (hr : ∀ r ∈ rs, r.fieldName ≠ "") :
    ∃ t', (t.addRelationships s rs).result = .ok t' ∧ t'.defined = t.defined ∧
      (t.roots.find? .mutation = none → t' = t) ∧
      ∀ root, t.roots.find? .mutation = some root → ∃ added : List Field,
        t'.roots.find? .mutation = some { root with fields := root.fields ++ added } ∧
        added.map (fun f => f.name.text) =
          (((s.offers rs).map Mutation.name).filter (· ∉ root.fieldNames)).eraseDups ∧
        (∀ f ∈ added, ∃ m, ((s.offers rs).find? fun m => m.name = f.name.text) = some m ∧
          f = m.field s) ∧
        t'.roots.keys = t.roots.keys ∧
        ∀ k ≠ .mutation, t'.roots.find? k = t.roots.find? k := by
  have hadd : ∀ r ∈ rs, s.CanAdd r := fun r h =>
    (hs r h).imp fun _ hb => ⟨hb, fun _ => hr r h⟩
  obtain ⟨hdefined, hkeys, hothers⟩ := foldl_offer_frame s t (s.offers rs)
  refine ⟨_, addRelationships_eq_ok_iff.2 ⟨fun _ => hadd, rfl⟩, hdefined,
    fun h => foldl_offer_of_none s t h _, fun root hroot => ?_⟩
  refine ⟨(t.taken (s.offers rs)).map fun m => m.field s, ?_, ?_, ?_, hkeys, hothers⟩
  · rw [find?_roots_foldl_offer, hroot]
    rfl
  · rw [List.map_map, taken_of_some hroot, ← Mutation.map_name_accepted]
    rfl
  · intro f hf
    rw [taken_of_some hroot] at hf
    obtain ⟨m, hm, rfl⟩ := List.mem_map.1 hf
    exact ⟨m, Mutation.find?_of_mem_accepted hm, rfl⟩

/-- Two relationships with the same names for their mutations, under a root that has one of them :
the other goes to the first relationship. -/
theorem addRelationships_fields_shared_names :
    let r : Relationship := {
      typeName := "A", fieldName := "bC", outputType := "R", fromType := "A", toType := "B"
      name := .text "R" }
    let r' : Relationship := {
      typeName := "AB", fieldName := "c", outputType := "S", fromType := "AB", toType := "B"
      name := .text "S" }
    let root : ObjectType := {
      name := { text := "Mutation" }
      fields := [{ name := { text := "RemoveABC" }, type := .ofName "Int" }] }
    let t : Types := ⟨.empty, .empty, .ofList [(.mutation, root)]⟩
    let s : Settings := {}
    (∀ q ∈ [r, r'], ∃ b, s.mutates q = .ok b) ∧ (∀ q ∈ [r, r'], q.fieldName ≠ "") ∧
      t.roots.find? .mutation = some root ∧
      ∃ t', (t.addRelationships s [r, r']).result = .ok t' ∧
        t'.roots.find? .mutation = some { root with
          fields := root.fields ++ [Mutation.field ⟨r, .create⟩ s] } := by
  intro r r' root t s
  have hs : ∀ q ∈ [r, r'], ∃ b, s.mutates q = .ok b :=
    List.forall_mem_cons.2 ⟨⟨true, rfl⟩, List.forall_mem_singleton.2 ⟨true, rfl⟩⟩
  have hr : ∀ q ∈ [r, r'], q.fieldName ≠ "" := by decide
  obtain ⟨t', ht', -, -, h⟩ := addRelationships_fields t s [r, r'] hs hr
  obtain ⟨added, hadded, hnames, hfirst, -⟩ := h root rfl
  have hone : added.map (fun f => f.name.text) = ["AddABC"] := hnames.trans (by decide)
  obtain ⟨f, rfl, hf⟩ := List.map_eq_singleton_iff.1 hone
  obtain ⟨m, hm, rfl⟩ := hfirst f (List.mem_singleton.2 rfl)
  have hmr : some m = some ⟨r, .create⟩ := by
    rw [← hm, hf]
    decide
  rw [Option.some.inj hmr] at hadded
  exact ⟨hs, hr, rfl, t', ht', hadded⟩

end Schema.Types

end RelationApi

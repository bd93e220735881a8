/-!
# Registries

A registry holds one value for each of its keys, in the order in which the keys came in. Giving a
key another value keeps the key's place (`insert`). That no key occurs twice is part of the type.
-/

namespace RelationApi

/-- The entries with the value of `k` replaced, or with `k` added at the end. -/
def upsert {κ α : Type} [DecidableEq κ] (k : κ) (a : α) : List (κ × α) → List (κ × α)
  | [] => [(k, a)]
  | e :: es => if e.1 = k then (k, a) :: es else e :: upsert k a es

/-- The keys after an `upsert` : the same, with a new key at the end. -/
theorem keys_upsert {κ α : Type} [DecidableEq κ] (k : κ) (a : α) (es : List (κ × α)) :
    (upsert k a es).map Prod.fst =
      if k ∈ es.map Prod.fst then es.map Prod.fst else es.map Prod.fst ++ [k] := by
  induction es with
  | nil => simp [upsert]
  | cons e es ih =>
    by_cases h : e.1 = k
    · simp [upsert, h]
    · have h' : k ≠ e.1 := fun hk => h hk.symm
      simp only [upsert, if_neg h, List.map_cons, ih, List.mem_cons, h', false_or]
      split <;> simp

theorem nodup_keys_upsert {κ α : Type} [DecidableEq κ] (k : κ) (a : α) {es : List (κ × α)}
    (h : (es.map Prod.fst).Nodup) : ((upsert k a es).map Prod.fst).Nodup := by
  rw [keys_upsert]
  split
  · exact h
  · next hk => exact List.nodup_append.2 ⟨h, by simp, by simpa using fun x hx => by grind⟩

/-- The value of a key after an `upsert` : the new one for `k`, for any other key the old one. -/
theorem find?_upsert {κ α : Type} [DecidableEq κ] (k k' : κ) (a : α) (es : List (κ × α)) :
    ((upsert k a es).find? fun e => e.1 = k').map Prod.snd =
      if k' = k then some a else (es.find? fun e => e.1 = k').map Prod.snd := by
  induction es with
  | nil => by_cases h : k' = k <;> simp [upsert, h, eq_comm]
  | cons e es ih => by_cases h : e.1 = k <;> by_cases h' : e.1 = k' <;> simp_all [upsert, eq_comm]

/-- Giving a key the value that it has changes nothing. -/
theorem upsert_of_find?_eq_some {κ α : Type} [DecidableEq κ] {k : κ} {a : α} {es : List (κ × α)}
    (h : (es.find? fun e => e.1 = k).map Prod.snd = some a) : upsert k a es = es := by
  induction es with
  | nil => simp at h
  | cons e es ih =>
    by_cases hk : e.1 = k
    · obtain rfl : e.2 = a := by simpa [hk] using h
      simp [upsert, ← hk]
    · rw [upsert, if_neg hk, ih (by simpa [hk] using h)]

/-- A new key comes last. -/
theorem upsert_of_notMem {κ α : Type} [DecidableEq κ] {k : κ} (a : α) {es : List (κ × α)}
    (h : k ∉ es.map Prod.fst) : upsert k a es = es ++ [(k, a)] := by
  induction es with
  | nil => rfl
  | cons e es ih =>
    simp only [List.map_cons, List.mem_cons, not_or] at h
    rw [upsert, if_neg fun he => h.1 he.symm, ih h.2, List.cons_append]

theorem upsert_upsert {κ α : Type} [DecidableEq κ] (k : κ) (a b : α) (es : List (κ × α)) :
    upsert k b (upsert k a es) = upsert k b es := by
  induction es with
  | nil => simp [upsert]
  | cons e es ih => by_cases h : e.1 = k <;> simp [upsert, h, ih]

/-- Where no key occurs twice, an entry is the one that its key finds. -/
theorem find?_eq_some_of_mem {κ α : Type} [DecidableEq κ] {e : κ × α} :
    ∀ {es : List (κ × α)}, (es.map Prod.fst).Nodup → e ∈ es →
      (es.find? fun e' => e'.1 = e.1) = some e
  | e' :: es, hn, he => by
    rw [List.map_cons, List.nodup_cons] at hn
    rcases List.mem_cons.1 he with rfl | he
    · simp
    · have hne : e'.1 ≠ e.1 := fun h => hn.1 (h ▸ List.mem_map_of_mem he)
      rw [List.find?_cons_of_neg (by simpa using hne)]
      exact find?_eq_some_of_mem hn.2 he

/-- Values by key, in the order of the keys' first insertion. -/
@[ext]
structure Registry (κ α : Type) where
  entries : List (κ × α)
  nodup_keys : (entries.map Prod.fst).Nodup

namespace Registry

variable {κ α : Type}

/-- The registry without entries. -/
def empty : Registry κ α := ⟨[], by simp⟩

/-- The keys, in order. -/
def keys (r : Registry κ α) : List κ := r.entries.map Prod.fst

/-- The values, in the order of their keys. -/
def values (r : Registry κ α) : List α := r.entries.map Prod.snd

variable [DecidableEq κ]

/-- The value of a key. -/
def find? (r : Registry κ α) (k : κ) : Option α :=
  (r.entries.find? fun e => e.1 = k).map Prod.snd

/-- Whether the key has a value. -/
def contains (r : Registry κ α) (k : κ) : Bool := (r.find? k).isSome

/-- The registry with a value for the key. -/
def insert (r : Registry κ α) (k : κ) (a : α) : Registry κ α :=
  ⟨upsert k a r.entries, nodup_keys_upsert k a r.nodup_keys⟩

/-- The registry with all the entries inserted, one after the other. -/
def insertAll (r : Registry κ α) (es : List (κ × α)) : Registry κ α :=
  es.foldl (fun r e => r.insert e.1 e.2) r

/-- The registry of the entries; of two values for a key the later one counts. -/
def ofList (es : List (κ × α)) : Registry κ α := empty.insertAll es

/-! ## Keys and values after an insertion -/

@[simp] theorem find?_empty (k : κ) : (empty : Registry κ α).find? k = none := rfl

theorem find?_insert (r : Registry κ α) (k k' : κ) (a : α) :
    (r.insert k a).find? k' = if k' = k then some a else r.find? k' :=
  find?_upsert k k' a r.entries

@[simp] theorem find?_insert_self (r : Registry κ α) (k : κ) (a : α) :
    (r.insert k a).find? k = some a := by
  simp [find?_insert]

theorem find?_insert_of_ne (r : Registry κ α) {k k' : κ} (h : k' ≠ k) (a : α) :
    (r.insert k a).find? k' = r.find? k' := by
  simp [find?_insert, h]

theorem keys_insert (r : Registry κ α) (k : κ) (a : α) :
    (r.insert k a).keys = if k ∈ r.keys then r.keys else r.keys ++ [k] :=
  keys_upsert k a r.entries

/-- A key has a value exactly when it is one of the keys. -/
theorem isSome_find?_iff (r : Registry κ α) (k : κ) : (r.find? k).isSome ↔ k ∈ r.keys := by
  simp [find?, keys]

/-! ## Entries -/

theorem insert_of_find?_eq_some {r : Registry κ α} {k : κ} {a : α} (h : r.find? k = some a) :
    r.insert k a = r :=
  Registry.ext (upsert_of_find?_eq_some h)

theorem entries_insert_of_notMem {r : Registry κ α} {k : κ} (h : k ∉ r.keys) (a : α) :
    (r.insert k a).entries = r.entries ++ [(k, a)] :=
  upsert_of_notMem a h

theorem insert_insert (r : Registry κ α) (k : κ) (a b : α) :
    (r.insert k a).insert k b = r.insert k b :=
  Registry.ext (upsert_upsert k a b r.entries)

theorem mem_entries_iff {r : Registry κ α} {k : κ} {a : α} :
    (k, a) ∈ r.entries ↔ r.find? k = some a := by
  constructor
  · intro h
    rw [find?, find?_eq_some_of_mem r.nodup_keys h, Option.map_some]
  · intro h
    obtain ⟨e, he, rfl⟩ := Option.map_eq_some_iff.1 h
    have hk : e.1 = k := by simpa using List.find?_some he
    rw [← hk]
    exact List.mem_of_find?_eq_some he

/-- The entries are the keys, each with the value that it finds. -/
theorem map_entries (r : Registry κ α) :
    r.entries.map some = r.keys.map fun k => (r.find? k).map (Prod.mk k) := by
  rw [keys, List.map_map]
  refine List.map_congr_left fun e he => ?_
  rw [Function.comp_apply, mem_entries_iff.1 he, Option.map_some]

/-- Registries with the same keys in the same order, and the same value for each, are equal. -/
theorem ext_find? {r r' : Registry κ α} (hk : r.keys = r'.keys)
    (hf : ∀ k, r.find? k = r'.find? k) : r = r' := by
  have h : r.entries.map some = r'.entries.map some := by
    rw [r.map_entries, r'.map_entries, hk]
    simp only [hf]
  exact Registry.ext ((List.map_inj_right fun _ _ => Option.some.inj).1 h)

/-- Registries with the same entries, in whatever order, have the same value for each key. -/
theorem find?_eq_of_perm {r r' : Registry κ α} (h : r'.entries.Perm r.entries) (k : κ) :
    r'.find? k = r.find? k :=
  Option.ext fun a => by rw [← mem_entries_iff, ← mem_entries_iff, h.mem_iff]

/-- Entries behind the others count only where their keys are looked up. -/
theorem find?_of_entries_append {r r' : Registry κ α} {es : List (κ × α)}
    (h : r'.entries = r.entries ++ es) {k : κ} (hk : k ∉ es.map Prod.fst) :
    r'.find? k = r.find? k := by
  have hes : (es.find? fun e => e.1 = k) = none :=
    List.find?_eq_none.2 fun e he h => hk (List.mem_map.2 ⟨e, he, by simpa using h⟩)
  rw [find?, h, List.find?_append, hes, Option.or_none]
  rfl

/-! ## Insertions in a row -/

@[simp] theorem insertAll_nil (r : Registry κ α) : r.insertAll [] = r := rfl

@[simp] theorem insertAll_cons (r : Registry κ α) (e : κ × α) (es : List (κ × α)) :
    r.insertAll (e :: es) = (r.insert e.1 e.2).insertAll es := rfl

theorem insertAll_append (r : Registry κ α) (es es' : List (κ × α)) :
    r.insertAll (es ++ es') = (r.insertAll es).insertAll es' :=
  List.foldl_append

theorem mem_keys_insertAll {k : κ} {es : List (κ × α)} {r : Registry κ α} :
    k ∈ (r.insertAll es).keys ↔ k ∈ r.keys ∨ k ∈ es.map Prod.fst := by
  induction es generalizing r with
  | nil => simp
  | cons e es ih =>
    rw [insertAll_cons, ih, keys_insert, List.map_cons, List.mem_cons]
    split
    · next he => grind
    · rw [List.mem_append, List.mem_singleton, or_assoc]

/-- A value found after insertions was there before or came with one of them. -/
theorem find?_insertAll_eq_some {k : κ} {a : α} {es : List (κ × α)} {r : Registry κ α}
    (h : (r.insertAll es).find? k = some a) : r.find? k = some a ∨ (k, a) ∈ es := by
  induction es generalizing r with
  | nil => exact Or.inl h
  | cons e es ih =>
    rcases ih h with h | h
    · rw [find?_insert] at h
      split at h
      · next hk =>
        obtain rfl := Option.some.inj h
        exact Or.inr (by simp [hk])
      · exact Or.inl h
    · exact Or.inr (List.mem_cons_of_mem e h)

theorem mem_of_find?_ofList {k : κ} {a : α} {es : List (κ × α)}
    (h : (ofList es).find? k = some a) : (k, a) ∈ es :=
  (find?_insertAll_eq_some h).resolve_left (by simp)

theorem find?_insertAll_of_notMem {k : κ} {es : List (κ × α)} {r : Registry κ α}
    (h : k ∉ es.map Prod.fst) : (r.insertAll es).find? k = r.find? k := by
  induction es generalizing r with
  | nil => rfl
  | cons e es ih =>
    simp only [List.map_cons, List.mem_cons, not_or] at h
    rw [insertAll_cons, ih h.2, find?_insert_of_ne r h.1]

/-- Keys stay where they are; new ones come behind them. -/
theorem prefix_keys_insertAll (r : Registry κ α) (es : List (κ × α)) :
    r.keys <+: (r.insertAll es).keys := by
  induction es generalizing r with
  | nil => exact List.prefix_rfl
  | cons e es ih =>
    refine List.IsPrefix.trans ?_ (ih (r.insert e.1 e.2))
    rw [keys_insert]
    split
    · exact List.prefix_rfl
    · exact List.prefix_append _ _

/-- Each entry of a row in which no key occurs twice is found afterwards. -/
theorem find?_insertAll_of_nodup {es : List (κ × α)} {r : Registry κ α} {e : κ × α}
    (hn : (es.map Prod.fst).Nodup) (he : e ∈ es) : (r.insertAll es).find? e.1 = some e.2 := by
  induction es generalizing r with
  | nil => simp at he
  | cons e' es ih =>
    rw [List.map_cons, List.nodup_cons] at hn
    rcases List.mem_cons.1 he with rfl | he
    · rw [insertAll_cons, find?_insertAll_of_notMem hn.1, find?_insert_self]
    · exact ih hn.2 he

/-- New keys come last, in the order in which they come. -/
theorem entries_insertAll_of_nodup {es : List (κ × α)} {r : Registry κ α}
    (hn : (es.map Prod.fst).Nodup) (hr : ∀ k ∈ es.map Prod.fst, k ∉ r.keys) :
    (r.insertAll es).entries = r.entries ++ es := by
  induction es generalizing r with
  | nil => simp
  | cons e es ih =>
    rw [List.map_cons, List.nodup_cons] at hn
    have he : e.1 ∉ r.keys := hr e.1 (by simp)
    have hes : ∀ k ∈ es.map Prod.fst, k ∉ (r.insert e.1 e.2).keys := by
      intro k hk
      rw [keys_insert, if_neg he, List.mem_append, List.mem_singleton, not_or]
      exact ⟨hr k (List.mem_cons_of_mem e.1 hk), fun h => hn.1 (h ▸ hk)⟩
    rw [insertAll_cons, ih hn.2 hes, entries_insert_of_notMem he, List.append_assoc]
    rfl

/-- Rows of entries with the same keys lead to the same registry, if each value in the second row is
that of the first, or the one that counts in the end. -/
theorem insertAll_filterMap_congr {β : Type} {f g : β → Option (κ × α)} {bs : List β}
    {r r' : Registry κ α}
    (hkeys : ∀ b ∈ bs, (g b).map Prod.fst = (f b).map Prod.fst)
    (hvalues : ∀ b ∈ bs, ∀ e ∈ g b, f b = some e ∨
      (r.insertAll (bs.filterMap f)).find? e.1 = some e.2)
    (hr : r'.keys = r.keys)
    (hr' : ∀ k, r'.find? k = r.find? k ∨
      r'.find? k = (r.insertAll (bs.filterMap f)).find? k) :
    r'.insertAll (bs.filterMap g) = r.insertAll (bs.filterMap f) := by
  induction bs generalizing r r' with
  | nil => exact ext_find? hr fun k => (hr' k).elim id id
  | cons b bs ih =>
    rw [List.forall_mem_cons] at hkeys hvalues
    cases hf : f b with
    | none =>
      have hg : g b = none := by simpa [hf] using hkeys.1
      rw [List.filterMap_cons_none hf] at hvalues hr' ⊢
      rw [List.filterMap_cons_none hg]
      exact ih hkeys.2 hvalues.2 hr hr'
    | some e =>
      obtain ⟨e', hg, hk⟩ : ∃ e', g b = some e' ∧ e'.1 = e.1 := by
        simpa [hf] using hkeys.1
      rw [List.filterMap_cons_some hf, insertAll_cons] at hvalues hr' ⊢
      rw [List.filterMap_cons_some hg, insertAll_cons]
      refine ih hkeys.2 hvalues.2 (by rw [keys_insert, keys_insert, hr, hk]) fun k => ?_
      rw [find?_insert, find?_insert, hk]
      split
      · next hke =>
        rcases hvalues.1 e' hg with he | he
        · exact Or.inl (by rw [Option.some.inj (hf.symm.trans he)])
        · exact Or.inr (by rw [hke, ← he, hk])
      · exact hr' k

/-! ## Insertions that replace nothing by anything else -/

/-- No entry of the row has a key with a different value in the registry or in the row. -/
def Fits (r : Registry κ α) (es : List (κ × α)) : Prop :=
  ∀ e ∈ es, ∀ e' ∈ r.entries ++ es, e'.1 = e.1 → e' = e

/-- The first entry of a row that fits leaves a registry that the others fit. -/
theorem Fits.insert {r : Registry κ α} {e : κ × α} {es : List (κ × α)} (h : r.Fits (e :: es)) :
    (r.insert e.1 e.2).Fits es := by
  intro e₁ h₁ e₂ h₂ hk
  refine h e₁ (List.mem_cons_of_mem e h₁) e₂ ?_ hk
  rcases List.mem_append.1 h₂ with h₂ | h₂
  · rw [mem_entries_iff, find?_insert] at h₂
    split at h₂
    · next hke =>
      have he : e₂ = e := Prod.ext hke (Option.some.inj h₂).symm
      simp [he]
    · exact List.mem_append_left _ (mem_entries_iff.2 h₂)
  · exact List.mem_append_right _ (List.mem_cons_of_mem e h₂)

omit [DecidableEq κ] in
theorem Fits.append_left {r : Registry κ α} {es es' : List (κ × α)} (h : r.Fits (es ++ es')) :
    r.Fits es := by
  intro e he e' he'
  refine h e (List.mem_append_left es' he) e' ?_
  rw [← List.append_assoc]
  exact List.mem_append_left es' he'

/-- The first part of a row that fits leaves a registry that the rest fits. -/
theorem Fits.insertAll {r : Registry κ α} {es es' : List (κ × α)} (h : r.Fits (es ++ es')) :
    (r.insertAll es).Fits es' := by
  induction es generalizing r with
  | nil => exact h
  | cons e es ih => exact ih (Fits.insert h)

/-- The entries of a row that fits are all found afterwards. -/
theorem Fits.find?_insertAll {r : Registry κ α} {es : List (κ × α)} (h : r.Fits es) {e : κ × α}
    (he : e ∈ es) : (r.insertAll es).find? e.1 = some e.2 := by
  have hkey : e.1 ∈ (r.insertAll es).keys :=
    mem_keys_insertAll.2 (Or.inr (List.mem_map_of_mem he))
  obtain ⟨a, ha⟩ := Option.isSome_iff_exists.1 ((isSome_find?_iff _ _).2 hkey)
  have hmem : (e.1, a) ∈ r.entries ++ es :=
    List.mem_append.2 ((find?_insertAll_eq_some ha).imp_left mem_entries_iff.2)
  have hae : (e.1, a) = e := h e he _ hmem rfl
  rw [ha, ← hae]

/-- After a row that fits, a key has the value that it comes with. -/
theorem Fits.find?_ofList_iff {es : List (κ × α)} (h : empty.Fits es) {k : κ} {a : α} :
    (ofList es).find? k = some a ↔ (k, a) ∈ es :=
  ⟨mem_of_find?_ofList, fun he => h.find?_insertAll he⟩

end Registry

end RelationApi

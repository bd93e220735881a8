import Mathlib.Data.List.Nodup
import RelationApi.Proofs.Settings.Acceptance

/-!
# Where the settings of a schema come from

The settings of a schema are read from one place : the section of the schema, or the configuration
itself where there is no such section (`Settings.sectionData`), and in it the value of one key
(`Settings.settingsData`). What stands in either place and says nothing counts as an empty mapping
(`Data.orEmpty`).

The entries of that mapping come over the library's own. For a mapping in which no key occurs twice
nothing is lost that way (`Settings.ofEntries_extra`) : the three settings with a meaning have their
values, and all other entries are kept as they are, in their order. And since nothing else of the
configuration is read, neither the sections of other schemas nor, where the schema has one of its
own, what lies outside the section makes a difference (`Settings.forSchema_sections`).
-/

namespace RelationApi

/-- Replacing or adding a value that a filter on the keys drops leaves what the filter keeps. -/
theorem filter_upsert {κ α : Type} [DecidableEq κ] {q : κ → Bool} {k : κ} (hk : q k = false)
    (a : α) (es : List (κ × α)) :
    (upsert k a es).filter (fun e => q e.1) = es.filter fun e => q e.1 := by
  induction es with
  | nil => simp [upsert, hk]
  | cons e es ih =>
    rw [upsert]
    split
    · next he => simp [he, hk]
    · rw [List.filter_cons, List.filter_cons, ih]

namespace Key

@[simp] theorem isText_identity (t : String) (k : Key) : k.identity.isText t = k.isText t := by
  cases k <;> rfl

@[simp] theorem isOneOf_identity (ts : List String) (k : Key) :
    k.identity.isOneOf ts = k.isOneOf ts := by
  simp only [isOneOf, isText_identity]

theorem isText_iff {t : String} {k : Key} : k.isText t = true ↔ k.identity = text t := by
  rw [← isText_identity, isText, decide_eq_true_iff]

end Key

namespace Data

/-! ## Entries with distinct keys -/

/-- No key occurs twice among the entries. -/
def HasDistinctKeys (es : List (Key × Data)) : Prop := (es.map fun e => e.1.identity).Nodup

instance (es : List (Key × Data)) : Decidable (HasDistinctKeys es) :=
  inferInstanceAs (Decidable (List.Nodup _))

/-- The last value of a name counts. -/
theorem get?_append (es es' : List (Key × Data)) (name : String) :
    get? (es ++ es') name = (get? es' name).or (get? es name) := by
  rw [get?, List.reverse_append, List.find?_append]
  cases h : es'.reverse.find? fun e => e.1.isText name <;> simp [get?, h]

theorem get?_singleton (e : Key × Data) (name : String) :
    get? [e] name = if e.1.isText name then some e.2 else none := by
  by_cases h : e.1.isText name = true <;> simp [get?, h]

/-- Among distinct keys the order of the entries does not matter to a lookup. -/
theorem get?_eq_some_iff {es : List (Key × Data)} (h : HasDistinctKeys es) {name : String}
    {v : Data} : get? es name = some v ↔ (Key.text name, v) ∈ es := by
  constructor
  · intro hv
    obtain ⟨⟨k, v'⟩, he, rfl⟩ := Option.map_eq_some_iff.1 hv
    have hk : k = Key.text name := by
      simpa [Key.isText] using List.find?_some he
    simpa [hk] using List.mem_of_find?_eq_some he
  · intro hv
    obtain ⟨before, after, rfl⟩ := List.append_of_mem hv
    rw [HasDistinctKeys, List.map_append, List.map_cons, List.nodup_middle, List.nodup_cons,
      ← List.map_append] at h
    have hafter : after.reverse.find? (fun e => e.1.isText name) = none :=
      List.find?_eq_none.2 fun e he hk => h.1 (List.mem_map.2 ⟨e,
        List.mem_append_right before (List.mem_reverse.1 he), Key.isText_iff.1 hk⟩)
    rw [get?, List.reverse_append, List.reverse_cons, List.append_assoc, List.find?_append, hafter]
    simp [Key.isText]

/-! ## Putting entries together -/

/-- Each entry of the registry is under what tells its key apart. -/
def IsKeyed (r : Registry Key (Key × Data)) : Prop := ∀ e ∈ r.entries, e.2.1.identity = e.1

theorem isKeyed_empty : IsKeyed .empty := fun _ he => absurd he List.not_mem_nil

variable {r : Registry Key (Key × Data)}

theorem IsKeyed.find? (h : IsKeyed r) {k : Key} {e : Key × Data} (he : r.find? k = some e) :
    e.1.identity = k :=
  h (k, e) (Registry.mem_entries_iff.2 he)

/-- The key that `put` keeps is the same key as the one that it is given. -/
theorem IsKeyed.identity_getD (h : IsKeyed r) (k : Key) :
    (((r.find? k.identity).map Prod.fst).getD k).identity = k.identity := by
  cases he : r.find? k.identity with
  | none => rfl
  | some e => exact h.find? he

theorem IsKeyed.put (h : IsKeyed r) (e : Key × Data) : IsKeyed (put r e) := by
  intro e' he'
  have hfind := Registry.mem_entries_iff.1 he'
  rw [Data.put, Registry.find?_insert] at hfind
  split at hfind
  · next hk =>
    rw [hk, ← Option.some.inj hfind]
    exact h.identity_getD e.1
  · exact h.find? hfind

/-- Entries stay under the keys that tell them apart. -/
theorem IsKeyed.foldl_put (h : IsKeyed r) (es : List (Key × Data)) :
    IsKeyed (es.foldl Data.put r) :=
  List.foldlRecOn es Data.put h fun _ h e _ => h.put e

/-- Entries under the keys that tell them apart have different keys. -/
theorem IsKeyed.hasDistinctKeys (h : IsKeyed r) : HasDistinctKeys r.values := by
  have hkeys : r.values.map (fun e => e.1.identity) = r.keys := by
    rw [Registry.values, List.map_map, Registry.keys]
    exact List.map_congr_left h
  rw [HasDistinctKeys, hkeys]
  exact r.nodup_keys

theorem IsKeyed.mem_values_iff (h : IsKeyed r) {name : String} {v : Data} :
    (Key.text name, v) ∈ r.values ↔ (r.find? (.text name)).map Prod.snd = some v := by
  rw [Registry.values, List.mem_map, Option.map_eq_some_iff]
  constructor
  · rintro ⟨⟨k, e⟩, he, rfl⟩
    obtain rfl : Key.text name = k := h _ he
    exact ⟨_, Registry.mem_entries_iff.1 he, rfl⟩
  · rintro ⟨⟨k, v⟩, he, rfl⟩
    have hk : k = .text name := by
      have := h.find? he
      cases k <;> simp_all [Key.identity]
    exact ⟨_, Registry.mem_entries_iff.2 he, by rw [hk]⟩

/-- The value of a name after entries are put in : that of the last entry with the name. -/
theorem find?_foldl_put (es : List (Key × Data)) (name : String) :
    ((es.foldl put r).find? (.text name)).map Prod.snd =
      (get? es name).or ((r.find? (.text name)).map Prod.snd) := by
  induction es generalizing r with
  | nil => rfl
  | cons e es ih =>
    rw [List.foldl_cons, ih, ← List.singleton_append, get?_append, get?_singleton, put,
      Registry.find?_insert, Option.or_assoc]
    by_cases hk : e.1.isText name = true
    · simp [hk, Key.isText_iff.1 hk]
    · have hne : Key.text name ≠ e.1.identity := fun h => hk (Key.isText_iff.2 h.symm)
      simp [hk, hne]

/-- One entry for each key is enough for every lookup. -/
theorem get?_distinct (es : List (Key × Data)) (name : String) :
    get? (distinct es) name = get? es name := by
  have hkeyed := isKeyed_empty.foldl_put es
  refine Option.ext fun v => ?_
  rw [distinct, get?_eq_some_iff hkeyed.hasDistinctKeys, hkeyed.mem_values_iff, find?_foldl_put,
    Registry.find?_empty, Option.map_none, Option.or_none]

/-- Distinct entries that are put into a registry are kept in their order where the registry has
none of their keys. -/
theorem filter_foldl_put {q : Key → Bool} {es : List (Key × Data)} (hes : HasDistinctKeys es)
    (hr : ∀ e ∈ es, e.1.identity ∈ r.keys → q e.1.identity = false) :
    (es.foldl put r).entries.filter (fun e => q e.1) =
      r.entries.filter (fun e => q e.1) ++
        (es.map fun e => (e.1.identity, e)).filter fun e => q e.1 := by
  induction es generalizing r with
  | nil => simp
  | cons e es ih =>
    rw [HasDistinctKeys, List.map_cons, List.nodup_cons] at hes
    rw [List.forall_mem_cons] at hr
    have hput : ∀ e' ∈ es, e'.1.identity ∈ (put r e).keys → q e'.1.identity = false := by
      intro e' he' hk
      have hne : e'.1.identity ≠ e.1.identity := fun h => hes.1 (h ▸ List.mem_map_of_mem he')
      refine hr.2 e' he' ?_
      rw [put, Registry.keys_insert] at hk
      split at hk
      · exact hk
      · exact (List.mem_append.1 hk).resolve_right (by simpa using hne)
    rw [List.foldl_cons, ih hes.2 hput, List.map_cons]
    by_cases hmem : e.1.identity ∈ r.keys
    · rw [put, Registry.insert, filter_upsert (hr.1 hmem),
        List.filter_cons_of_neg (by simp [hr.1 hmem])]
    · have hnone : r.find? e.1.identity = none := by
        rw [← Option.not_isSome_iff_eq_none, Registry.isSome_find?_iff]
        exact hmem
      rw [put, hnone, Option.map_none, Option.getD_none, Registry.entries_insert_of_notMem hmem,
        List.filter_append, List.append_assoc, ← List.filter_append, List.singleton_append]

/-- Data with something to say, or else an empty mapping. -/
def orEmpty (d : Data) : Data := if d.isGiven then d else .mapping []

end Data

namespace Settings

/-! ## The library's settings and others over them -/

/-- A name has its own value, or else its default. -/
theorem get?_merged (es : List (Key × Data)) (name : String) :
    Data.get? (Data.distinct (defaults ++ es)) name =
      (Data.get? es name).or (Data.get? defaults name) := by
  rw [Data.get?_distinct, Data.get?_append]

theorem ofEntries_query (es : List (Key × Data)) :
    (ofEntries es).query = (Data.get? es "query").getD (.flag true) := by
  have h : (ofEntries es).query = (Data.get? (Data.distinct (defaults ++ es)) "query").getD _ := rfl
  rw [h, get?_merged]
  cases Data.get? es "query" <;> rfl

theorem ofEntries_mutation (es : List (Key × Data)) :
    (ofEntries es).mutation = (Data.get? es "mutation").getD (.flag true) := by
  have h : (ofEntries es).mutation =
    (Data.get? (Data.distinct (defaults ++ es)) "mutation").getD _ := rfl
  rw [h, get?_merged]
  cases Data.get? es "mutation" <;> rfl

theorem ofEntries_auth (es : List (Key × Data)) :
    (ofEntries es).auth = (Data.get? es "auth").getD (.flag false) := by
  have h : (ofEntries es).auth = (Data.get? (Data.distinct (defaults ++ es)) "auth").getD _ := rfl
  rw [h, get?_merged]
  cases Data.get? es "auth" <;> rfl

/-- Whatever is not one of the settings with a meaning is kept, in its order. -/
theorem ofEntries_extra {es : List (Key × Data)} (h : Data.HasDistinctKeys es) :
    (ofEntries es).extra = .mapping (es.filter fun e => !e.1.isOneOf known) := by
  let q : Key → Bool := fun k => !k.isOneOf known
  let r := defaults.foldl Data.put .empty
  have hknown : ∀ e ∈ es, e.1.identity ∈ r.keys → q e.1.identity = false := by
    have hkeys : ∀ k ∈ r.keys, q k = false := by decide
    exact fun e _ he => hkeys _ he
  have hkeyed : Data.IsKeyed (es.foldl Data.put r) :=
    (Data.isKeyed_empty.foldl_put defaults).foldl_put es
  have hfilter : ((es.foldl Data.put r).values).filter (fun e => q e.1) =
      ((es.foldl Data.put r).entries.filter fun e => q e.1).map Prod.snd := by
    rw [Registry.values, List.filter_map]
    refine congrArg _ (List.filter_congr fun e he => ?_)
    simp only [q, Function.comp_apply]
    rw [← hkeyed e he, Key.isOneOf_identity]
  have hdefaults : r.entries.filter (fun e => q e.1) = [] := rfl
  have hmerged : Data.distinct (defaults ++ es) = (es.foldl Data.put r).values := by
    rw [Data.distinct, List.foldl_append]
  have hextra : (ofEntries es).extra =
    .mapping ((Data.distinct (defaults ++ es)).filter fun e => q e.1) := rfl
  rw [hextra, hmerged, hfilter, Data.filter_foldl_put h hknown, hdefaults, List.nil_append,
    List.filter_map, List.map_map]
  simp [q, Function.comp_def]

/-! ## One place to read from -/

/-- The part of a configuration that is for a schema. -/
def sectionData (es : List (Key × Data)) (schema : String) : Data :=
  ((Data.get? es schema).map Data.orEmpty).getD (.mapping es)

/-- The settings in a section. -/
def settingsData (es : List (Key × Data)) : Data :=
  ((Data.get? es sectionKey).map Data.orEmpty).getD (.mapping [])

theorem mappingOf_of_orEmpty {d : Data} {es : List (Key × Data)} (h : d.orEmpty = .mapping es)
    (fault : SettingsFault) : mappingOf d fault = .ok es := by
  rw [Data.orEmpty] at h
  cases d with
  | mapping es' => cases es' <;> exact congrArg _ (Data.mapping.inj h)
  | _ =>
    split at h
    · cases h
    · next hgiven =>
      rw [← Data.mapping.inj h, mappingOf.eq_def]
      exact if_neg hgiven

theorem sectionFor_of_sectionData {es ps : List (Key × Data)} {n : String}
    (h : sectionData es n = .mapping ps) : sectionFor (.mapping es) n = .ok ps := by
  rw [sectionFor_mapping]
  rw [sectionData] at h
  cases hown : Data.get? es n with
  | none =>
    rw [hown] at h
    exact congrArg Except.ok (Data.mapping.inj h)
  | some own =>
    rw [hown] at h
    exact mappingOf_of_orEmpty h _

theorem ofData_mapping (es : List (Key × Data)) : ofData (.mapping es) = .ok (ofEntries es) := by
  cases es <;> rfl

theorem ofData_orEmpty (d : Data) : ofData d.orEmpty = ofData d := by
  rw [Data.orEmpty]
  split
  · rfl
  · next h => rw [ofData_mapping, ofData, if_neg h]

/-- The settings of a schema are those of the data that its section has for them. -/
theorem forSchema_of_sectionData {es ps : List (Key × Data)} {n : String}
    (h : sectionData es n = .mapping ps) :
    forSchema (some (.mapping es)) n = ofData (settingsData ps) := by
  rw [forSchema, Option.getD_some, sectionFor_of_sectionData h, settingsData]
  cases hv : Data.get? ps sectionKey with
  | none => exact congrArg (fun v => ofData (v.getD .null)) hv
  | some v => exact (congrArg (fun v => ofData (v.getD .null)) hv).trans (ofData_orEmpty v).symm

/-- Configurations with one section for a schema give it the same settings, or the same fault. -/
theorem forSchema_eq_of_get?_eq_some {es es' : List (Key × Data)} {n : String} {v : Data}
    (h : Data.get? es n = some v) (h' : Data.get? es' n = some v) :
    forSchema (some (.mapping es)) n = forSchema (some (.mapping es')) n := by
  simp only [forSchema, Option.getD_some, sectionFor_mapping, h, h', Option.map_some]

/-- Two configurations without a section for a schema agree on it if they agree on the settings for
all schemas. -/
theorem forSchema_eq_of_get?_eq_none {es es' : List (Key × Data)} {n : String}
    (h : Data.get? es n = none) (h' : Data.get? es' n = none)
    (hglobal : Data.get? es sectionKey = Data.get? es' sectionKey) :
    forSchema (some (.mapping es)) n = forSchema (some (.mapping es')) n := by
  simp only [forSchema, Option.getD_some, sectionFor_mapping, h, h', Option.map_none,
    Option.getD_none, bind, Except.bind, hglobal]

/-- The settings of a schema are there whenever its section and the settings in it are mappings.
They are those of the data in that place, with the library's own where it says nothing, and they
keep all the rest of it. What stands elsewhere in the configuration is not read : with a section of
the schema's own nothing outside the section, and without one nothing but the settings for all
schemas. -/
theorem forSchema_sections :
    (∀ (es ps ss : List (Key × Data)) (n : String), sectionData es n = .mapping ps →
      settingsData ps = .mapping ss → Data.HasDistinctKeys ss →
      ∃ s, forSchema (some (.mapping es)) n = .ok s ∧ ofData (.mapping ss) = .ok s ∧
        (∀ c, resolve c (some (.mapping ss)) = .ok s) ∧
        s.query = (Data.get? ss "query").getD (.flag true) ∧
        s.mutation = (Data.get? ss "mutation").getD (.flag true) ∧
        s.auth = (Data.get? ss "auth").getD (.flag false) ∧
        s.extra = .mapping (ss.filter fun e => !e.1.isOneOf ["query", "mutation", "auth"])) ∧
      (∀ (es es' : List (Key × Data)) (n : String) (v : Data), Data.get? es n = some v →
        Data.get? es' n = some v →
        forSchema (some (.mapping es)) n = forSchema (some (.mapping es')) n) ∧
      ∀ (es es' : List (Key × Data)) (n : String), Data.get? es n = none →
        Data.get? es' n = none → Data.get? es sectionKey = Data.get? es' sectionKey →
        forSchema (some (.mapping es)) n = forSchema (some (.mapping es')) n := by
  refine ⟨fun es ps ss n hsection hsettings hdistinct => ?_,
    fun _ _ _ _ => forSchema_eq_of_get?_eq_some, fun _ _ _ => forSchema_eq_of_get?_eq_none⟩
  refine ⟨ofEntries ss, ?_, ofData_mapping ss, fun _ => ofData_mapping ss, ofEntries_query ss,
    ofEntries_mutation ss, ofEntries_auth ss, ofEntries_extra hdistinct⟩
  rw [forSchema_of_sectionData hsection, hsettings, ofData_mapping]

/-- A section of its own turns mutations on for one schema where they are off for all others, leaves
the guards at the library's value, and has two more entries. -/
theorem forSchema_sections_reporting :
    let named (name : String) (d : Data) : Key × Data := (.text name, d)
    let all := named "augmentation_settings" (.mapping [
      named "mutation" (.flag false), named "auth" (.flag true)])
    let settings := [named "extra" (.number 7), named "mutation" (.flag true),
      named "subscription" (.flag true)]
    let own := [named "augmentation_settings" (.mapping settings)]
    let c (others : List (Key × Data)) : Data :=
      .mapping (others ++ [named "reporting" (.mapping own)])
    (∃ s, forSchema (some (c [all])) "reporting" = .ok s ∧ s.query = .flag true ∧
      s.mutation = .flag true ∧ s.auth = .flag false ∧
      s.extra = .mapping [named "extra" (.number 7), named "subscription" (.flag true)]) ∧
    forSchema (some (c [all])) "reporting" = forSchema (some (c [])) "reporting" ∧
    forSchema (some (c [all])) "blog" = forSchema (some (.mapping [all])) "blog" := by
  intro named all settings own c
  obtain ⟨hsettings, hown, hglobal⟩ := forSchema_sections
  obtain ⟨s, hs, -, -, hquery, hmutation, hauth, hextra⟩ :=
    hsettings [all, named "reporting" (.mapping own)] own settings "reporting" rfl rfl (by decide)
  exact ⟨⟨s, hs, hquery, hmutation, hauth, hextra⟩, hown _ _ _ _ rfl rfl, hglobal _ _ _ rfl rfl rfl⟩

end Settings

end RelationApi

import RelationApi.Proofs.Mutation.Overwriting
import RelationApi.Proofs.Relationship.Sites
import RelationApi.Proofs.Schema.Sorting

/-!
# Generated types are permanent

A generated type makes way for a later one of the same name, so that the later one counts. In a run
over a document this never matters : whatever is written under a name that is taken is equal to what
is there.

Payloads have the names of their mutations, and no two mutations that a root takes have the same
name. Input types have the names of the output types, and all relationships with one output type
have the same inputs (`Relationship.agreeOnInputs_of_collect`). So the types of all the mutations
fit each other (`Mutation.fits_generated`), and a run that starts where all it will write fits
(`Schema.Types.FitsOffers`) reports no replacement.
-/

namespace RelationApi

open Sdl

/-! ## Types of the same name -/

theorem inputTypeName_injective : Function.Injective inputTypeName := by
  intro m n h
  rwa [inputTypeName, inputTypeName, String.append_left_inj, String.append_right_inj] at h

namespace Mutation

/-- Input types of the same name are equal if the relationships agree on their inputs. -/
theorem eq_of_mem_inputs {m m' : Mutation} {i i' : InputType} (hi : i ∈ m.inputs)
    (hi' : i' ∈ m'.inputs) (hn : i'.name.text = i.name.text)
    (hagree : m'.relationship.outputType = m.relationship.outputType →
      m'.relationship.inputs = m.relationship.inputs) : i' = i := by
  have hout : m'.relationship.outputType = m.relationship.outputType := by
    rw [m'.name_of_mem_inputs hi', m.name_of_mem_inputs hi] at hn
    exact inputTypeName_injective hn
  have htype : m'.relationship.inputType? = m.relationship.inputType? := by
    rw [Relationship.inputType?, Relationship.inputType?, hout, hagree hout]
  have hmem : ∀ {q : Mutation} {j : InputType}, j ∈ q.inputs →
      q.relationship.inputType? = some j := by
    intro q j hj
    unfold inputs at hj
    split at hj
    · simpa using hj
    · simp at hj
  exact Option.some.inj ((hmem hi').symm.trans (htype.trans (hmem hi)))

/-- Mutations with different names, whose relationships agree on their inputs, never go with
different types of the same name. -/
theorem fits_generated {ms : List Mutation} {rs : List Relationship}
    (hnodup : (ms.map name).Nodup) (hagree : Relationship.AgreeOnInputs rs)
    (hrs : ∀ m ∈ ms, m.relationship ∈ rs) : Registry.empty.Fits (ms.flatMap generated) := by
  intro e he e' he' hkey
  obtain ⟨m, hm, he⟩ := List.mem_flatMap.1 he
  obtain ⟨m', hm', he'⟩ := List.mem_flatMap.1 he'
  rw [generated_eq, List.mem_append, List.mem_singleton] at he he'
  -- The name tells an input type from a payload, so two types of one name are of one kind.
  rcases he with he | rfl <;> rcases he' with he' | rfl
  · obtain ⟨i, hi, rfl⟩ := List.mem_map.1 he
    obtain ⟨i', hi', rfl⟩ := List.mem_map.1 he'
    have hii : i' = i := eq_of_mem_inputs hi hi' hkey (hagree _ (hrs m' hm') _ (hrs m hm))
    rw [hii]
  · obtain ⟨i, hi, rfl⟩ := List.mem_map.1 he
    rw [m.name_of_mem_inputs hi] at hkey
    exact absurd hkey.symm (inputTypeName_ne_payloadTypeName _ _)
  · obtain ⟨i', hi', rfl⟩ := List.mem_map.1 he'
    rw [m'.name_of_mem_inputs hi'] at hkey
    exact absurd hkey (inputTypeName_ne_payloadTypeName _ _)
  · have hname : m'.name = m.name := payloadTypeName_injective hkey
    rw [List.inj_on_of_nodup_map hnodup hm' hm hname]

end Mutation

/-! ## Runs that replace nothing -/

/-- The run does not report that a type was replaced. -/
def Run.ReplacesNothing {ε α : Type} (x : Run ε α) : Prop := ∀ n, .replaced n ∉ x.log

namespace Run

variable {ε α β : Type}

theorem ReplacesNothing.of_log_eq_nil {x : Run ε α} (h : x.log = []) : x.ReplacesNothing := by
  intro n
  simp [h]

theorem ReplacesNothing.bind {x : Run ε α} {f : α → Run ε β} (hx : x.ReplacesNothing)
    (hf : ∀ a, x.result = .ok a → (f a).ReplacesNothing) : (x >>= f).ReplacesNothing := by
  intro n hn
  rcases mem_log_bind.1 hn with hn | ⟨a, ha, hn⟩
  · exact hx n hn
  · exact hf a ha n hn

/-- A run that goes on after it has reported something else. -/
theorem ReplacesNothing.emit {e : Event} (he : ∀ n, e ≠ .replaced n) {x : Run ε α}
    (hx : x.ReplacesNothing) : (Run.emit e >>= fun _ => x).ReplacesNothing :=
  .bind (fun n hn => he n (List.mem_singleton.1 hn).symm) fun _ _ => hx

end Run

/-- Types that fit replace nothing. -/
theorem overwritten_of_fits {g : Registry String Definition} {ts : List TypeDef}
    (h : g.Fits (ts.map fun t => (t.name, .typeDef t))) : overwritten g ts = [] := by
  induction ts generalizing g with
  | nil => rfl
  | cons t ts ih =>
    have hkept : ¬displaces g t := by
      rw [displaces_iff]
      rintro ⟨old, hold, hne⟩
      have hmem : (t.name, old) ∈ g.entries := Registry.mem_entries_iff.2 hold
      have he : (t.name, old) = (t.name, .typeDef t) :=
        h _ List.mem_cons_self _ (List.mem_append_left _ hmem) rfl
      exact hne (Prod.mk.inj he).2
    rw [overwritten, if_neg hkept, List.nil_append]
    exact ih (Registry.Fits.insert h)

theorem log_addAllGenerated_of_fits {g : Registry String Definition} {ts : List TypeDef}
    (h : g.Fits (ts.map fun t => (t.name, .typeDef t))) : (addAllGenerated g ts).log = [] := by
  rw [log_addAllGenerated, overwritten_of_fits h, List.map_nil]

theorem mutationName_eq_ok {a : Action} {type field name : String}
    (h : a.mutationName type field = .ok name) :
    field ≠ "" ∧ name = a.label ++ type ++ Text.capitalized field := by
  have hfield : field ≠ "" := by
    rintro rfl
    cases h
  rw [mutationName_of_ne a type hfield] at h
  exact ⟨hfield, (Except.ok.inj h).symm⟩

namespace Schema.Types

variable {s : Settings} {t : Types}

/-- All that the root would take of the offers fits the generated types. -/
def FitsOffers (t : Types) (ms : List Mutation) : Prop :=
  t.generated.Fits ((t.taken ms).flatMap Mutation.generated)

theorem FitsOffers.append_left (s : Settings) {ms ms' : List Mutation}
    (h : t.FitsOffers (ms ++ ms')) : t.FitsOffers ms := by
  rw [FitsOffers, taken_append s, List.flatMap_append] at h
  exact h.append_left

/-- Whatever goes with a mutation taken is there in the end. -/
theorem FitsOffers.find?_generated (s : Settings) {ms : List Mutation} (h : t.FitsOffers ms)
    {m : Mutation} (hm : m ∈ t.taken ms) {e : String × Definition} (he : e ∈ m.generated) :
    (ms.foldl (offer s) t).generated.find? e.1 = some e.2 := by
  rw [generated_foldl_offer]
  exact h.find?_insertAll (List.mem_flatMap.2 ⟨m, hm, he⟩)

/-- Once the first offers are made, the others still fit. -/
theorem FitsOffers.foldl_offer (s : Settings) {ms ms' : List Mutation}
    (h : t.FitsOffers (ms ++ ms')) : (ms.foldl (offer s) t).FitsOffers ms' := by
  rw [FitsOffers, taken_append s, List.flatMap_append] at h
  rw [FitsOffers, generated_foldl_offer]
  exact h.insertAll

section Add

variable {root : ObjectType} {r : Relationship} {a : Action}

theorem eq_offer_of_addMutation {t' : Types} (hroot : t.roots.find? .mutation = some root)
    (h : (t.addMutation root s r a).result = .ok t') : t' = t.offer s ⟨r, a⟩ := by
  have hr : r.fieldName ≠ "" := by
    intro hr
    rw [addMutation, hr, mutationName_empty] at h
    cases h
  rw [result_addMutation hroot hr] at h
  exact (Except.ok.inj h).symm

theorem replacesNothing_addMutation (hroot : t.roots.find? .mutation = some root)
    (h : t.FitsOffers [⟨r, a⟩]) : (t.addMutation root s r a).ReplacesNothing := by
  rw [addMutation]
  refine .bind (.of_log_eq_nil rfl) fun name hname => ?_
  obtain ⟨-, hname⟩ := mutationName_eq_ok (mapError_eq_ok_iff.1 hname)
  split_ifs with hfield
  · exact .emit (by simp) (.of_log_eq_nil rfl)
  · have hnew : Mutation.name ⟨r, a⟩ ∉ root.fieldNames := by
      rw [← root.isSome_field?_iff, Mutation.name, ← hname]
      exact hfield
    have hfits : t.generated.Fits (Mutation.generated ⟨r, a⟩) := by
      simpa [FitsOffers, taken_of_some hroot, Mutation.accepted, hnew] using h
    rw [Mutation.generated, Mutation.name, ← hname] at hfits
    refine .bind (.of_log_eq_nil (log_addAllGenerated_of_fits hfits)) fun generated _ => ?_
    exact .emit (by simp) (.of_log_eq_nil rfl)

theorem replacesNothing_addMutations {as : List Action}
    (h : t.FitsOffers (as.map (Mutation.mk r))) : (t.addMutations s r as).ReplacesNothing := by
  induction as generalizing t with
  | nil => exact .of_log_eq_nil rfl
  | cons a as ih =>
    have hsplit : t.FitsOffers ([⟨r, a⟩] ++ as.map (Mutation.mk r)) := h
    rw [addMutations]
    cases hroot : t.roots.find? .mutation with
    | none => exact .of_log_eq_nil rfl
    | some root =>
      refine .bind (replacesNothing_addMutation hroot (hsplit.append_left s)) fun t' ht' => ih ?_
      rw [eq_offer_of_addMutation hroot ht']
      exact hsplit.foldl_offer s

theorem replacesNothing_addRelationship (h : t.FitsOffers (s.offers [r])) :
    (t.addRelationship s r).ReplacesNothing := by
  rw [addRelationship]
  split_ifs
  · exact .emit (by simp) (.of_log_eq_nil rfl)
  · refine .bind (.of_log_eq_nil rfl) fun admitted hadmitted => ?_
    cases admitted with
    | false => exact .emit (by simp) (.of_log_eq_nil rfl)
    | true =>
      have hoffers : s.offers [r] = r.mutations :=
        offers_singleton_of_ok (mapError_eq_ok_iff.1 hadmitted)
      rw [hoffers] at h
      exact replacesNothing_addMutations h

/-- Where all offers fit, adding the relationships replaces nothing. -/
theorem replacesNothing_addRelationships {rs : List Relationship}
    (h : t.FitsOffers (s.offers rs)) : (t.addRelationships s rs).ReplacesNothing := by
  induction rs generalizing t with
  | nil => exact .of_log_eq_nil rfl
  | cons r rs ih =>
    rw [s.offers_cons] at h
    rw [addRelationships]
    refine .bind (replacesNothing_addRelationship (h.append_left s)) fun t' ht' => ih ?_
    rw [(addRelationship_eq_ok_iff.1 ht').2]
    exact h.foldl_offer s

end Add

end Schema.Types

namespace Schema

/-! ## A whole run -/

variable {d : Document} {resolved : Except SettingsFault Settings}

theorem keptByName_defined (d : Document) : KeptByName (sorted d).defined :=
  fun _ _ h => name_of_find?_defined h

/-- Nothing is generated before the run, and all that it can write fits. -/
theorem fitsOffers_sorted {found : List Relationship}
    (h : Relationship.collect (sorted d).defined = .ok found) (s : Settings) :
    (sorted d).FitsOffers (s.offers found) :=
  Mutation.fits_generated ((sorted d).nodup_taken _)
    (Relationship.agreeOnInputs_of_collect (keptByName_defined d) h)
    fun _ hm => s.relationship_mem_of_mem_offers (Types.mem_of_mem_taken hm)

/-- No run replaces a generated type by another, whether it succeeds or fails. -/
theorem replacesNothing_augmentedTypes (d : Document) (resolved : Except SettingsFault Settings) :
    (augmentedTypes d resolved).ReplacesNothing := by
  have hsorted : (Types.ofDocument d).ReplacesNothing :=
    .bind (fun n hn => by simp [Run.emitAll] at hn) fun _ _ => .of_log_eq_nil rfl
  refine .bind hsorted fun t ht => ?_
  obtain rfl : sorted d = t := Except.ok.inj ((result_ofDocument d).symm.trans ht)
  refine .bind (.of_log_eq_nil rfl) fun s _ => .bind (.of_log_eq_nil rfl) fun found hfound => ?_
  refine .emit (by simp) (Types.replacesNothing_addRelationships ?_)
  exact fitsOffers_sorted hfound s

/-- A run reports no replacement. If it succeeds, what it generates comes from a row of writes, one
for each type that goes with a mutation taken. After the first relationships the earlier writes are
done, and the later ones are left to the others. Whatever is written stays as it was written, at
every later moment. -/
theorem generated_permanent (d : Document) (resolved : Except SettingsFault Settings) :
    (∀ n, .replaced n ∉ (augmentedTypes d resolved).log) ∧
    ∀ types, (augmentedTypes d resolved).result = .ok types → ∃ s found writes,
      resolved = .ok s ∧ Relationship.collect (sorted d).defined = .ok found ∧
      writes = ((sorted d).taken (s.offers found)).flatMap Mutation.generated ∧
      types.generated = .ofList writes ∧
      (∀ before after, found = before ++ after → ∃ t earlier later,
        ((sorted d).addRelationships s before).result = .ok t ∧
        (t.addRelationships s after).result = .ok types ∧
        writes = earlier ++ later ∧ t.generated = .ofList earlier) ∧
      ∀ earlier n definition later rest, writes = earlier ++ (n, definition) :: later ++ rest →
        (Registry.ofList (earlier ++ (n, definition) :: later)).find? n = some definition := by
  refine ⟨replacesNothing_augmentedTypes d resolved, fun types h => ?_⟩
  obtain ⟨s, found, hs, hfound, hadd, rfl⟩ := augmentedTypes_eq_ok_iff.1 h
  have hfits := fitsOffers_sorted hfound s
  refine ⟨s, found, _, hs, hfound, rfl, Types.generated_foldl_offer s _ _, ?_, ?_⟩
  · rintro before after rfl
    simp only [List.mem_append] at hadd
    have hsplit := Types.taken_append s (sorted d) (s.offers before) (s.offers after)
    refine ⟨_, _, _, Types.addRelationships_eq_ok_iff.2 ⟨?_, rfl⟩,
      Types.addRelationships_eq_ok_iff.2 ⟨?_, ?_⟩,
      by rw [s.offers_append, hsplit, List.flatMap_append], Types.generated_foldl_offer s _ _⟩
    · exact fun hroot r hr => hadd hroot r (Or.inl hr)
    · rw [Types.isSome_roots_foldl_offer]
      exact fun hroot r hr => hadd hroot r (Or.inr hr)
    · rw [s.offers_append, List.foldl_append]
  · intro earlier n definition later rest hwrites
    rw [Types.FitsOffers, hwrites] at hfits
    have hmem : (n, definition) ∈ earlier ++ (n, definition) :: later := by simp
    exact hfits.append_left.find?_insertAll hmem

/-- Three fields of one relationship type, two of which have the same names for their mutations :
the input type is written twice. -/
theorem generated_permanent_shared_type :
    let lead (name : String) : Field := { name := { text := name }, type := .ofName "R" }
    let r : ObjectType := {
      name := { text := "R" }
      directives := [(Binding.mk ⟨.text "R", .missing, .missing⟩ .missing).toDirective]
      fields := endpointFields "A" "B" ++ [{ name := { text := "since" }, type := .ofName "Int" }] }
    let d : Document := ⟨[
      .typeDef (.object { name := { text := "A" }, fields := [lead "bC"] }),
      .typeDef (.object { name := { text := "AB" }, fields := [lead "c"] }),
      .typeDef (.object { name := { text := "B" }, fields := [lead "r"] }),
      .typeDef (.object r), .typeDef (.object { name := { text := "Mutation" } })]⟩
    (∀ n, .replaced n ∉ (augmentedTypes d (.ok {})).log) ∧ ∃ types writes,
      (augmentedTypes d (.ok {})).result = .ok types ∧ types.generated = .ofList writes ∧
      writes.map Prod.fst = ["_RInput", "_AddABCPayload", "_RemoveABCPayload", "_RInput",
        "_AddBRPayload", "_RemoveBRPayload"] ∧
      ∀ earlier n definition later rest, writes = earlier ++ (n, definition) :: later ++ rest →
        (Registry.ofList (earlier ++ (n, definition) :: later)).find? n = some definition := by
  intro lead r d
  obtain ⟨hlog, hrun⟩ := generated_permanent d (.ok {})
  have hok : (augmentedTypes d (.ok {})).result.isOk = true := by decide
  obtain ⟨types, htypes⟩ := except_isOk_iff.1 hok
  obtain ⟨s, found, writes, hs, hfound, hwrites, hgenerated, -, hstay⟩ := hrun types htypes
  refine ⟨hlog, types, writes, htypes, hgenerated, ?_, hstay⟩
  obtain rfl : {} = s := Except.ok.inj hs
  rw [hwrites, Except.ok.inj (hfound.symm.trans rfl)]
  decide

end Schema

end RelationApi

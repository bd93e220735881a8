import RelationApi.Proofs.Failure
import RelationApi.Proofs.Mutation.Coherence

/-!
# Calls in vain

A call for a relationship gives the mutation root a field for each of its mutations, if it adds them
at all. The names of these fields depend on nothing but the type and the field where the
relationship was found, and from then on the root serves these (`Schema.Types.Serves`) : no call
takes a field away from the root, changes it or puts another in front of it
(`prefix_mutationFields_afterAll`). So a later call for the same type and field is in vain, whatever
else it says and whatever calls came in between (`absorbed_of_added`).
-/

namespace RelationApi.Schema.Types

open Sdl

variable {t u : Types} {c : Call}

/-! ## The fields of the mutation root -/

theorem name_notMem_of_mem_taken {ms : List Mutation} {m : Mutation} (hm : m ∈ t.taken ms) :
    m.name ∉ t.mutationFields.map fun f => f.name.text := by
  cases hroot : t.roots.find? .mutation with
  | none => simp [taken, hroot] at hm
  | some root =>
    rw [taken_of_some hroot] at hm
    rw [mutationFields_of_some hroot]
    exact Mutation.name_notMem_of_mem_accepted hm

/-- The fields that offers add have names of their own. -/
theorem nodup_mutationFields_foldl_offer (s : Settings) (ms : List Mutation)
    (h : (t.mutationFields.map fun f => f.name.text).Nodup) :
    ((ms.foldl (offer s) t).mutationFields.map fun f => f.name.text).Nodup := by
  rw [mutationFields_eq, List.map_append, List.map_map]
  refine List.nodup_append.2 ⟨h, t.nodup_taken ms, ?_⟩
  rintro n hn _ hn' rfl
  obtain ⟨m, hm, rfl⟩ := List.mem_map.1 hn'
  exact name_notMem_of_mem_taken hm hn

/-- Calls only add fields, behind those that are there. -/
theorem prefix_mutationFields_afterAll (t : Types) (cs : List Call) :
    t.mutationFields <+: (t.afterAll cs).mutationFields := by
  induction cs generalizing t with
  | nil => exact List.prefix_rfl
  | cons c cs ih =>
    obtain ⟨s, ms, -, hafter⟩ := after_eq_foldl_offer t c
    refine List.IsPrefix.trans ?_ (ih (t.after c))
    rw [hafter, mutationFields_eq]
    exact List.prefix_append _ _

theorem nodup_mutationFields_afterAll (cs : List Call)
    (h : (t.mutationFields.map fun f => f.name.text).Nodup) :
    ((t.afterAll cs).mutationFields.map fun f => f.name.text).Nodup := by
  induction cs generalizing t with
  | nil => exact h
  | cons c cs ih =>
    obtain ⟨s, ms, -, hafter⟩ := after_eq_foldl_offer t c
    exact ih (hafter ▸ nodup_mutationFields_foldl_offer s ms h)

/-! ## Types and fields that are served -/

/-- The mutation root has a field for each mutation of a relationship found there. -/
def Serves (t : Types) (type field : String) : Prop :=
  ∀ a : Action, a.label ++ type ++ Text.capitalized field ∈
    t.mutationFields.map fun f => f.name.text

theorem Serves.afterAll {type field : String} (h : t.Serves type field) (cs : List Call) :
    (t.afterAll cs).Serves type field :=
  fun a => List.map_subset _ (prefix_mutationFields_afterAll t cs).subset (h a)

/-- A call that adds the mutations of its relationship. -/
theorem serves_of_run {s : Settings} (hs : c.settings = .ok s)
    (happlies : s.mutates c.relationship = .ok true)
    (hroot : (t.roots.find? .mutation).isSome) (hc : (c.run t).result = .ok u) :
    u.Serves c.relationship.typeName c.relationship.fieldName := by
  intro a
  obtain ⟨s', hs', hadd⟩ := Run.result_bind_eq_ok_iff.1 hc
  obtain rfl : s = s' := Except.ok.inj (hs.symm.trans (mapError_eq_ok_iff.1 hs'))
  have hu := (addRelationship_eq_ok_iff.1 hadd).2
  rw [offers_singleton_of_ok happlies, if_pos rfl] at hu
  have hsome := isSome_roots_foldl_offer s t c.relationship.mutations
  rw [← hu, hroot] at hsome
  obtain ⟨root, hroot'⟩ := Option.isSome_iff_exists.1 hsome
  have hmem : Mutation.mk c.relationship a ∈ c.relationship.mutations := by
    cases a <;> simp [Relationship.mutations, Action.all]
  rw [mutationFields_of_some hroot']
  exact name_mem_fieldNames_foldl_offer s t c.relationship.mutations (hu ▸ hroot') _ hmem

/-- A call for a type and a field that are served changes nothing. -/
theorem Serves.eq_of_run (h : t.Serves c.relationship.typeName c.relationship.fieldName)
    (hc : (c.run t).result = .ok u) : u = t := by
  obtain ⟨s, -, hadd⟩ := Run.result_bind_eq_ok_iff.1 hc
  rw [(addRelationship_eq_ok_iff.1 hadd).2]
  refine foldl_offer_of_mem s t fun root hroot m hm => ?_
  have hr : m.relationship = c.relationship :=
    List.mem_singleton.1 (s.relationship_mem_of_mem_offers hm)
  have hfield := h m.action
  rw [mutationFields_of_some hroot, ← hr] at hfield
  exact hfield

/-! ## Calls in any order -/

/-- Once a call was successful that adds the mutations of its relationship, any call for the same
type and field that succeeds returns the types that it was given, whatever calls came in between and
whatever its own settings are. At each moment the fields of the mutation root are the first of those
it has later on, in the same order, and if their names were different at the start, they still
are. -/
theorem absorbed_of_added (t : Types) (c : Call) (later : List Call) {s : Settings}
    (hs : c.settings = .ok s) (happlies : s.mutates c.relationship = .ok true)
    (hroot : (t.roots.find? .mutation).isSome) (hc : (c.run t).result.isOk) :
    (∀ (c' : Call) (u : Types), c'.relationship.typeName = c.relationship.typeName →
      c'.relationship.fieldName = c.relationship.fieldName →
      (c'.run (t.afterAll (c :: later))).result = .ok u → u = t.afterAll (c :: later)) ∧
    ∀ before after, c :: later = before ++ after →
      (t.afterAll before).mutationFields <+: (t.afterAll (c :: later)).mutationFields ∧
      ((t.mutationFields.map fun f => f.name.text).Nodup →
        ((t.afterAll before).mutationFields.map fun f => f.name.text).Nodup) := by
  obtain ⟨t', ht'⟩ := except_isOk_iff.1 hc
  have hsplit : t.afterAll (c :: later) = t'.afterAll later := by
    rw [afterAll, List.foldl_cons, after, ht']
    rfl
  refine ⟨fun c' u htype hfield hu => ?_, fun before after h => ⟨?_, ?_⟩⟩
  · have hserves := (serves_of_run hs happlies hroot ht').afterAll later
    rw [← htype, ← hfield, ← hsplit] at hserves
    exact hserves.eq_of_run hu
  · rw [h, afterAll, afterAll, List.foldl_append]
    exact prefix_mutationFields_afterAll (t.afterAll before) after
  · exact nodup_mutationFields_afterAll before

/-- Between two calls for one field of a type there is one that replaces the input type of the
first, and one that fails. The last one is for other ends, and would add a directive. -/
theorem absorbed_of_added_other_ends :
    let since : Field := { name := { text := "since" }, type := .ofName "Int" }
    let r : Relationship := {
      typeName := "A", fieldName := "bC", outputType := "R", fromType := "A", toType := "B"
      name := .text "R", inputs := [since.toInputValue], outputs := [since] }
    let root : ObjectType := {
      name := { text := "Mutation" }
      fields := [{ name := { text := "RemoveABC" }, type := .ofName "Int" }] }
    let t : Types := ⟨.empty, .empty, .ofList [(.mutation, root)]⟩
    let later : List Call := [
      ⟨{ r with typeName := "C", inputs := [{ since.toInputValue with type := .ofName "ID" }] },
        .ok {}⟩,
      ⟨r, .error .sectionNotMapping⟩]
    let c' : Call := ⟨{ r with fromType := "X", name := .text "S" }, .ok { auth := .flag true }⟩
    let t' : Types := t.afterAll (⟨r, .ok {}⟩ :: later)
    Settings.mutates {} r = .ok true ∧ (t.roots.find? .mutation).isSome ∧
      ((⟨r, .ok {}⟩ : Call).run t).result.isOk ∧
      (t'.mutationFields.map fun f => f.name.text) =
        ["RemoveABC", "AddABC", "AddCBC", "RemoveCBC"] ∧
      ∃ u, (c'.run t').result = .ok u ∧ u = t' := by
  intro since r root t later c' t'
  have happlies : Settings.mutates {} r = .ok true := rfl
  have hc : ((⟨r, .ok {}⟩ : Call).run t).result.isOk := by decide
  have hnames : (t'.mutationFields.map fun f => f.name.text) =
      ["RemoveABC", "AddABC", "AddCBC", "RemoveCBC"] := by decide
  have hok : (c'.run t').result.isOk = true := by decide
  obtain ⟨u, hu⟩ := except_isOk_iff.1 hok
  refine ⟨happlies, rfl, hc, hnames, u, hu, ?_⟩
  exact (absorbed_of_added t ⟨r, .ok {}⟩ later rfl happlies rfl hc).1 c' u rfl rfl hu

end RelationApi.Schema.Types

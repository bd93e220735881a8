import Mathlib.Data.List.Forall2
import RelationApi.Proofs.Annotation.RoundTrip
import RelationApi.Proofs.Schema.Legibility

/-!
# Authorization

Guards are the only trace that the `auth` setting leaves. Two runs over a document whose settings
agree on mutations go through the same relationships, fail at the same one or take the same
mutations, and generate the same types. If only one of the runs uses guards, the fields that it adds
are those of the other run, each with a guard behind its purpose (`authorization_overlay`). So none
of these fields is without its guard, whatever the other settings are.

A guard lists its scopes as texts. They are read back as they were meant, as names have neither
colons nor blanks (`Scope.parse_display`).
-/

namespace RelationApi

open Sdl

/-! ## Settings that agree on mutations -/

namespace Settings

variable {s s' : Settings}

theorem mutates_congr (h : s.mutation = s'.mutation) : s.mutates = s'.mutates := by
  funext r
  rw [mutates_eq, mutates_eq, h]

theorem offers_congr (h : s.mutation = s'.mutation) : s.offers = s'.offers := by
  have hthrough : s.letsThrough = s'.letsThrough := by
    funext r
    rw [letsThrough, letsThrough, mutates_congr h]
  funext rs
  rw [offers, offers, hthrough]

theorem fault?_congr (h : s.mutation = s'.mutation) : s.fault? = s'.fault? := by
  funext r
  rw [fault?, fault?, mutates_congr h]

end Settings

/-! ## Scopes -/

theorem Text.isBlank_eq_false_of_isNamePart {c : Char} (h : isNamePart c) : isBlank c = false :=
  forall_isNamePart (p := fun c => isBlank c = false) (by decide +kernel) h

/-- A scope of names is read back from its text. -/
theorem Scope.parse_display {s : Scope} (htype : IsName s.typeName) (hverb : IsName s.verb) :
    parse s.display = s := by
  have htrimmed : ∀ {n : String}, IsName n → Text.Trimmed n.toList := fun hn =>
    ⟨fun _ hc => Text.isBlank_eq_false_of_isNamePart (hn.parts _ (List.mem_of_mem_head? hc)),
      fun _ hc => Text.isBlank_eq_false_of_isNamePart (hn.parts _ (List.mem_of_getLast? hc))⟩
  refine parse_display_iff.2 ⟨fun hcolon => ?_, htrimmed htype, htrimmed hverb⟩
  exact absurd (htype.parts _ hcolon) (by decide)

/-- A guard whose scopes are read back is read as it was written. -/
theorem ofDirective_guard {g : ScopeGuard} (h : ∀ s ∈ g.scopes, Scope.parse s.display = s) :
    Annotation.ofDirective g.toDirective = .ok (some (.hasScope g)) :=
  Annotation.ofDirective_hasScope_iff.2 fun s hs => Scope.parse_display_iff.1 (h s hs)

/-! ## Guarded fields -/

/-- The field `f` is the field `f'` of a mutation with a guard behind its purpose : the purpose says
what relationship the mutation is for, and the guard asks for the right to `verb` the nodes of both
ends, first of the one where the relationship starts. -/
structure Guards (r : Relationship) (label verb : String) (f f' : Field) : Prop where
  name : f'.name.text = label ++ r.typeName ++ Text.capitalized r.fieldName
  rest : f = { f' with directives := f.directives }
  directives : ∃ purpose guard, f'.directives = [purpose] ∧ f.directives = [purpose, guard] ∧
    Annotation.ofDirective purpose =
      .ok (some (.mutationMeta ⟨⟨r.name, .text r.fromType, .text r.toType⟩⟩)) ∧
    Annotation.ofDirective guard = .ok (some (.hasScope ⟨[⟨r.fromType, verb⟩, ⟨r.toType, verb⟩]⟩))

/-- The fields of one mutation with and without guards, between types that have names. -/
theorem Mutation.guards (m : Mutation) (hfrom : IsName m.relationship.fromType)
    (hto : IsName m.relationship.toType) {s s' : Settings} (hs : s.uses .hasScope = true)
    (hs' : s'.uses .hasScope = false) :
    Guards m.relationship m.action.label m.action.verb (m.field s) (m.field s') := by
  obtain ⟨r, a⟩ := m
  have hverb : IsName a.verb := by cases a <;> decide
  have hscopes : ∀ scope ∈ (r.scopes a).scopes, Scope.parse scope.display = scope :=
    List.forall_mem_cons.2 ⟨Scope.parse_display hfrom hverb,
      List.forall_mem_singleton.2 (Scope.parse_display hto hverb)⟩
  have hguarded : (Mutation.field ⟨r, a⟩ s).directives =
      [(MutationPurpose.mk r.link).toDirective, (r.scopes a).toDirective] := by
    change _ :: (if s.uses .hasScope then _ else _) = _
    rw [hs]
    rfl
  have hplain : (Mutation.field ⟨r, a⟩ s').directives =
      [(MutationPurpose.mk r.link).toDirective] := by
    change _ :: (if s'.uses .hasScope then _ else _) = _
    rw [hs']
    rfl
  exact ⟨rfl, rfl, _, _, hplain, hguarded, ofDirective_purpose _, ofDirective_guard hscopes⟩

namespace Schema

variable {text : String} {d : Document} {s s' : Settings}

/-- Settings that agree on mutations let a run fail in the same way. -/
theorem augmentedTypes_eq_error_congr (h : s.mutation = s'.mutation) {e : Fault} :
    (augmentedTypes d (.ok s)).result = .error e ↔
      (augmentedTypes d (.ok s')).result = .error e := by
  rw [augmentedTypes_eq_error_iff, augmentedTypes_eq_error_iff, Settings.fault?_congr h]

/-- The types with the mutations for relationships that were `found` in the types `t`, with and
without guards : only the fields that were added to the mutation root differ, and these only by
their guards. -/
structure Overlay (t : Types) (found : List Relationship) (guarded plain : Types) : Prop where
  defined : guarded.defined = t.defined ∧ plain.defined = t.defined
  generated : guarded.generated = plain.generated
  operations : guarded.roots.keys = t.roots.keys ∧ plain.roots.keys = t.roots.keys
  others : ∀ k ≠ .mutation,
    guarded.roots.find? k = t.roots.find? k ∧ plain.roots.find? k = t.roots.find? k
  mutation : ∃ added added',
    guarded.roots.find? .mutation = (t.roots.find? .mutation).map (·.extend added) ∧
    plain.roots.find? .mutation = (t.roots.find? .mutation).map (·.extend added') ∧
    List.Forall₂ (fun f f' => ∃ r ∈ found, Guards r "Add" "Create" f f' ∨
      Guards r "Remove" "Delete" f f') added added'

/-- The same offers with and without guards. -/
theorem overlay_of_offers (t : Types) {found : List Relationship} {ms : List Mutation}
    (hms : ∀ m ∈ ms, m.relationship ∈ found)
    (hnames : ∀ r ∈ found, IsName r.fromType ∧ IsName r.toType)
    (hs : s.uses .hasScope = true) (hs' : s'.uses .hasScope = false) :
    Overlay t found (ms.foldl (Types.offer s) t) (ms.foldl (Types.offer s') t) := by
  obtain ⟨hdefined, hkeys, hothers⟩ := Types.foldl_offer_frame s t ms
  obtain ⟨hdefined', hkeys', hothers'⟩ := Types.foldl_offer_frame s' t ms
  refine ⟨⟨hdefined, hdefined'⟩, ?_, ⟨hkeys, hkeys'⟩, fun k hk => ⟨hothers k hk, hothers' k hk⟩,
    _, _, Types.find?_roots_foldl_offer s t ms, Types.find?_roots_foldl_offer s' t ms, ?_⟩
  · rw [Types.generated_foldl_offer, Types.generated_foldl_offer]
  · rw [List.forall₂_map_left_iff, List.forall₂_map_right_iff, List.forall₂_same]
    intro m hm
    have hr := hms m (Types.mem_of_mem_taken hm)
    have hguards := m.guards (hnames _ hr).1 (hnames _ hr).2 hs hs'
    refine ⟨m.relationship, hr, ?_⟩
    cases h : m.action <;> rw [h] at hguards
    · exact Or.inl hguards
    · exact Or.inr hguards

/-- Two runs over a document that was read, with settings that agree on mutations, of which only the
first use guards, fail in the same way, or both succeed and differ by guards only. -/
theorem authorization_overlay (hparse : Document.parse text = .ok d)
    (hmutation : s.mutation = s'.mutation) (hs : s.uses .hasScope = true)
    (hs' : s'.uses .hasScope = false) :
    (∃ e, (augmentedTypes d (.ok s)).result = .error e ∧
      (augmentedTypes d (.ok s')).result = .error e) ∨
    ∃ found guarded plain, Relationship.collect (sorted d).defined = .ok found ∧
      (augmentedTypes d (.ok s)).result = .ok guarded ∧
      (augmentedTypes d (.ok s')).result = .ok plain ∧
      Overlay (sorted d) found guarded plain := by
  cases h : (augmentedTypes d (.ok s)).result with
  | error e => exact Or.inl ⟨e, rfl, (augmentedTypes_eq_error_congr hmutation).1 h⟩
  | ok guarded =>
    cases h' : (augmentedTypes d (.ok s')).result with
    | error e =>
      rw [(augmentedTypes_eq_error_congr hmutation).2 h'] at h
      cases h
    | ok plain =>
      obtain ⟨_, found, hsettings, hfound, -, rfl⟩ := augmentedTypes_eq_ok_iff.1 h
      cases hsettings
      obtain ⟨_, found', hsettings, hfound', -, rfl⟩ := augmentedTypes_eq_ok_iff.1 h'
      cases hsettings
      cases hfound.symm.trans hfound'
      refine Or.inr ⟨found, _, _, hfound, rfl, rfl, ?_⟩
      rw [Settings.offers_congr hmutation]
      refine overlay_of_offers (sorted d) (fun m hm => s'.relationship_mem_of_mem_offers hm)
        (fun r hr => ?_) hs hs'
      have hlegible := legible_of_mem_collect (Document.legible_of_read hparse) hfound hr
      exact ⟨hlegible.fromType, hlegible.toType⟩

/-- Users who watch movies and robots, and a mutation root with a field of its own. -/
def watchedMovies : String :=
  let block (fields : String) : String := " \x7b " ++ fields ++ " \x7d "
  "type User" ++ block ("watched: [Movie!]! @relation(name: \"WATCHED\") " ++
    "owns: [Robot] @relation(name: \"OWNS\")") ++
  "type Movie" ++ block "title: String" ++
  "type Robot" ++ block "serial: ID" ++
  "type Mutation" ++ block "noop: Boolean"

/-- Mutations for robots are ruled out, and guards turned on by name. -/
theorem authorization_overlay_watched :
    let mutation : Data := .mapping [(.text "exclude", .list [.text "Robot"])]
    let s : Settings := {
      query := .flag false, mutation
      auth := .mapping [(.text "hasRole", .flag false), (.text "hasScope", .flag true)] }
    let s' : Settings := { mutation, extra := .mapping [(.text "hasScope", .flag true)] }
    ∃ d found guarded plain, Document.parse watchedMovies = .ok d ∧ s.mutation = s'.mutation ∧
      s.uses .hasScope = true ∧ s'.uses .hasScope = false ∧
      Relationship.collect (sorted d).defined = .ok found ∧
      (augmentedTypes d (.ok s)).result = .ok guarded ∧
      (augmentedTypes d (.ok s')).result = .ok plain ∧ Overlay (sorted d) found guarded plain ∧
      guarded.mutationFields.map (fun f => f.name.text) =
        ["noop", "AddUserWatched", "RemoveUserWatched"] := by
  intro mutation s s'
  have hs : s.uses .hasScope = true := by decide
  have hs' : s'.uses .hasScope = false := by decide
  have hinput : ∃ d, Document.parse watchedMovies = .ok d ∧
      ∃ guarded, (augmentedTypes d (.ok s)).result = .ok guarded ∧
        guarded.mutationFields.map (fun f => f.name.text) =
          ["noop", "AddUserWatched", "RemoveUserWatched"] := by
    decide +kernel
  obtain ⟨d, hparse, guarded, hok, hfields⟩ := hinput
  rcases authorization_overlay hparse (show s.mutation = s'.mutation from rfl) hs hs' with
    ⟨e, he, -⟩ | ⟨found, _, plain, hfound, hguarded, hplain, hoverlay⟩
  · rw [hok] at he
    cases he
  · cases hok.symm.trans hguarded
    exact ⟨d, found, guarded, plain, hparse, rfl, hs, hs', hfound, hok, hplain, hoverlay, hfields⟩

end Schema

end RelationApi

import Mathlib.Data.List.DropRight
import Mathlib.Data.List.TakeDrop
import RelationApi.Annotation.Basic
import RelationApi.Proofs.Failure

/-!
# Annotations that are written and read back

Writing an annotation and reading it back loses two things. An attribute that is not given is left
out of a binding, so that it comes back as missing (`Scalar.normal`); and a scope is written as a
text, from which it comes back as it was only if the text shows where its type ends and its verb
begins (`Scope.parse_display_iff`). A purpose loses nothing.

What is read has the form of what is written already, for the scopes as for the rest. So whatever a
directive was, the one written for it is written again for what that one says
(`Annotation.toDirective_of_ofDirective`).
-/

namespace RelationApi

open Sdl

namespace Text

/-! ## Texts without blanks at their ends -/

/-- The text neither starts nor ends with a blank. -/
def Trimmed (cs : List Char) : Prop :=
  (∀ c ∈ cs.head?, isBlank c = false) ∧ ∀ c ∈ cs.getLast?, isBlank c = false

instance (cs : List Char) : Decidable (Trimmed cs) := inferInstanceAs (Decidable (_ ∧ _))

theorem strip_eq_rdropWhile (cs : List Char) :
    strip cs = (cs.dropWhile isBlank).rdropWhile isBlank := rfl

theorem trimmed_strip (cs : List Char) : Trimmed (strip cs) := by
  rw [strip_eq_rdropWhile]
  constructor
  · intro c hc
    obtain ⟨rest, hrest⟩ := List.rdropWhile_prefix isBlank (cs.dropWhile isBlank)
    have hhead : (cs.dropWhile isBlank).head? = some c := by
      rw [← hrest, List.head?_append, Option.mem_def.1 hc, Option.some_or]
    simpa [hhead] using List.head?_dropWhile_not isBlank cs
  · intro c hc
    obtain ⟨hne, rfl⟩ := List.mem_getLast?_eq_getLast hc
    simpa using List.rdropWhile_last_not isBlank _ hne

/-- Only a text without blanks at its ends stays as it is. -/
theorem strip_eq_self_iff {cs : List Char} : strip cs = cs ↔ Trimmed cs := by
  constructor
  · intro h
    exact h ▸ trimmed_strip cs
  · rintro ⟨hhead, hlast⟩
    have hdrop : cs.dropWhile isBlank = cs := by
      cases cs with
      | nil => rfl
      | cons c cs => exact List.dropWhile_cons_of_neg (by simp [hhead c rfl])
    rw [strip_eq_rdropWhile, hdrop, List.rdropWhile_eq_self_iff]
    intro hne
    simp [hlast _ (List.getLast?_eq_some_getLast hne)]

theorem strip_cons_of_isBlank {c : Char} (hc : isBlank c = true) (cs : List Char) :
    strip (c :: cs) = strip cs := by
  rw [strip, List.dropWhile_cons_of_pos hc]
  rfl

theorem mem_of_mem_strip {c : Char} {cs : List Char} (h : c ∈ strip cs) : c ∈ cs :=
  (List.dropWhile_suffix isBlank).subset ((List.rdropWhile_prefix isBlank _).subset h)

end Text

/-! ## Scopes -/

namespace Scope

/-- The text of the scope shows where the type ends and where the verb begins. -/
structure IsReadable (s : Scope) : Prop where
  colon : ':' ∉ s.typeName.toList
  typeName : Text.Trimmed s.typeName.toList
  verb : Text.Trimmed s.verb.toList

/-- What stands before a colon and behind it and a space, without the blanks around both. -/
theorem parse_of_colon {type verb : List Char} (h : ':' ∉ type) :
    parse (String.ofList (type ++ ':' :: ' ' :: verb)) =
      ⟨String.ofList (Text.strip type), String.ofList (Text.strip verb)⟩ := by
  have hpos : ∀ c ∈ type, decide (c ≠ ':') = true := by
    intro c hc
    rw [decide_eq_true_eq]
    rintro rfl
    exact h hc
  have hspan : (type ++ ':' :: ' ' :: verb).span (· ≠ ':') = (type, ':' :: ' ' :: verb) := by
    rw [List.span_eq_takeWhile_dropWhile, List.takeWhile_append_of_pos hpos,
      List.dropWhile_append_of_pos hpos]
    simp
  have hblank : Text.isBlank ' ' = true := by decide
  unfold parse
  rw [String.toList_ofList, hspan]
  dsimp only [List.tail_cons]
  rw [Text.strip_cons_of_isBlank hblank]

theorem isReadable_parse (text : String) : (parse text).IsReadable := by
  unfold parse
  rw [List.span_eq_takeWhile_dropWhile]
  refine ⟨fun h => ?_, ?_, ?_⟩
  · rw [String.toList_ofList] at h
    simpa using List.mem_takeWhile_imp (Text.mem_of_mem_strip h)
  · rw [String.toList_ofList]
    exact Text.trimmed_strip _
  · rw [String.toList_ofList]
    exact Text.trimmed_strip _

/-- The scopes that come back as they are. -/
theorem parse_display_iff {s : Scope} : parse s.display = s ↔ s.IsReadable := by
  constructor
  · intro h
    exact h ▸ isReadable_parse s.display
  · intro h
    have htext : s.display = String.ofList (s.typeName.toList ++ ':' :: ' ' :: s.verb.toList) := by
      rw [← String.toList_inj]
      simp [display]
    rw [htext, parse_of_colon h.colon, Text.strip_eq_self_iff.2 h.typeName,
      Text.strip_eq_self_iff.2 h.verb, String.ofList_toList, String.ofList_toList]

theorem parse_display_parse (text : String) : parse (parse text).display = parse text :=
  parse_display_iff.2 (isReadable_parse text)

end Scope

namespace ScopeGuard

/-- What any scopes are read back as. -/
theorem ofDirective_toDirective (g : ScopeGuard) :
    ofDirective g.toDirective = .ok ⟨g.scopes.map fun s => Scope.parse s.display⟩ := by
  change ScopeGuard.mk <$> ((g.scopes.map fun s => Value.ofText s.display).mapM
    fun v => scopeOf v.scalar) = _
  suffices h : ((g.scopes.map fun s => Value.ofText s.display).mapM fun v => scopeOf v.scalar) =
      .ok (g.scopes.map fun s => Scope.parse s.display) by
    rw [h]
    rfl
  induction g.scopes with
  | nil => rfl
  | cons s ss ih =>
    have hs : scopeOf (Value.ofText s.display).scalar = .ok (Scope.parse s.display) := rfl
    rw [List.map_cons, List.mapM_cons, hs, ih]
    rfl

theorem scopeOf_eq_ok {v : Scalar} {s : Scope} (h : scopeOf v = .ok s) : s.IsReadable := by
  cases v with
  | text t => exact Except.ok.inj h ▸ Scope.isReadable_parse t
  | flag | missing => cases h

theorem isReadable_of_mapM {vs : List Value} {ss : List Scope}
    (h : (vs.mapM fun v => scopeOf v.scalar) = .ok ss) : ∀ s ∈ ss, s.IsReadable := by
  induction vs generalizing ss with
  | nil =>
    cases h
    exact fun _ hs => absurd hs List.not_mem_nil
  | cons v vs ih =>
    rw [List.mapM_cons] at h
    obtain ⟨s, hs, h⟩ := except_bind_eq_ok_iff.1 h
    obtain ⟨ss, hss, h⟩ := except_bind_eq_ok_iff.1 h
    cases h
    exact List.forall_mem_cons.2 ⟨scopeOf_eq_ok hs, ih hss⟩

/-- Every scope that is read from a directive is read back. -/
theorem isReadable_of_ofDirective {d : Directive} {g : ScopeGuard} (h : ofDirective d = .ok g) :
    ∀ s ∈ g.scopes, s.IsReadable := by
  unfold ofDirective at h
  split at h
  · obtain ⟨ss, hss, rfl⟩ := except_map_eq_ok_iff.1 h
    exact isReadable_of_mapM hss
  · obtain ⟨s, hs, h⟩ := except_bind_eq_ok_iff.1 h
    cases h
    exact List.forall_mem_singleton.2 (scopeOf_eq_ok hs)
  · cases h
    exact fun _ hs => absurd hs List.not_mem_nil

end ScopeGuard

/-! ## Bindings -/

/-- The attribute, or nothing if it does not count as given. -/
def Sdl.Scalar.normal (v : Scalar) : Scalar := if v.isGiven then v else .missing

theorem Sdl.Scalar.normal_eq_self_iff {v : Scalar} :
    v.normal = v ↔ v = .missing ∨ v.isGiven = true := by
  rw [normal]
  split
  · next h => simp [h]
  · next h => simp [h, eq_comm]

@[simp] theorem Sdl.Scalar.isGiven_normal (v : Scalar) : v.normal.isGiven = v.isGiven := by
  rw [normal]
  split
  · rfl
  · next h => simpa [isGiven] using h

namespace Binding

/-- The binding without the attributes that are not given. -/
def normal (b : Binding) : Binding :=
  { link := ⟨b.link.name, b.link.fromType.normal, b.link.toType.normal⟩
    direction := b.direction.normal }

theorem normal_eq_self_iff {b : Binding} : b.normal = b ↔
    ∀ v ∈ [b.link.fromType, b.link.toType, b.direction], v = .missing ∨ v.isGiven = true := by
  obtain ⟨⟨name, fromType, toType⟩, direction⟩ := b
  simp [normal, Scalar.normal_eq_self_iff, and_assoc]

/-- A binding loses the attributes that are not given when it is read back. -/
theorem ofDirective_toDirective (b : Binding) : ofDirective b.toDirective = b.normal := by
  obtain ⟨⟨name, fromType, toType⟩, direction⟩ := b
  rw [normal, toDirective]
  cases hfrom : fromType.isGiven <;> cases hto : toType.isGiven <;>
    cases hdirection : direction.isGiven <;>
    simp only [optional, Scalar.normal, hfrom, hto, hdirection] <;> rfl

/-- These attributes are not written in the first place. -/
theorem toDirective_normal (b : Binding) : b.normal.toDirective = b.toDirective := by
  have hoptional : ∀ (argument : Scalar → Argument) (v : Scalar),
      optional (argument v.normal) v.normal = optional (argument v) v := by
    intro argument v
    rw [optional, optional, Scalar.isGiven_normal]
    split
    · next h => rw [Scalar.normal, if_pos h]
    · rfl
  rw [toDirective, toDirective, normal]
  dsimp only
  rw [hoptional (textArgument "from"), hoptional (textArgument "to"),
    hoptional fun v => { name := { text := "direction" }, value := .enum v none }]

end Binding

/-! ## Annotations -/

namespace Annotation

theorem ofDirective_mutationMeta (m : MutationPurpose) :
    ofDirective (mutationMeta m).toDirective = .ok (some (mutationMeta m)) := rfl

theorem ofDirective_relation (b : Binding) :
    ofDirective (relation b).toDirective = .ok (some (relation b.normal)) := by
  change Except.ok (some (relation (Binding.ofDirective b.toDirective))) = _
  rw [b.ofDirective_toDirective]

theorem ofDirective_hasScope (g : ScopeGuard) :
    ofDirective (hasScope g).toDirective =
      .ok (some (hasScope ⟨g.scopes.map fun s => Scope.parse s.display⟩)) := by
  change (ScopeGuard.ofDirective g.toDirective >>= _) = _
  rw [g.ofDirective_toDirective]
  rfl

theorem ofDirective_relation_iff {b : Binding} :
    ofDirective (relation b).toDirective = .ok (some (relation b)) ↔
      ∀ v ∈ [b.link.fromType, b.link.toType, b.direction], v = .missing ∨ v.isGiven = true := by
  rw [ofDirective_relation, ← Binding.normal_eq_self_iff]
  simp

theorem ofDirective_hasScope_iff {g : ScopeGuard} :
    ofDirective (hasScope g).toDirective = .ok (some (hasScope g)) ↔
      ∀ s ∈ g.scopes, s.IsReadable := by
  obtain ⟨ss⟩ := g
  have hmap := List.map_inj_left (l := ss) (f := fun s => Scope.parse s.display) (g := id)
  rw [List.map_id] at hmap
  rw [ofDirective_hasScope]
  simp only [Except.ok.injEq, Option.some.injEq, hasScope.injEq, ScopeGuard.mk.injEq, hmap, id_eq,
    Scope.parse_display_iff]

/-- What was read from a directive is written in the form in which it is read again. -/
theorem toDirective_of_ofDirective {d : Directive} {v : Annotation}
    (h : ofDirective d = .ok (some v)) :
    ∃ v', ofDirective v.toDirective = .ok (some v') ∧ v'.toDirective = v.toDirective := by
  cases v with
  | mutationMeta m => exact ⟨_, ofDirective_mutationMeta m, rfl⟩
  | relation b => exact ⟨_, ofDirective_relation b, b.toDirective_normal⟩
  | hasScope g =>
    unfold ofDirective at h
    split at h
    · cases h
    · cases h
    · obtain ⟨g', hg, h⟩ := except_bind_eq_ok_iff.1 h
      cases h
      exact ⟨_, ofDirective_hasScope_iff.2 (ScopeGuard.isReadable_of_ofDirective hg), rfl⟩
    · cases h

/-- A purpose is read back as it was written. A binding is if each of its attributes but the name is
missing or given, and a guard if no type in its scopes has a colon and nothing in them has a blank
at an end, which is to say that each scope is read back from its text. Whatever is read from any
directive is written in a form that is kept from then on, and so is a scope that is read from a
text. -/
theorem roundTrip :
    (∀ m, ofDirective (mutationMeta m).toDirective = .ok (some (mutationMeta m))) ∧
    (∀ b, ofDirective (relation b).toDirective = .ok (some (relation b)) ↔
      ∀ v ∈ [b.link.fromType, b.link.toType, b.direction], v = .missing ∨ v.isGiven = true) ∧
    (∀ g, ofDirective (hasScope g).toDirective = .ok (some (hasScope g)) ↔
      ∀ s ∈ g.scopes, ':' ∉ s.typeName.toList ∧ Text.Trimmed s.typeName.toList ∧
        Text.Trimmed s.verb.toList) ∧
    (∀ s, Scope.parse s.display = s ↔ ':' ∉ s.typeName.toList ∧
      Text.Trimmed s.typeName.toList ∧ Text.Trimmed s.verb.toList) ∧
    (∀ d v, ofDirective d = .ok (some v) →
      ∃ v', ofDirective v.toDirective = .ok (some v') ∧ v'.toDirective = v.toDirective) ∧
    ∀ text, Scope.parse (Scope.parse text).display = Scope.parse text := by
  have hreadable : ∀ s : Scope, s.IsReadable ↔ ':' ∉ s.typeName.toList ∧
      Text.Trimmed s.typeName.toList ∧ Text.Trimmed s.verb.toList := fun s =>
    ⟨fun h => ⟨h.colon, h.typeName, h.verb⟩, fun h => ⟨h.1, h.2.1, h.2.2⟩⟩
  simp only [← hreadable]
  exact ⟨ofDirective_mutationMeta, fun _ => ofDirective_relation_iff,
    fun _ => ofDirective_hasScope_iff, fun _ => Scope.parse_display_iff,
    fun _ _ => toDirective_of_ofDirective, Scope.parse_display_parse⟩

/-- A directive whose arguments come in another order, one of them twice, one empty and one of no
use, is read with an attribute that is not given, and is written without it. -/
theorem roundTrip_empty :
    let d : Directive := {
      name := { text := "relation" }
      arguments := [textArgument "to" (.text "Movie"), textArgument "from" (.text ""),
        textArgument "name" (.text "WATCHED"), textArgument "name" (.text "SAW"),
        { name := { text := "direction" }, value := .null none }] }
    let b : Binding := ⟨⟨.text "WATCHED", .text "", .text "Movie"⟩, .missing⟩
    ofDirective d = .ok (some (relation b)) ∧
      ofDirective b.toDirective ≠ .ok (some (relation b)) ∧
      ∃ v', ofDirective b.toDirective = .ok (some v') ∧ v'.toDirective = b.toDirective := by
  intro d b
  have hread : ofDirective d = .ok (some (relation b)) := rfl
  obtain ⟨-, hrelation, -, -, hnormal, -⟩ := roundTrip
  exact ⟨hread, fun h => absurd ((hrelation b).1 h) (by decide), hnormal d _ hread⟩

end Annotation

end RelationApi

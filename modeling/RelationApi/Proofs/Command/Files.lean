import Mathlib.Tactic.SplitIfs
import RelationApi.Command.Files
import RelationApi.Proofs.Failure

/-!
# Writing a file

A path leads to a place step by step, and each step is made from a directory. So all that is above
the place is a directory already (`FileTree.Under`), and putting a file there makes no directory
(`FileTree.isDirectory_insert`). Hence every path leads where it led before, and what is read under
it is as before, unless it leads to the new file (`FileTree.read_insert_eq_ok_iff`).
-/

namespace RelationApi.FileTree

variable {t : FileTree} {path : String} {place : List String}

/-! ## Where paths lead -/

/-- The path leads to the place. -/
def Leads (t : FileTree) (path : String) (place : List String) : Prop :=
  ∃ first parts, start path = .ok (first, parts) ∧ t.walk first parts = .ok place

/-- A path leads to one place at most. -/
theorem Leads.unique {other : List String} (h : t.Leads path place) (h' : t.Leads path other) :
    place = other := by
  obtain ⟨first, parts, hstart, hwalk⟩ := h
  obtain ⟨first', parts', hstart', hwalk'⟩ := h'
  obtain ⟨rfl, rfl⟩ := Prod.mk.inj (Except.ok.inj (hstart.symm.trans hstart'))
  exact Except.ok.inj (hwalk.symm.trans hwalk')

/-- What can be read is the file that the path leads to. -/
theorem read_eq_ok_iff {content : ByteArray} : t.read path = .ok content ↔
    ∃ place, t.Leads path place ∧ t.find? place = some (.file content) := by
  rw [read, except_bind_eq_ok_iff]
  constructor
  · rintro ⟨⟨first, parts⟩, hstart, h⟩
    obtain ⟨place, hwalk, h⟩ := except_bind_eq_ok_iff.1 h
    split at h
    · next hfind =>
      cases h
      exact ⟨place, ⟨first, parts, hstart, hwalk⟩, hfind⟩
    · cases h
  · rintro ⟨place, ⟨first, parts, hstart, hwalk⟩, hfind⟩
    refine ⟨_, hstart, except_bind_eq_ok_iff.2 ⟨place, hwalk, ?_⟩⟩
    rw [hfind]
    rfl

/-- A path can be written to if it can be walked, and ends neither in a slash nor at a
directory. -/
theorem target_eq_ok_iff : t.target path = .ok place ↔ ∃ first parts,
    start path = .ok (first, parts) ∧ named parts = parts ∧ t.walk first parts = .ok place ∧
      t.isDirectory place = false := by
  rw [target, except_bind_eq_ok_iff, Prod.exists]
  refine exists₂_congr fun first parts => and_congr_right fun _ => ?_
  by_cases hnamed : named parts = parts
  · simp only [hnamed, ne_eq, not_true_eq_false, if_false, true_and, except_bind_eq_ok_iff]
    constructor
    · rintro ⟨a, hwalk, h⟩
      split at h
      · cases h
      · next hfile =>
        cases h
        exact ⟨hwalk, Bool.eq_false_iff.2 hfile⟩
    · rintro ⟨hwalk, hfile⟩
      exact ⟨place, hwalk, by rw [hfile]; rfl⟩
  · simp [hnamed, except_bind_eq_ok_iff]

/-! ## What is above a place -/

/-- A place is a directory if it is the root, the working directory or one above it, was made as
one, or has something below it. -/
theorem isDirectory_iff : t.isDirectory place ↔ place = root ∨ (∀ part ∈ place, part = back) ∨
    t.find? place = some .directory ∨
      t.find? place = none ∧ ∃ k ∈ t.keys, place <+: k ∧ k ≠ place := by
  unfold isDirectory
  cases t.find? place with
  | none => simp [or_assoc]
  | some e => cases e <;> simp

/-- All that is above the place is a directory. -/
def Under (t : FileTree) (place : List String) : Prop :=
  ∀ above, above <+: place → above ≠ place → t.isDirectory above

theorem under_step (h : t.Under place) (hd : t.isDirectory place) (part : List Char) :
    t.Under (step place part) := by
  have hconcat (name : String) : t.Under (place ++ [name]) := by
    intro above habove hne
    rcases List.prefix_concat_iff.1 habove with heq | habove
    · exact absurd heq hne
    · by_cases heq : above = place
      · rwa [heq]
      · exact h above habove heq
  unfold step
  split_ifs
  · exact h
  · exact h
  · exact hconcat back
  · intro above habove hne
    refine h above (habove.trans (List.dropLast_prefix place)) ?_
    rintro rfl
    exact hne (List.IsPrefix.eq_of_length_le habove (List.dropLast_prefix above).length_le)
  · exact hconcat _

/-- All that a walk reaches is below directories. -/
theorem under_walk {first : List String} {parts : List (List Char)} (h : t.Under first)
    (hwalk : t.walk first parts = .ok place) : t.Under place := by
  induction parts generalizing first with
  | nil => exact Except.ok.inj hwalk ▸ h
  | cons part parts ih =>
    rw [walk] at hwalk
    split_ifs at hwalk with hd hlong
    exact ih (under_step h hd part) hwalk

theorem Leads.under (h : t.Leads path place) : t.Under place := by
  obtain ⟨first, parts, hstart, hwalk⟩ := h
  have hfirst : first = [] ∨ first = root := by
    unfold start at hstart
    split_ifs at hstart
    split at hstart <;> cases hstart
    · exact Or.inr rfl
    · exact Or.inl rfl
  refine under_walk (fun above habove hne => ?_) hwalk
  have hnil : above = [] := by
    rcases hfirst with rfl | rfl
    · exact List.prefix_nil.1 habove
    · exact List.prefix_nil.1 ((List.prefix_concat_iff.1 habove).resolve_left hne)
  rw [hnil]
  rfl

/-- A file to write has a place that its path leads to, and that is no directory. -/
theorem leads_of_target (h : t.target path = .ok place) :
    t.Leads path place ∧ t.isDirectory place = false := by
  obtain ⟨first, parts, hstart, -, hwalk, hfile⟩ := target_eq_ok_iff.1 h
  exact ⟨⟨first, parts, hstart, hwalk⟩, hfile⟩

/-! ## Putting a file somewhere -/

section Insert

variable (h : t.Under place) (hfile : t.isDirectory place = false) (content : ByteArray)
include h hfile

/-- Writing to a file makes and removes no directory. -/
theorem isDirectory_insert (other : List String) :
    isDirectory (t.insert place (.file content)) other = t.isDirectory other := by
  have hkeys (k : List String) :
      k ∈ (t.insert place (.file content)).keys ↔ k ∈ t.keys ∨ k = place := by
    rw [Registry.keys_insert]
    split_ifs with hk
    · exact ⟨Or.inl, fun hk' => hk'.elim id fun heq => heq ▸ hk⟩
    · rw [List.mem_append, List.mem_singleton]
  by_cases ho : other = place
  · subst ho
    rw [hfile, Bool.eq_false_iff, Ne, isDirectory_iff, Registry.find?_insert_self]
    rw [Bool.eq_false_iff, Ne, isDirectory_iff] at hfile
    rintro (hroot | hback | hdir | ⟨hnone, -⟩)
    · exact hfile (Or.inl hroot)
    · exact hfile (Or.inr (Or.inl hback))
    · cases hdir
    · cases hnone
  · rw [Bool.eq_iff_iff, isDirectory_iff, Registry.find?_insert_of_ne _ ho]
    constructor
    · rintro (hroot | hback | hdir | ⟨hnone, k, hk, hpre, hne⟩)
      · exact isDirectory_iff.2 (Or.inl hroot)
      · exact isDirectory_iff.2 (Or.inr (Or.inl hback))
      · exact isDirectory_iff.2 (Or.inr (Or.inr (Or.inl hdir)))
      · -- What the new file makes a directory was one, since the path led through it.
        rcases (hkeys k).1 hk with hk | rfl
        · exact isDirectory_iff.2 (Or.inr (Or.inr (Or.inr ⟨hnone, k, hk, hpre, hne⟩)))
        · exact h other hpre ho
    · rw [isDirectory_iff]
      exact Or.imp_right (Or.imp_right (Or.imp_right (And.imp_right
        fun ⟨k, hk, hpre⟩ => ⟨k, (hkeys k).2 (Or.inl hk), hpre⟩)))

/-- Walks go where they went before a file was written. -/
theorem walk_insert_eq_ok_iff {first other : List String} {parts : List (List Char)} :
    walk (t.insert place (.file content)) first parts = .ok other ↔
      t.walk first parts = .ok other := by
  induction parts generalizing first with
  | nil => rfl
  | cons part parts ih =>
    rw [walk, walk, isDirectory_insert h hfile]
    split_ifs
    · rfl
    · exact ih
    all_goals exact iff_of_false nofun nofun

/-- Paths lead where they led before a file was written. -/
theorem leads_insert_iff {other : List String} :
    Leads (t.insert place (.file content)) path other ↔ t.Leads path other := by
  simp only [Leads, walk_insert_eq_ok_iff h hfile content]

/-- The new file is read under every path that leads to it; under all others, what was read
before. -/
theorem read_insert_eq_ok_iff {other : ByteArray} :
    read (t.insert place (.file content)) path = .ok other ↔
      t.Leads path place ∧ other = content ∨
        ¬t.Leads path place ∧ t.read path = .ok other := by
  have hread : read (t.insert place (.file content)) path = .ok other ↔
      ∃ place', t.Leads path place' ∧
        Registry.find? (t.insert place (.file content)) place' = some (.file other) := by
    simp only [read_eq_ok_iff, leads_insert_iff h hfile content]
  rw [hread]
  by_cases hleads : t.Leads path place
  · simp only [hleads, true_and, not_true_eq_false, false_and, or_false]
    constructor
    · rintro ⟨place', hleads', hfind⟩
      rw [← hleads.unique hleads', Registry.find?_insert_self] at hfind
      cases hfind
      rfl
    · rintro rfl
      exact ⟨place, hleads, Registry.find?_insert_self _ _ _⟩
  · simp only [hleads, false_and, not_false_eq_true, true_and, false_or, read_eq_ok_iff]
    refine exists_congr fun place' => and_congr_right fun hleads' => ?_
    rw [Registry.find?_insert_of_ne]
    rintro rfl
    exact hleads hleads'

/-- The paths that can be written to are those from before a file was written. -/
theorem target_insert_eq_ok_iff {other : List String} :
    target (t.insert place (.file content)) path = .ok other ↔ t.target path = .ok other := by
  simp only [target_eq_ok_iff, walk_insert_eq_ok_iff h hfile content,
    isDirectory_insert h hfile content]

end Insert

end RelationApi.FileTree

import RelationApi.Proofs.Sdl.RoundTrip
import RelationApi.Text.Lines

/-!
# Line ends

A text is read from a file with a line feed for every line end. No lexeme goes over the end of a
line, and every line end is a separator. So a text that spells a row of tokens still spells the same
row when its line ends have been unified (`Spells.unifyLineEnds`), and the text of a document is
read back from a file (`Document.Legible.parse_unifyLineEnds`).
-/

namespace RelationApi.Text

theorem splitLines_ne_nil (cs : List Char) : splitLines cs ≠ [] := by
  unfold splitLines
  split
  · simp
  · simp
  · split
    · simp
    · split <;> simp

theorem joinLines_nil_cons {lines : List (List Char)} (h : lines ≠ []) :
    joinLines ([] :: lines) = '\n' :: joinLines lines := by
  obtain ⟨line, more, rfl⟩ := List.exists_cons_of_ne_nil h
  rfl

/-- A character that ends no line stays where it is. -/
theorem joinLines_splitLines_cons {c : Char} (h : Sdl.Token.isLineEnd c = false) (cs : List Char) :
    joinLines (splitLines (c :: cs)) = c :: joinLines (splitLines cs) := by
  have hc : ¬(c = '\n' ∨ c = '\r') := by simpa [Sdl.Token.isLineEnd] using h
  obtain ⟨line, more, hlines⟩ := List.exists_cons_of_ne_nil (splitLines_ne_nil cs)
  rw [splitLines, if_neg hc, hlines]
  · cases more <;> rfl
  · rintro _ rfl
    exact absurd h (by decide)

theorem joinLines_splitLines_append {w : List Char} (h : ∀ c ∈ w, Sdl.Token.isLineEnd c = false)
    (cs : List Char) : joinLines (splitLines (w ++ cs)) = w ++ joinLines (splitLines cs) := by
  induction w with
  | nil => rfl
  | cons c w ih =>
    rw [List.forall_mem_cons] at h
    rw [List.cons_append, joinLines_splitLines_cons h.1, ih h.2, List.cons_append]

theorem joinLines_splitLines_lineFeed (cs : List Char) :
    joinLines (splitLines ('\n' :: cs)) = '\n' :: joinLines (splitLines cs) := by
  rw [splitLines, if_pos (Or.inl rfl), joinLines_nil_cons (splitLines_ne_nil cs)]
  rintro _ ⟨⟩

/-- A carriage return is written as a line feed, together with the line feed after it. -/
theorem joinLines_splitLines_return (cs : List Char) :
    ∃ rest, joinLines (splitLines ('\r' :: cs)) = '\n' :: joinLines (splitLines rest) ∧
      (cs = rest ∨ cs = '\n' :: rest) := by
  by_cases h : ∃ rest, cs = '\n' :: rest
  · obtain ⟨rest, rfl⟩ := h
    refine ⟨rest, ?_, Or.inr rfl⟩
    rw [splitLines, joinLines_nil_cons (splitLines_ne_nil rest)]
  · refine ⟨cs, ?_, Or.inl rfl⟩
    rw [splitLines, if_pos (Or.inr rfl), joinLines_nil_cons (splitLines_ne_nil cs)]
    exact fun rest _ hcs => h ⟨rest, hcs⟩

end RelationApi.Text

namespace RelationApi.Sdl

open Text

theorem Token.isLineEnd_iff {c : Char} : isLineEnd c = true ↔ c = '\n' ∨ c = '\r' := by
  simp [isLineEnd]

/-- A text starts with what it started with, or with a line feed. -/
theorem Ends.unifyLineEnds {cs : List Char} (h : Ends cs) : Ends (joinLines (splitLines cs)) := by
  cases cs with
  | nil => exact ends_nil
  | cons c cs =>
    cases hc : Token.isLineEnd c with
    | false =>
      rw [joinLines_splitLines_cons hc]
      exact h
    | true =>
      rcases Token.isLineEnd_iff.1 hc with rfl | rfl
      · rw [joinLines_splitLines_lineFeed]
        exact ends_cons rfl _
      · obtain ⟨rest, hrest, -⟩ := joinLines_splitLines_return cs
        rw [hrest]
        exact ends_cons rfl _

/-- Unified line ends separate what the line ends separated. -/
theorem Spells.unifyLineEnds {cs : List Char} {ks : List TokenKind} (h : Spells cs ks) :
    Spells (joinLines (splitLines cs)) ks := by
  induction h with
  | nil => exact nil
  | @skip c cs ks hsep _ ih =>
    cases hc : Token.isLineEnd c with
    | false =>
      rw [joinLines_splitLines_cons hc]
      exact ih.skip hsep
    | true =>
      rcases Token.isLineEnd_iff.1 hc with rfl | rfl
      · rw [joinLines_splitLines_lineFeed]
        exact ih.skip rfl
      · obtain ⟨rest, hrest, rfl | rfl⟩ := joinLines_splitLines_return cs
        · rw [hrest]
          exact ih.skip rfl
        · rwa [hrest, ← joinLines_splitLines_lineFeed]
  | @mark c m cs ks hm _ ih =>
    have hc : Token.isLineEnd c = false := by
      refine Bool.eq_false_iff.2 fun hc => ?_
      rcases Token.isLineEnd_iff.1 hc with rfl | rfl <;> cases hm
    rw [joinLines_splitLines_cons hc]
    exact ih.mark hm
  | @token w k cs ks hw hends _ ih =>
    rw [joinLines_splitLines_append hw.line]
    exact token hw hends.unifyLineEnds ih

/-- The text of a legible document of a type system, without block strings, is read back after its
line ends have been unified. -/
theorem Document.Legible.parse_unifyLineEnds {d : Document} (h : d.Legible TokenKind.Plain)
    (hd : ∀ x ∈ d.definitions, x.isTypeSystem) (hne : d.definitions ≠ []) :
    ∃ d', parse (unifyLineEnds d.print) = .ok d' ∧ d'.placeless = d.reread := by
  refine h.parse_of_spells hd hne ?_
  rw [Text.unifyLineEnds, String.toList_ofList]
  exact (h.spells_printed hd).unifyLineEnds

end RelationApi.Sdl

import Mathlib.Data.List.TakeDrop
import RelationApi.Proofs.Failure
import RelationApi.Sdl.Token.Number

/-!
# The grammar of numbers

A number has four parts, of which the sign, the fraction and the exponent may be empty
(`Number.Parts.Valid`). The lexer reads nothing else as a number (`Number.exists_parts_of_scan`),
and it reads each number, whatever follows that does not go on with it (`Number.scan_text`).
-/

namespace RelationApi.Sdl

/-- What holds of the first elements of two lists holds of the first one of both together. -/
theorem forall_head?_append {α : Type} {p : α → Prop} {as as' : List α} (h : ∀ a ∈ as.head?, p a)
    (h' : ∀ a ∈ as'.head?, p a) : ∀ a ∈ (as ++ as').head?, p a := by
  cases as with
  | nil => exact h'
  | cons a as => exact h

/-! ## Digits and names -/

/-- The letters are two ranges of characters. -/
theorem isAlpha_eq (c : Char) : c.isAlpha =
    (decide (c.val ≥ 'A'.val ∧ c.val ≤ 'Z'.val) ||
      (decide (c.val ≥ 'a'.val) && decide (c.val ≤ 'z'.val))) :=
  rfl

/-- No name starts with a digit. -/
theorem isDigit_eq_false_of_isNameStart {c : Char} (h : isNameStart c) : c.isDigit = false := by
  rcases Bool.or_eq_true _ _ ▸ h with h | h
  · rw [Bool.eq_false_iff]
    intro hd
    simp only [isAlpha_eq, Char.isDigit] at h hd
    grind
  · rw [of_decide_eq_true h]
    rfl

theorem isNamePart_of_isNameStart {c : Char} (h : isNameStart c) : isNamePart c := by
  simp only [isNameStart, isNamePart, Char.isAlphanum, Bool.or_eq_true] at h ⊢
  exact h.imp_left Or.inl

theorem isNamePart_of_isDigit {c : Char} (h : c.isDigit) : isNamePart c := by
  simp [isNamePart, Char.isAlphanum, h]

/-- Names are written with the first 128 characters. -/
theorem toNat_lt_of_isNamePart {c : Char} (h : isNamePart c) : c.toNat < 128 := by
  simp only [isNamePart, Char.isAlphanum, isAlpha_eq, Char.isDigit, Bool.or_eq_true,
    Bool.and_eq_true, decide_eq_true_eq, UInt32.le_iff_toNat_le] at h
  rcases h with ((⟨-, h⟩ | ⟨-, h⟩) | ⟨-, h⟩) | rfl
  · exact Nat.lt_of_le_of_lt h (by decide)
  · exact Nat.lt_of_le_of_lt h (by decide)
  · exact Nat.lt_of_le_of_lt h (by decide)
  · decide

/-- What holds of the characters of names among the first 128 holds of all of them. -/
theorem forall_isNamePart {p : Char → Prop}
    (h : ∀ n < 128, isNamePart (Char.ofNat n) → p (Char.ofNat n)) {c : Char} (hc : isNamePart c) :
    p c := by
  have hp := h c.toNat (toNat_lt_of_isNamePart hc)
  rw [Char.ofNat_toNat] at hp
  exact hp hc

/-! ## The parts of a number -/

namespace Number

/-- Digits, at least one. -/
def IsDigits (ds : List Char) : Prop := ds ≠ [] ∧ ∀ c ∈ ds, c.isDigit

/-- A zero, or digits that start with another one. -/
def IsWhole (w : List Char) : Prop := w = ['0'] ∨ IsDigits w ∧ w.head? ≠ some '0'

/-- Nothing, or a dot with digits behind it. -/
def IsFraction (w : List Char) : Prop := w = [] ∨ ∃ ds, IsDigits ds ∧ w = '.' :: ds

/-- Nothing, or the letter of an exponent, a sign that may be missing, and digits. -/
def IsExponent (w : List Char) : Prop :=
  w = [] ∨ ∃ e s ds, (e = 'e' ∨ e = 'E') ∧ (s = [] ∨ s = ['+'] ∨ s = ['-']) ∧ IsDigits ds ∧
    w = e :: s ++ ds

/-- The parts of a number. -/
structure Parts where
  minus : List Char
  whole : List Char
  frac : List Char
  expo : List Char

namespace Parts

/-- The characters of the number. -/
def text (p : Parts) : List Char := p.minus ++ p.whole ++ p.frac ++ p.expo

/-- The token that the number is. -/
def kind (p : Parts) : TokenKind :=
  if p.frac.isEmpty && p.expo.isEmpty then .int (String.ofList p.text)
  else .float (String.ofList p.text)

/-- The parts are those of a number that the grammar admits. -/
structure Valid (p : Parts) : Prop where
  minus : p.minus = [] ∨ p.minus = ['-']
  whole : IsWhole p.whole
  frac : IsFraction p.frac
  expo : IsExponent p.expo

end Parts

/-! ## What is read -/

section

variable {cs w rest : List Char}

/-- What is read as digits is a row of them, and starts where the text does. -/
theorem isDigits_of_digits (h : digits cs = .ok (w, rest)) : IsDigits w ∧ w.head? = cs.head? := by
  unfold digits at h
  split at h
  · next hhead =>
    rw [Except.ok.injEq, List.span_eq_takeWhile_dropWhile, Prod.mk.injEq] at h
    obtain ⟨rfl, -⟩ := h
    cases cs with
    | nil => simp at hhead
    | cons c cs =>
      have hc : c.isDigit = true := by simpa using hhead
      refine ⟨⟨?_, fun c' hc' => List.all_eq_true.1 List.all_takeWhile c' hc'⟩, ?_⟩ <;> simp [hc]
  · cases h

/-- The whole part of a number has no leading zero. -/
theorem isWhole_of_integerPart (h : integerPart cs = .ok (w, rest)) : IsWhole w := by
  unfold integerPart at h
  split at h
  · split at h
    · cases h
    · cases h
      exact Or.inl rfl
  · next hzero =>
    obtain ⟨hdigits, hhead⟩ := isDigits_of_digits h
    refine Or.inr ⟨hdigits, fun hw => ?_⟩
    obtain ⟨cs, rfl⟩ := List.head?_eq_some_iff.1 (hhead.symm.trans hw)
    exact hzero cs rfl

theorem isFraction_of_fraction (h : fraction cs = .ok (w, rest)) : IsFraction w := by
  unfold fraction at h
  split at h
  · obtain ⟨⟨ds, _⟩, hds, h⟩ := except_bind_eq_ok_iff.1 h
    cases h
    exact Or.inr ⟨ds, (isDigits_of_digits hds).1, rfl⟩
  · cases h
    exact Or.inl rfl

/-- A sign is one character or missing. -/
theorem sign_cases {isSign : Char → Bool} {s : List Char} (h : sign isSign cs = (s, rest)) :
    s = [] ∨ ∃ c, isSign c ∧ s = [c] := by
  unfold sign at h
  split at h
  · split at h
    · next hc =>
      cases h
      exact Or.inr ⟨_, hc, rfl⟩
    · cases h
      exact Or.inl rfl
  · cases h
    exact Or.inl rfl

theorem isExponent_of_exponent (h : exponent cs = .ok (w, rest)) : IsExponent w := by
  unfold exponent at h
  split at h
  · next c cs' =>
    split at h
    · next hc =>
      cases hs : sign (fun c => c = '+' || c = '-') cs' with
      | mk s rest' =>
      rw [hs] at h
      obtain ⟨⟨ds, _⟩, hds, h⟩ := except_bind_eq_ok_iff.1 h
      cases h
      refine Or.inr ⟨c, s, ds, hc, ?_, (isDigits_of_digits hds).1, rfl⟩
      rcases sign_cases hs with rfl | ⟨c', hc', rfl⟩
      · exact Or.inl rfl
      · simpa using hc'
    · cases h
      exact Or.inl rfl
  · cases h
    exact Or.inl rfl

/-- Whatever is read as a number has the parts of one. -/
theorem exists_parts_of_scan {k : TokenKind} {n : Nat} (h : scan cs = .ok (k, n)) :
    ∃ p : Parts, p.Valid ∧ p.kind = k := by
  unfold scan at h
  cases hminus : sign (· = '-') cs with
  | mk minus rest =>
  rw [hminus] at h
  obtain ⟨⟨whole, _⟩, hwhole, h⟩ := except_bind_eq_ok_iff.1 h
  obtain ⟨⟨frac, _⟩, hfrac, h⟩ := except_bind_eq_ok_iff.1 h
  obtain ⟨⟨expo, _⟩, hexpo, h⟩ := except_bind_eq_ok_iff.1 h
  refine ⟨⟨minus, whole, frac, expo⟩, ⟨?_, isWhole_of_integerPart hwhole,
    isFraction_of_fraction hfrac, isExponent_of_exponent hexpo⟩, ?_⟩
  · rcases sign_cases hminus with rfl | ⟨c, hc, rfl⟩
    · exact Or.inl rfl
    · exact Or.inr (by rw [of_decide_eq_true hc])
  · dsimp only at h
    split at h
    · cases h
    · cases h
      rfl

end

/-! ## What is read again -/

section

variable {w rest : List Char}

/-- Digits are read up to something that is none. -/
theorem digits_append (h : IsDigits w) (hrest : ∀ c ∈ rest.head?, c.isDigit = false) :
    digits (w ++ rest) = .ok (w, rest) := by
  obtain ⟨hne, hall⟩ := h
  have htake : (w ++ rest).takeWhile Char.isDigit = w := by
    rw [List.takeWhile_append_of_pos hall]
    cases rest with
    | nil => simp
    | cons c rest => simp [hrest c rfl]
  have hdrop : (w ++ rest).dropWhile Char.isDigit = rest := by
    rw [List.dropWhile_append_of_pos hall]
    cases rest with
    | nil => simp
    | cons c rest => simp [hrest c rfl]
  cases w with
  | nil => exact absurd rfl hne
  | cons c w =>
    have hc : c.isDigit = true := hall c List.mem_cons_self
    rw [digits, List.span_eq_takeWhile_dropWhile, htake, hdrop, if_pos (by simp [hc])]

/-- A whole part is read up to something that is no digit. -/
theorem integerPart_append (h : IsWhole w) (hrest : ∀ c ∈ rest.head?, c.isDigit = false) :
    integerPart (w ++ rest) = .ok (w, rest) := by
  rcases h with rfl | ⟨hdigits, hzero⟩
  · have hany : rest.head?.any Char.isDigit = false := by
      rw [Option.any_eq_false]
      exact fun c hc => hrest c hc
    change (if rest.head?.any Char.isDigit then _ else _ : Except _ (List Char × List Char)) = _
    rw [hany]
    rfl
  · obtain ⟨c, w, rfl⟩ := List.exists_cons_of_ne_nil hdigits.1
    rw [← digits_append hdigits hrest]
    unfold integerPart
    split
    · next heq =>
      cases heq
      simp at hzero
    · rfl

/-- A fraction is read, or found to be missing, before something that does not go on with it. -/
theorem fraction_append (h : IsFraction w)
    (hrest : ∀ c ∈ rest.head?, c ≠ '.' ∧ c.isDigit = false) :
    fraction (w ++ rest) = .ok (w, rest) := by
  rcases h with rfl | ⟨ds, hds, rfl⟩
  · rw [List.nil_append]
    unfold fraction
    split
    · exact absurd rfl (hrest _ rfl).1
    · rfl
  · change (digits (ds ++ rest) >>= _) = _
    rw [digits_append hds fun c hc => (hrest c hc).2]
    rfl

/-- An exponent is read, or found to be missing, before something that does not go on with it. -/
theorem exponent_append (h : IsExponent w)
    (hrest : ∀ c ∈ rest.head?, c ≠ 'e' ∧ c ≠ 'E' ∧ c.isDigit = false) :
    exponent (w ++ rest) = .ok (w, rest) := by
  rcases h with rfl | ⟨e, s, ds, he, hs, hds, rfl⟩
  · rw [List.nil_append]
    cases rest with
    | nil => rfl
    | cons c rest =>
      obtain ⟨hc, hc', -⟩ := hrest c rfl
      rw [exponent, if_neg (by simp [hc, hc'])]
  · have hsign : sign (fun c => c = '+' || c = '-') (s ++ (ds ++ rest)) = (s, ds ++ rest) := by
      rcases hs with rfl | rfl | rfl
      · obtain ⟨c, ds, rfl⟩ := List.exists_cons_of_ne_nil hds.1
        have hc : c.isDigit = true := hds.2 c List.mem_cons_self
        have hplus : c ≠ '+' := by rintro rfl; cases hc
        have hminus : c ≠ '-' := by rintro rfl; cases hc
        simp [sign, hplus, hminus]
      · rfl
      · rfl
    rw [List.append_assoc, List.cons_append, exponent, if_pos he, hsign]
    change (digits (ds ++ rest) >>= _) = _
    rw [digits_append hds fun c hc => (hrest c hc).2.2]
    rfl

theorem IsWhole.exists_digit (h : IsWhole w) : ∃ c w', w = c :: w' ∧ c.isDigit := by
  rcases h with rfl | ⟨⟨hne, hall⟩, -⟩
  · exact ⟨'0', [], rfl, rfl⟩
  · obtain ⟨c, w', rfl⟩ := List.exists_cons_of_ne_nil hne
    exact ⟨c, w', rfl, hall c List.mem_cons_self⟩

theorem IsExponent.head? (h : IsExponent w) : ∀ c ∈ w.head?, c = 'e' ∨ c = 'E' := by
  rcases h with rfl | ⟨e, s, ds, he, -, -, rfl⟩
  · exact nofun
  · intro c hc
    cases hc
    exact he

theorem IsFraction.head? (h : IsFraction w) : ∀ c ∈ w.head?, c = '.' := by
  rcases h with rfl | ⟨ds, -, rfl⟩
  · exact nofun
  · intro c hc
    cases hc
    rfl

theorem sign_append {minus : List Char} (hminus : minus = [] ∨ minus = ['-']) (h : IsWhole w)
    (rest : List Char) : sign (· = '-') (minus ++ (w ++ rest)) = (minus, w ++ rest) := by
  rcases hminus with rfl | rfl
  · obtain ⟨c, w', rfl, hc⟩ := h.exists_digit
    have hne : c ≠ '-' := by
      rintro rfl
      cases hc
    simp [sign, hne]
  · rfl

/-- A number is over where neither a dot nor a name goes on. -/
theorem any_head?_eq_false (h : ∀ c ∈ rest.head?, ¬isNamePart c ∧ c ≠ '.') :
    (rest.head?.any fun c => c = '.' || isNameStart c) = false := by
  rw [Option.any_eq_false]
  intro c hc
  obtain ⟨hpart, hdot⟩ := h c hc
  have hstart : isNameStart c = false :=
    Bool.eq_false_iff.2 fun h => hpart (isNamePart_of_isNameStart h)
  simp [hdot, hstart]

/-- A number is read as far as it goes. -/
theorem scan_text {p : Parts} (hp : p.Valid)
    (hrest : ∀ c ∈ rest.head?, ¬isNamePart c ∧ c ≠ '.') :
    scan (p.text ++ rest) = .ok (p.kind, p.text.length) := by
  obtain ⟨minus, whole, frac, expo⟩ := p
  have hend : ∀ c ∈ rest.head?, c.isDigit = false := fun c hc => by
    rw [Bool.eq_false_iff]
    exact fun hd => (hrest c hc).1 (isNamePart_of_isDigit hd)
  have hexpo : ∀ c ∈ (expo ++ rest).head?, c ≠ '.' ∧ c.isDigit = false := by
    refine forall_head?_append (fun c hc => ?_) fun c hc => ⟨(hrest c hc).2, hend c hc⟩
    rcases hp.expo.head? c hc with rfl | rfl <;> decide
  have hfrac : ∀ c ∈ (frac ++ (expo ++ rest)).head?, c.isDigit = false := by
    refine forall_head?_append (fun c hc => ?_) fun c hc => (hexpo c hc).2
    rw [hp.frac.head? c hc]
    rfl
  have hname : ∀ c ∈ rest.head?, c ≠ 'e' ∧ c ≠ 'E' ∧ c.isDigit = false := fun c hc => by
    refine ⟨?_, ?_, hend c hc⟩ <;> rintro rfl <;> exact (hrest _ hc).1 rfl
  rw [Parts.text, List.append_assoc, List.append_assoc, List.append_assoc]
  unfold scan
  rw [sign_append hp.minus hp.whole]
  change (integerPart (whole ++ (frac ++ (expo ++ rest))) >>= _) = _
  rw [integerPart_append hp.whole hfrac]
  change (fraction (frac ++ (expo ++ rest)) >>= _) = _
  rw [fraction_append hp.frac hexpo]
  change (exponent (expo ++ rest) >>= _) = _
  rw [exponent_append hp.expo hname]
  change (if (rest.head?.any fun c => c = '.' || isNameStart c) then _ else _ :
    Except LexicalError (TokenKind × Nat)) = _
  rw [any_head?_eq_false hrest]
  rfl

/-- A number is written with digits and five other characters. -/
theorem isDigit_or_mem_of_mem_text {p : Parts} (hp : p.Valid) {c : Char} (hc : c ∈ p.text) :
    c.isDigit ∨ c ∈ ['-', '+', '.', 'e', 'E'] := by
  rw [Parts.text, List.mem_append, List.mem_append, List.mem_append] at hc
  rcases hc with ((hc | hc) | hc) | hc
  · rcases hp.minus with h | h <;> rw [h] at hc
    · cases hc
    · obtain rfl := List.mem_singleton.1 hc
      exact Or.inr (by simp)
  · rcases hp.whole with h | h
    · rw [h] at hc
      obtain rfl := List.mem_singleton.1 hc
      exact Or.inl rfl
    · exact Or.inl (h.1.2 c hc)
  · rcases hp.frac with h | ⟨ds, hds, h⟩ <;> rw [h] at hc
    · cases hc
    · rcases List.mem_cons.1 hc with rfl | hc
      · exact Or.inr (by simp)
      · exact Or.inl (hds.2 c hc)
  · rcases hp.expo with h | ⟨e, s, ds, he, hs, hds, h⟩ <;> rw [h] at hc
    · cases hc
    · rw [List.mem_append, List.mem_cons] at hc
      rcases hc with (rfl | hc) | hc
      · exact Or.inr (by rcases he with rfl | rfl <;> simp)
      · rcases hs with rfl | rfl | rfl
        · cases hc
        · exact Or.inr (by simp [List.mem_singleton.1 hc])
        · exact Or.inr (by simp [List.mem_singleton.1 hc])
      · exact Or.inl (hds.2 c hc)

end

end Number

/-- The numbers that the grammar admits, as tokens. -/
def TokenKind.IsNumber (k : TokenKind) : Prop := ∃ p : Number.Parts, p.Valid ∧ p.kind = k

end RelationApi.Sdl

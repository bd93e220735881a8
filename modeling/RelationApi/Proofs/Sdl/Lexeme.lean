import Mathlib.Tactic.SplitIfs
import RelationApi.Proofs.Sdl.Number
import RelationApi.Sdl.Printer.Value
import RelationApi.Sdl.Token.Lexer

/-!
# Lexemes

A token ends where the next character cannot go on with it. So a name, a number or a quoted string
is read in the same way wherever it stands, as long as something else follows (`Ends`) : `Lexes`
says this of the characters of one token.

The lexer makes name tokens from names only, and number tokens from numbers
(`Token.legible_of_mem_ofChars`). So these tokens are read again from their texts
(`lexes_name`, `lexes_number`), and every text is read from its quoted form (`lexes_quoted`).
-/

namespace RelationApi.Sdl

/-- What follows goes on with no name, number or quoted string. -/
def Ends (rest : List Char) : Prop := ∀ c ∈ rest.head?, ¬isNamePart c ∧ c ≠ '.' ∧ c ≠ '"'

/-- The characters stand on one line, and are the token `k` if something else follows. -/
structure Lexes (w : List Char) (k : TokenKind) : Prop where
  scan : ∀ rest, Ends rest → ∃ c cs, w = c :: cs ∧ Token.scan c (cs ++ rest) = .token k cs.length
  line : ∀ c ∈ w, Token.isLineEnd c = false
  valid : ∀ e, k ≠ .invalid e

/-! ## Names -/

/-- The texts that the grammar admits as names. -/
def IsName (s : String) : Prop :=
  ∃ c cs, s.toList = c :: cs ∧ isNameStart c ∧ ∀ c' ∈ cs, isNamePart c'

instance (s : String) : Decidable (IsName s) :=
  match h : s.toList with
  | [] => isFalse fun ⟨_, _, hs, _⟩ => List.cons_ne_nil _ _ (hs.symm.trans h)
  | c :: cs => decidable_of_iff (isNameStart c ∧ cs.all isNamePart) (by simp [IsName, h])

theorem IsName.ne_empty {s : String} (h : IsName s) : s ≠ "" := by
  rintro rfl
  obtain ⟨c, cs, hcs, -⟩ := h
  cases hcs

/-- A name is made of characters that names can go on with. -/
theorem IsName.parts {s : String} (h : IsName s) : ∀ c ∈ s.toList, isNamePart c := by
  obtain ⟨c, cs, hs, hc, hcs⟩ := h
  rw [hs]
  exact List.forall_mem_cons.2 ⟨isNamePart_of_isNameStart hc, hcs⟩

/-- A character of a class without separators, comment marks, dots and quotes starts none of
these. -/
theorem starts_nothing_else {p : Char → Bool} {c : Char} (hc : p c)
    (hp : [' ', '\t', ',', '\uFEFF', '\n', '\r', '#', '.', '"'].any p = false) :
    Token.isSeparator c = false ∧ c ≠ '#' ∧ c ≠ '.' ∧ c ≠ '"' := by
  have hne : ∀ c' ∈ [' ', '\t', ',', '\uFEFF', '\n', '\r', '#', '.', '"'], c ≠ c' := by
    rintro c' hc' rfl
    exact List.any_eq_false.1 hp c hc' hc
  simp only [List.forall_mem_cons] at hne
  obtain ⟨hblank, htab, hcomma, hbom, hline, hreturn, hcomment, hdot, hquote, -⟩ := hne
  refine ⟨?_, hcomment, hdot, hquote⟩
  simp [Token.isSeparator, Token.isLineEnd, hblank, htab, hcomma, hbom, hline, hreturn]

theorem isLineEnd_of_isSeparator {c : Char} (h : Token.isSeparator c = false) :
    Token.isLineEnd c = false :=
  (Bool.or_eq_false_iff.1 h).2

theorem scan_of_isNameStart {c : Char} (h : isNameStart c) (cs : List Char) :
    Token.scan c cs = .token (.name (String.ofList (c :: cs.takeWhile isNamePart)))
      (cs.takeWhile isNamePart).length := by
  obtain ⟨hsep, hcomment, hdot, hquote⟩ := starts_nothing_else h (by decide)
  have hminus : (c = '-' || c.isDigit) = false := by
    have hne : c ≠ '-' := by
      rintro rfl
      cases h
    simp [hne, isDigit_eq_false_of_isNameStart h]
  simp [Token.scan, hsep, hcomment, hdot, hquote, hminus, h]

/-- A name is read as far as it goes. -/
theorem lexes_name {s : String} (h : IsName s) : Lexes s.toList (.name s) := by
  have hline : ∀ c ∈ s.toList, Token.isLineEnd c = false := fun c hc =>
    isLineEnd_of_isSeparator (starts_nothing_else (h.parts c hc) (by decide)).1
  obtain ⟨c, cs, hs, hc, hcs⟩ := h
  refine ⟨fun rest hrest => ⟨c, cs, hs, ?_⟩, hline, nofun⟩
  · have hmore : (cs ++ rest).takeWhile isNamePart = cs := by
      rw [List.takeWhile_append_of_pos hcs]
      cases rest with
      | nil => simp
      | cons c' rest => simp [(hrest c' rfl).1]
    rw [scan_of_isNameStart hc, hmore, ← hs, String.ofList_toList]

/-! ## Numbers -/

/-- A number is read as far as it goes. -/
theorem lexes_number {p : Number.Parts} (hp : p.Valid) : Lexes p.text p.kind := by
  refine ⟨fun rest hrest => ?_, fun c hc => ?_, fun e => ?_⟩
  · obtain ⟨c, cs, htext, hc⟩ : ∃ c cs, p.text = c :: cs ∧ (c = '-' || c.isDigit) = true := by
      obtain ⟨c, w', hw, hc⟩ := hp.whole.exists_digit
      rcases hp.minus with h | h
      · exact ⟨c, _, by rw [Number.Parts.text, h, hw]; rfl, by simp [hc]⟩
      · exact ⟨'-', _, by rw [Number.Parts.text, h]; rfl, by simp⟩
    refine ⟨c, cs, htext, ?_⟩
    obtain ⟨hsep, hcomment, hdot, hquote⟩ :=
      starts_nothing_else (p := fun c => c = '-' || c.isDigit) hc (by decide)
    have hscan := Number.scan_text hp fun c hc => ⟨(hrest c hc).1, (hrest c hc).2.1⟩
    rw [htext, List.cons_append] at hscan
    rw [Token.scan, hsep, if_neg Bool.false_ne_true, if_neg hcomment, if_neg hdot, if_neg hquote,
      if_pos hc, Token.scanNumber, hscan]
    rfl
  · rcases Number.isDigit_or_mem_of_mem_text hp hc with h | h
    · exact isLineEnd_of_isSeparator (starts_nothing_else h (by decide)).1
    · have hsigns : ['-', '+', '.', 'e', 'E'].any Token.isLineEnd = false := by decide
      exact Bool.eq_false_iff.2 (List.any_eq_false.1 hsigns c h)
  · unfold Number.Parts.kind
    split <;> exact TokenKind.noConfusion

/-! ## Quoted strings -/

namespace Quote

/-- A character is escaped by another one or by its code point, or stands for itself. -/
theorem escapeChar_cases (c : Char) :
    (∃ e, escapeChar c = ['\\', e] ∧ e ≠ 'u' ∧ Token.isLineEnd e = false ∧
      simpleEscape? e = some c) ∨
    (escapeChar c = '\\' :: 'u' :: Text.hexUpper 4 c.toNat ∧ c.toNat < 0xA0) ∨
    (escapeChar c = [c] ∧ c ≠ '"' ∧ c ≠ '\\' ∧ Token.isLineEnd c = false) := by
  unfold escapeChar
  split
  case h_8 hquote hback _ _ hline _ hreturn =>
    split_ifs with hcontrol
    · exact Or.inr (Or.inl ⟨rfl, by omega⟩)
    · exact Or.inr (Or.inr ⟨rfl, hquote, hback, by simpa [Token.isLineEnd] using ⟨hline, hreturn⟩⟩)
  all_goals exact Or.inl ⟨_, rfl, by decide, by decide, rfl⟩

/-- Four hexadecimal digits give back each of the code points that are written in this way. -/
theorem hexUpper_cases : ∀ n < 0xA0, ∃ a b, Text.hexUpper 4 n = ['0', '0', a, b] ∧
    Text.hexValue? ['0', '0', a, b] = some n ∧
    ∀ c ∈ ['0', '0', a, b], Token.isLineEnd c = false := by
  have h : ∀ n < 0xA0, (Text.hexUpper 4 n).take 2 = ['0', '0'] ∧
      (Text.hexUpper 4 n).length = 4 ∧ Text.hexValue? (Text.hexUpper 4 n) = some n ∧
      (Text.hexUpper 4 n).any Token.isLineEnd = false := by decide +kernel
  intro n hn
  obtain ⟨htake, hlen, hvalue, hline⟩ := h n hn
  match hhex : Text.hexUpper 4 n, htake, hlen, hvalue, hline with
  | [_, _, a, b], htake, _, hvalue, hline =>
    cases htake
    exact ⟨a, b, rfl, hvalue, fun c hc => Bool.eq_false_iff.2 (List.any_eq_false.1 hline c hc)⟩

/-- After an escape the string goes on. -/
theorem scan_backslash {cs v : List Char} {c : Char} {n w : Nat} (h : escape cs = .ok (c, n))
    (hrest : scan (cs.drop n) = .ok (v, w)) : scan ('\\' :: cs) = .ok (c :: v, n + 1 + w) := by
  rw [scan, if_neg (by decide), if_pos rfl, h]
  change (scan (cs.drop n)).map _ = _
  rw [hrest]
  rfl

/-- An escaped text is read back up to its closing quote. -/
theorem scan_escaped (cs rest : List Char) :
    scan (cs.flatMap escapeChar ++ '"' :: rest) =
      .ok (cs, (cs.flatMap escapeChar).length + 1) := by
  induction cs with
  | nil => rw [List.flatMap_nil, List.nil_append, scan, if_pos rfl]; rfl
  | cons c cs ih =>
    rw [List.flatMap_cons, List.append_assoc]
    rcases escapeChar_cases c with ⟨e, he, hu, -, hsimple⟩ | ⟨he, hc⟩ | ⟨he, h⟩
    · have hescape : escape (e :: (cs.flatMap escapeChar ++ '"' :: rest)) = .ok (c, 1) := by
        rw [escape]
        · rw [hsimple]
        · exact fun _ h _ => hu h
        · exact hu
      rw [he, List.cons_append, List.singleton_append, scan_backslash hescape ih]
      simp
      omega
    · obtain ⟨a, b, hhex, hvalue, -⟩ := hexUpper_cases c.toNat hc
      have hchar : charOf? c.toNat = some c := by
        rw [charOf?, if_pos (show c.toNat.isValidChar from c.valid), Char.ofNat_toNat]
      have hescape : escape ('u' :: '0' :: '0' :: a :: b ::
          (cs.flatMap escapeChar ++ '"' :: rest)) = .ok (c, 5) := by
        change fixedEscape ('0' :: '0' :: a :: b :: _) = _
        unfold fixedEscape
        simp [hvalue, hchar]
      rw [he, hhex]
      simp only [List.cons_append, List.nil_append]
      rw [scan_backslash hescape ih]
      simp
      omega
    · obtain ⟨hquote, hback, hline⟩ := h
      rw [he, List.singleton_append, scan, if_neg hquote, if_neg hback,
        if_neg (by simpa [Token.isLineEnd] using hline), ih]
      simp [Except.map]

/-- An escaped text stands on one line. -/
theorem isLineEnd_of_mem_escaped (cs : List Char) :
    ∀ c ∈ cs.flatMap escapeChar, Token.isLineEnd c = false := by
  refine List.forall_mem_flatMap.2 fun c _ => ?_
  rcases escapeChar_cases c with ⟨e, he, -, hline, -⟩ | ⟨he, hlt⟩ | ⟨he, -, -, hline⟩
  · rw [he]
    simpa using ⟨rfl, hline⟩
  · obtain ⟨a, b, hhex, -, hline⟩ := hexUpper_cases c.toNat hlt
    rw [he, hhex]
    exact List.forall_mem_cons.2 ⟨rfl, List.forall_mem_cons.2 ⟨rfl, hline⟩⟩
  · rw [he]
    simpa using hline

/-- An escaped text does not start with a quote. -/
theorem head?_escaped (cs : List Char) : (cs.flatMap escapeChar).head? ≠ some '"' := by
  cases cs with
  | nil => simp
  | cons c cs =>
    rw [List.flatMap_cons]
    rcases escapeChar_cases c with ⟨e, he, -⟩ | ⟨he, -⟩ | ⟨he, hquote, -⟩ <;> rw [he]
    · simp
    · simp
    · simpa using hquote

end Quote

theorem scanQuote_of_ok {cs v : List Char} {n : Nat} (h : ∀ rest, cs ≠ '"' :: '"' :: rest)
    (hscan : Quote.scan cs = .ok (v, n)) :
    Token.scanQuote cs = .token (.string (String.ofList v)) n := by
  unfold Token.scanQuote
  split
  · exact absurd rfl (h _)
  · rw [hscan]

/-- A quoted text is read back. -/
theorem lexes_quoted (s : String) : Lexes (Quote.print s.toList) (.string s) := by
  refine ⟨fun rest hrest => ⟨'"', s.toList.flatMap Quote.escapeChar ++ ['"'], rfl, ?_⟩, ?_,
    nofun⟩
  · have hscan := Quote.scan_escaped s.toList rest
    have hne : ∀ rest', s.toList.flatMap Quote.escapeChar ++ '"' :: rest ≠ '"' :: '"' :: rest' := by
      intro rest' he
      cases h : s.toList.flatMap Quote.escapeChar with
      | nil =>
        rw [h] at he
        cases he
        exact (hrest '"' rfl).2.2 rfl
      | cons c cs =>
        rw [h, List.cons_append, List.cons.injEq] at he
        exact Quote.head?_escaped s.toList (by rw [h, he.1]; rfl)
    rw [List.append_assoc, List.singleton_append]
    change Token.scanQuote _ = _
    rw [scanQuote_of_ok hne hscan, String.ofList_toList, List.length_append]
    rfl
  · exact List.forall_mem_cons.2 ⟨rfl, List.forall_mem_append.2
      ⟨Quote.isLineEnd_of_mem_escaped s.toList, List.forall_mem_singleton.2 rfl⟩⟩

/-! ## The tokens of a text -/

namespace TokenKind

/-- A name or a number is one that the grammar admits; other tokens may be whatever they are. -/
def Legible : TokenKind → Prop
  | name s => IsName s
  | int s => IsNumber (.int s)
  | float s => IsNumber (.float s)
  | mark _ | string _ | block _ | finish | invalid _ => True

end TokenKind

namespace Token

theorem legible_of_scanDot {cs : List Char} {k : TokenKind} {n : Nat}
    (h : scanDot cs = .token k n) : k.Legible := by
  unfold scanDot at h
  split at h
  · cases h
    trivial
  · cases h
  · dsimp only at h
    split at h <;> cases h

theorem legible_of_scanQuote {cs : List Char} {k : TokenKind} {n : Nat}
    (h : scanQuote cs = .token k n) : k.Legible := by
  unfold scanQuote at h
  split at h <;> split at h <;> cases h <;> trivial

theorem legible_of_scanNumber {cs : List Char} {k : TokenKind} {n : Nat}
    (h : scanNumber cs = .token k n) : k.Legible := by
  unfold scanNumber at h
  split at h
  · next hk =>
    cases h
    obtain ⟨p, hp, rfl⟩ := Number.exists_parts_of_scan hk
    cases hkind : p.kind with
    | int s => exact ⟨p, hp, hkind⟩
    | float s => exact ⟨p, hp, hkind⟩
    | _ =>
      unfold Number.Parts.kind at hkind
      split at hkind <;> cases hkind
  · cases h

theorem legible_of_scan {c : Char} {cs : List Char} {k : TokenKind} {n : Nat}
    (h : scan c cs = .token k n) : k.Legible := by
  unfold scan at h
  split_ifs at h with hsep hcomment hdot hquote hnumber hname
  · exact legible_of_scanDot h
  · exact legible_of_scanQuote h
  · exact legible_of_scanNumber h
  · cases h
    refine ⟨c, _, String.toList_ofList, hname, fun c' hc' => ?_⟩
    exact List.all_eq_true.1 (List.all_takeWhile) c' hc'
  all_goals
    split at h
    · cases h
      trivial
    · cases h

/-- The lexer makes names and numbers as the grammar admits them. -/
theorem legible_of_mem_ofChars {pos : Nat} {cs : List Char} {t : Token} (ht : t ∈ ofChars pos cs) :
    t.kind.Legible := by
  fun_induction ofChars pos cs with
  | case1 =>
    obtain rfl := List.mem_singleton.1 ht
    trivial
  | case2 _ _ _ _ _ ih => exact ih ht
  | case3 _ _ _ kind n hscan ih =>
    rcases List.mem_cons.1 ht with rfl | ht
    · exact legible_of_scan hscan
    · exact ih ht
  | case4 =>
    obtain rfl := List.mem_singleton.1 ht
    trivial

end Token

end RelationApi.Sdl

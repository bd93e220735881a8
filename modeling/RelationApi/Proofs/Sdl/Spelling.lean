import Mathlib.Data.List.Forall2
import RelationApi.Proofs.Sdl.Lexeme
import RelationApi.Proofs.Sdl.Tokens
import RelationApi.Sdl.Printer.Executable

/-!
# Spelling

Characters spell a row of tokens if they are the lexemes of these, with separators in between where
a lexeme could go on (`Spells`). The lexer reads such characters as the row (`Spells.lex`).

Layout changes no spelling : pieces may stand on one line or on lines of their own, indented or not,
as long as the pieces are spelled, since no lexeme goes over the end of a line. So whatever is
legible, without block strings, is printed as its tokens (`Document.spells_print`).
-/

namespace RelationApi.Sdl

/-- The characters are the lexemes of the tokens, with separators around them. -/
inductive Spells : List Char → List TokenKind → Prop
  | nil : Spells [] []
  | skip {c : Char} {cs : List Char} {ks : List TokenKind} :
      Token.isSeparator c → Spells cs ks → Spells (c :: cs) ks
  | mark {c : Char} {m : Mark} {cs : List Char} {ks : List TokenKind} :
      Token.mark? c = some m → Spells cs ks → Spells (c :: cs) (.mark m :: ks)
  | token {w : List Char} {k : TokenKind} {cs : List Char} {ks : List TokenKind} :
      Lexes w k → Ends cs → Spells cs ks → Spells (w ++ cs) (k :: ks)

/-! ## Reading what is spelled -/

/-- A mark is scanned as one, whatever follows. -/
theorem Token.scan_of_mark? {c : Char} {m : Mark} (h : mark? c = some m) (cs : List Char) :
    scan c cs = .token (.mark m) 0 := by
  unfold mark? at h
  split at h <;> cases h <;> rfl

/-- The lexer reads the tokens that are spelled. -/
theorem Spells.lex {cs : List Char} {ks : List TokenKind} (h : Spells cs ks) (pos : Nat) :
    (Token.ofChars pos cs).map Token.kind = ks ++ [.finish] := by
  induction h generalizing pos with
  | nil => simp [Token.ofChars]
  | skip hc _ ih => rw [Token.ofChars, Token.scan, if_pos hc]; exact ih _
  | mark hm _ ih =>
    rw [Token.ofChars, Token.scan_of_mark? hm, List.map_cons, List.drop_zero, ih]
    rfl
  | @token w k cs ks hw hends _ ih =>
    obtain ⟨c, cs', rfl, hscan⟩ := hw.scan cs hends
    rw [List.cons_append, Token.ofChars, hscan, List.map_cons, List.drop_left, ih]
    rfl

/-- No token of a row that is spelled is invalid. -/
theorem Spells.valid {cs : List Char} {ks : List TokenKind} (h : Spells cs ks) :
    ∀ k ∈ ks, ∀ e, k ≠ .invalid e := by
  induction h with
  | nil => simp
  | skip _ _ ih => exact ih
  | mark _ _ ih => exact List.forall_mem_cons.2 ⟨nofun, ih⟩
  | token hw _ _ ih => exact List.forall_mem_cons.2 ⟨hw.valid, ih⟩

/-! ## Rows -/

theorem ends_nil : Ends [] := nofun

/-- A character that is in no name or number and starts no string ends what is before it. -/
theorem ends_cons {c : Char} (h : (isNamePart c || c = '.' || c = '"') = false) (cs : List Char) :
    Ends (c :: cs) := by
  rintro c' hc'
  obtain rfl : c = c' := by simpa using hc'
  simpa [not_or, and_assoc] using h

namespace Spells

variable {cs cs' : List Char} {ks ks' : List TokenKind}

theorem single {w : List Char} {k : TokenKind} (h : Lexes w k) : Spells w [k] := by
  simpa using token h ends_nil nil

theorem eq_nil (h : Spells [] ks) : ks = [] := by
  generalize hcs : ([] : List Char) = cs at h
  cases h with
  | nil => rfl
  | skip => cases hcs
  | mark => cases hcs
  | token hw hends _ =>
    obtain ⟨c, cs', rfl, -⟩ := hw.scan _ hends
    cases hcs

/-- A row is spelled in two parts, if the second one does not go on with the first. -/
theorem append (h : Spells cs ks) (h' : Spells cs' ks') (hends : Ends cs') :
    Spells (cs ++ cs') (ks ++ ks') := by
  induction h with
  | nil => exact h'
  | skip hc _ ih => exact ih.skip hc
  | mark hm _ ih => exact ih.mark hm
  | token hw hcs _ ih =>
    rw [List.append_assoc]
    exact token hw (forall_head?_append hcs hends) ih

theorem head?_indentLines (cs : List Char) : (Layout.indentLines cs).head? = cs.head? := by
  cases cs with
  | nil => rfl
  | cons c cs =>
    rw [Layout.indentLines, List.flatMap_cons]
    split_ifs with hc
    · rw [hc]
      rfl
    · rfl

/-- What stands on one line is not broken up. -/
theorem indentLines_append {w : List Char} (h : '\n' ∉ w) (cs : List Char) :
    Layout.indentLines (w ++ cs) = w ++ Layout.indentLines cs := by
  induction w with
  | nil => rfl
  | cons c w ih =>
    rw [List.mem_cons, not_or] at h
    rw [List.cons_append, Layout.indentLines, List.flatMap_cons, if_neg (Ne.symm h.1)]
    exact congrArg (c :: ·) (ih h.2)

/-- Indented lines spell the same, since each lexeme stands on one line. -/
theorem indentLines (h : Spells cs ks) : Spells (Layout.indentLines cs) ks := by
  induction h with
  | nil => exact nil
  | @skip c cs ks hc _ ih =>
    rw [Layout.indentLines, List.flatMap_cons]
    split
    · exact ((ih.skip rfl).skip rfl).skip rfl
    · exact ih.skip hc
  | @mark c m cs ks hm _ ih =>
    have hne : c ≠ '\n' := by
      rintro rfl
      cases hm
    rw [Layout.indentLines, List.flatMap_cons, if_neg hne]
    exact ih.mark hm
  | @token w k cs ks hw hends _ ih =>
    rw [indentLines_append fun h => absurd (hw.line _ h) (by decide)]
    refine token hw ?_ ih
    rwa [Ends, head?_indentLines]

/-- Separators before a row are skipped. -/
theorem separators {seps : List Char} (hseps : seps.all Token.isSeparator)
    (h : Spells cs ks) : Spells (seps ++ cs) ks := by
  induction seps with
  | nil => exact h
  | cons c seps ih =>
    rw [List.all_cons, Bool.and_eq_true] at hseps
    exact (ih hseps.2).skip hseps.1

end Spells

theorem ends_of_isSeparator {c : Char} (h : Token.isSeparator c) (cs : List Char) :
    Ends (c :: cs) := by
  refine ends_cons (Bool.eq_false_iff.2 fun hc => ?_) cs
  simp only [Token.isSeparator, Token.isLineEnd, Bool.or_eq_true, decide_eq_true_eq] at h
  rcases h with (((rfl | rfl) | rfl) | rfl) | rfl | rfl <;> cases hc

theorem ends_of_mark? {c : Char} {m : Mark} (h : Token.mark? c = some m) (cs : List Char) :
    Ends (c :: cs) := by
  refine ends_cons ?_ cs
  unfold Token.mark? at h
  split at h <;> cases h <;> rfl

/-! ## Layout -/

namespace Layout

theorem joined_cons (sep : String) (piece : List Char) (pieces : List (List Char)) :
    joined sep (piece :: pieces) =
      if piece.isEmpty then joined sep pieces else piece ++ wrapped sep (joined sep pieces) := by
  unfold joined
  cases piece with
  | nil => rfl
  | cons c piece =>
    rw [List.filter_cons_of_pos (by rfl), List.isEmpty_cons, if_neg nofun]
    cases h : pieces.filter (!·.isEmpty) with
    | nil => simp [wrapped]
    | cons piece' pieces' =>
      have hne : piece' ≠ [] := by
        have hmem : piece' ∈ pieces.filter (!·.isEmpty) := h ▸ List.mem_cons_self
        simpa using (List.mem_filter.1 hmem).2
      have hjoined : (sep.toList.intercalate (piece' :: pieces')).isEmpty = false := by
        cases pieces' <;> simp [List.intercalate, hne]
      rw [wrapped, hjoined]
      simp [List.intercalate]

theorem isEmpty_joined (sep : String) (pieces : List (List Char)) :
    (joined sep pieces).isEmpty = pieces.all List.isEmpty := by
  induction pieces with
  | nil => rfl
  | cons piece pieces ih =>
    rw [joined_cons, List.all_cons, ← ih]
    cases piece <;> simp

/-- A piece is empty or not, indented or not. -/
theorem isEmpty_indented (piece : List Char) : (indented piece).isEmpty = piece.isEmpty := by
  cases piece with
  | nil => rfl
  | cons c piece =>
    have h := Spells.head?_indentLines (c :: piece)
    rw [indented, wrapped]
    cases hpiece : indentLines (c :: piece) with
    | nil => rw [hpiece] at h; cases h
    | cons c' piece' => rfl

end Layout

/-- A mark and separators before a piece, separators and a mark after it. -/
structure Surrounds (before after : String) (op close : Mark) : Prop where
  opens : ∃ c seps, before.toList = c :: seps ∧ Token.mark? c = some op ∧
    seps.all Token.isSeparator
  closes : ∃ seps c, after.toList = seps ++ [c] ∧ Token.mark? c = some close ∧
    seps.all Token.isSeparator

namespace Spells

variable {sep before after : String} {op close : Mark} {piece : List Char}
  {pieces : List (List Char)} {ks : List TokenKind} {rows : List (List TokenKind)}

/-- Pieces with separators between any two spell their rows. -/
theorem joined (sep : String) (hne : sep ≠ "") (hsep : sep.toList.all Token.isSeparator)
    (h : List.Forall₂ Spells pieces rows) : Spells (Layout.joined sep pieces) rows.flatten := by
  induction h with
  | nil => exact nil
  | @cons piece row pieces rows hpiece _ ih =>
    rw [Layout.joined_cons, List.flatten_cons, Layout.wrapped]
    cases piece with
    | nil =>
      rw [hpiece.eq_nil]
      exact ih
    | cons c piece =>
      rw [List.isEmpty_cons, if_neg nofun]
      cases hjoined : Layout.joined sep pieces with
      | nil =>
        rw [hjoined] at ih
        rw [ih.eq_nil]
        exact hpiece.append nil ends_nil
      | cons c' cs =>
        rw [hjoined] at ih
        obtain ⟨s, seps, hs⟩ := List.exists_cons_of_ne_nil (mt String.toList_eq_nil_iff.1 hne)
        have hends : Ends (sep.toList ++ c' :: cs) := by
          rw [hs] at hsep ⊢
          exact ends_of_isSeparator (List.all_eq_true.1 hsep s List.mem_cons_self) _
        simpa using hpiece.append (separators hsep ih) hends

/-- An indented piece spells the same row. -/
theorem indented (h : Spells piece ks) : Spells (Layout.indented piece) ks := by
  have hlines := h.indentLines
  rw [Layout.indented, Layout.wrapped]
  split_ifs with hempty
  · rw [List.isEmpty_iff.1 hempty] at hlines
    rw [hlines.eq_nil]
    exact nil
  · simpa using (hlines.skip (c := ' ') rfl).skip (c := ' ') rfl

/-- A piece between two marks. -/
theorem surrounded (h : Surrounds before after op close) (hpiece : Spells piece ks) :
    Spells (before.toList ++ piece ++ after.toList) (.mark op :: (ks ++ [.mark close])) := by
  obtain ⟨⟨c, seps, hbefore, hop, hseps⟩, seps', c', hafter, hclose, hseps'⟩ := h
  have hend : Spells (seps' ++ [c']) [.mark close] := separators hseps' (nil.mark hclose)
  have hends : Ends (seps' ++ [c']) := by
    cases seps' with
    | nil => exact ends_of_mark? hclose []
    | cons s seps' => exact ends_of_isSeparator (List.all_eq_true.1 hseps' s List.mem_cons_self) _
  rw [hbefore, hafter, List.append_assoc, List.cons_append]
  exact (separators hseps (hpiece.append hend hends)).mark hop

/-- What is put between marks spells nothing if it is empty. -/
theorem wrapped (h : Surrounds before after op close) (hpiece : Spells piece rows.flatten)
    (hempty : piece.isEmpty = rows.isEmpty) :
    Spells (Layout.wrapped before piece after) (tokensBetween op rows close) := by
  rw [Layout.wrapped, tokensBetween, hempty]
  split_ifs
  · exact nil
  · exact surrounded h hpiece

theorem isEmpty_joined (h : List.Forall₂ Spells pieces rows) (hne : ∀ row ∈ rows, row ≠ []) :
    (Layout.joined sep pieces).isEmpty = rows.isEmpty := by
  rw [Layout.isEmpty_joined]
  cases h with
  | nil => rfl
  | @cons piece row pieces rows hpiece _ =>
    cases piece with
    | nil => exact absurd hpiece.eq_nil (hne row List.mem_cons_self)
    | cons c piece => rfl

/-- Pieces on lines of their own spell their rows between two marks. -/
theorem enclosed {o c : String} (h : Surrounds (o ++ "\n") ("\n" ++ c) op close)
    (hpieces : List.Forall₂ Spells pieces rows) (hne : ∀ row ∈ rows, row ≠ []) :
    Spells (Layout.enclosed o pieces c) (tokensBetween op rows close) := by
  have hjoined : Spells (Layout.joined "\n" pieces) rows.flatten :=
    joined "\n" (by decide) (by decide) hpieces
  refine wrapped h hjoined.indented ?_
  rw [Layout.isEmpty_indented, isEmpty_joined hpieces hne]

/-- Pieces on one line spell their rows between two marks. -/
theorem line (h : Surrounds before after op close) (hpieces : List.Forall₂ Spells pieces rows)
    (hne : ∀ row ∈ rows, row ≠ []) :
    Spells (Layout.wrapped before (Layout.joined ", " pieces) after)
      (tokensBetween op rows close) :=
  wrapped h (joined ", " (by decide) (by decide) hpieces) (isEmpty_joined hpieces hne)

end Spells

theorem forall₂_spells {α : Type} {print : α → List Char} {tokens : α → List TokenKind}
    {xs : List α} (h : ∀ x ∈ xs, Spells (print x) (tokens x)) :
    List.Forall₂ Spells (xs.map print) (xs.map tokens) := by
  rw [List.forall₂_map_left_iff, List.forall₂_map_right_iff, List.forall₂_same]
  exact h

/-- What is wrapped in marks ends what is before it, even if it is empty. -/
theorem ends_wrapped {before after : String} {op close : Mark}
    (h : Surrounds before after op close) (piece : List Char) :
    Ends (Layout.wrapped before piece after) := by
  obtain ⟨⟨c, seps, hbefore, hop, -⟩, -⟩ := h
  rw [Layout.wrapped]
  split_ifs
  · exact ends_nil
  · rw [hbefore]
    exact ends_of_mark? hop _

theorem surrounds_parens : Surrounds "(" ")" .parenL .parenR :=
  ⟨⟨_, [], rfl, rfl, by decide⟩, [], _, rfl, rfl, by decide⟩

theorem surrounds_parenLines : Surrounds ("(" ++ "\n") ("\n" ++ ")") .parenL .parenR :=
  ⟨⟨_, ['\n'], rfl, rfl, by decide⟩, ['\n'], _, rfl, rfl, by decide⟩

theorem surrounds_brackets : Surrounds "[" "]" .bracketL .bracketR :=
  ⟨⟨_, [], rfl, rfl, by decide⟩, [], _, rfl, rfl, by decide⟩

theorem surrounds_bracketLines : Surrounds "[\n" "\n]" .bracketL .bracketR :=
  ⟨⟨_, ['\n'], rfl, rfl, by decide⟩, ['\n'], _, rfl, rfl, by decide⟩

theorem surrounds_braces : Surrounds "\x7b " " \x7d" .braceL .braceR :=
  ⟨⟨_, [' '], rfl, rfl, by decide⟩, [' '], _, rfl, rfl, by decide⟩

theorem surrounds_braceLines : Surrounds ("\x7b" ++ "\n") ("\n" ++ "\x7d") .braceL .braceR :=
  ⟨⟨_, ['\n'], rfl, rfl, by decide⟩, ['\n'], _, rfl, rfl, by decide⟩

namespace Spells

variable {cs head type default : List Char} {ks headRow typeRow defaultRow : List TokenKind}

/-- A word before a blank. -/
theorem word {s : String} (hs : IsName s) (h : Spells cs ks) :
    Spells (s.toList ++ ' ' :: cs) (.name s :: ks) :=
  (h.skip rfl).token (lexes_name hs) (ends_of_isSeparator rfl cs)

/-- A keyword spells its token. -/
theorem keyword {s : String} (hs : IsName s) : Spells s.toList [.name s] :=
  single (lexes_name hs)

/-- A head and a type with a colon between them. -/
theorem entry (hhead : Spells head headRow) (htype : Spells type typeRow) :
    Spells (Form.entry head type) (headRow ++ .mark .colon :: typeRow) := by
  rw [Form.entry, List.append_assoc]
  exact hhead.append ((htype.skip rfl).mark rfl) (ends_of_mark? (c := ':') rfl _)

variable {pieces : List (List Char)} {rows : List (List TokenKind)}

/-- A block, or nothing if it has no pieces. -/
theorem block (h : List.Forall₂ Spells pieces rows) (hne : ∀ row ∈ rows, row ≠ []) :
    Spells (Layout.block pieces) (tokensBetween .braceL rows .braceR) :=
  enclosed surrounds_braceLines h hne

/-- Argument definitions spell the same on one line and on several. -/
theorem argumentDefs (h : List.Forall₂ Spells pieces rows) (hne : ∀ row ∈ rows, row ≠ []) :
    Spells (Form.argumentDefs pieces) (tokensBetween .parenL rows .parenR) := by
  rw [Form.argumentDefs]
  split_ifs
  · exact enclosed surrounds_parenLines h hne
  · exact line surrounds_parens h hne

theorem ends_argumentDefs (pieces : List (List Char)) : Ends (Form.argumentDefs pieces) := by
  rw [Form.argumentDefs]
  split_ifs
  · exact ends_wrapped surrounds_parenLines _
  · exact ends_wrapped surrounds_parens _

/-- Pieces with blanks between them. -/
theorem words (h : List.Forall₂ Spells pieces rows) :
    Spells (Layout.joined " " pieces) rows.flatten :=
  joined " " (by decide) (by decide) h

end Spells

/-! ## Values -/

/-- The tokens that are printed as they were read : all but block strings. -/
def TokenKind.Plain (k : TokenKind) : Prop := k.Legible ∧ ∀ s, k ≠ .block s

instance (k : TokenKind) : Decidable (∀ s, k ≠ .block s) :=
  match k with
  | .block s => isFalse fun h => h s rfl
  | .mark _ | .name _ | .int _ | .float _ | .string _ | .finish | .invalid _ =>
    isTrue fun _ h => TokenKind.noConfusion h

open TokenKind (Plain)

/-- A name that is a token spells it. -/
theorem Spells.name {n : Name} (h : Plain (.name n.text)) : Spells n.print [.name n.text] :=
  .keyword h.1

theorem Number.Parts.toList_of_kind {p : Number.Parts} {s : String}
    (h : p.kind = .int s ∨ p.kind = .float s) : s.toList = p.text := by
  unfold kind at h
  split at h <;> rcases h with h | h <;> cases h <;> exact String.toList_ofList

/-- A number that the grammar admits is a lexeme. -/
theorem lexes_of_isNumber {s : String} {k : TokenKind} (hk : k = .int s ∨ k = .float s)
    (h : k.IsNumber) : Lexes s.toList k := by
  obtain ⟨p, hp, rfl⟩ := h
  rw [Number.Parts.toList_of_kind hk]
  exact lexes_number hp

theorem Plain.ofText {block : Bool} {s : String} (h : Plain (.ofText block s)) : block = false := by
  cases block with
  | false => rfl
  | true => exact absurd rfl (h.2 s)

/-- The text of a string that is a token is a lexeme. -/
theorem lexes_printText {block : Bool} {s : String} (h : Plain (.ofText block s)) :
    Lexes (printText block s) (.ofText block s) := by
  rw [Plain.ofText h]
  exact lexes_quoted s

namespace Value

theorem printItems_eq (vs : List Value) : printItems vs = vs.map print := by
  induction vs with
  | nil => rfl
  | cons v vs ih => rw [printItems, ih, List.map_cons]

theorem itemTokens_eq (vs : List Value) : itemTokens vs = (vs.map tokens).flatten := by
  induction vs with
  | nil => rfl
  | cons v vs ih => rw [itemTokens, ih, List.map_cons, List.flatten_cons]

theorem printFields_eq (fs : List (Name × Value)) :
    printFields fs = fs.map fun f => Form.entry f.1.print f.2.print := by
  induction fs with
  | nil => rfl
  | cons f fs ih => rw [printFields, ih, List.map_cons]

theorem fieldTokens_eq (fs : List (Name × Value)) : fieldTokens fs =
    (fs.map fun f => TokenKind.name f.1.text :: .mark .colon :: f.2.tokens).flatten := by
  induction fs with
  | nil => rfl
  | cons f fs ih => rw [fieldTokens, ih, List.map_cons, List.flatten_cons]; rfl

theorem tokens_ne_nil (v : Value) : v.tokens ≠ [] := by
  cases v <;> simp [tokens]

/-- A value without block strings is printed as its tokens. -/
theorem Legible.spells_print {room : Nat} {v : Value} (h : v.Legible Plain room) :
    Spells v.print v.tokens := by
  induction h with
  | int h => exact .single (lexes_of_isNumber (Or.inl rfl) h.1)
  | float h => exact .single (lexes_of_isNumber (Or.inr rfl) h.1)
  | string h => exact .single (lexes_printText h)
  | @boolean _ b _ => cases b <;> exact .keyword (by decide)
  | null => exact .keyword (by decide)
  | enum h _ => exact .keyword h.1
  | @list _ vs _ _ ih =>
    have hitems := forall₂_spells ih
    rw [print, tokens, printItems_eq, itemTokens_eq, Form.list]
    split_ifs
    · exact .surrounded surrounds_bracketLines
        (Spells.joined "\n" (by decide) (by decide) hitems).indented
    · exact .surrounded surrounds_brackets
        (.joined ", " (by decide) (by decide) hitems)
  | @object _ fs _ hnames _ ih =>
    have hfields := forall₂_spells fun f hf => (Spells.name (hnames f hf)).entry (ih f hf)
    rw [print, tokens, printFields_eq, fieldTokens_eq, Form.object]
    split_ifs with hlong
    · have hne : fs ≠ [] := by
        rintro rfl
        simp [Layout.joined, Layout.lineRoom, List.intercalate] at hlong
      have hblock := Spells.block hfields (List.forall_mem_map.2 fun _ _ => List.cons_ne_nil _ _)
      rw [tokensBetween, if_neg (by simpa using hne)] at hblock
      exact hblock
    · exact .surrounded surrounds_braces
        (.joined ", " (by decide) (by decide) hfields)

end Value

/-! ## Directives, types and descriptions -/

/-- A legible argument spells its tokens. -/
theorem Argument.Legible.spells_print {room : Nat} {a : Argument} (h : a.Legible Plain room) :
    Spells a.print a.tokens :=
  (Spells.name h.name).entry h.value.spells_print

/-- A legible directive spells its tokens. -/
theorem Directive.Legible.spells_print {room : Nat} {d : Directive} (h : d.Legible Plain room) :
    Spells d.print d.tokens := by
  have harguments := Spells.line surrounds_parens
    (forall₂_spells fun a ha => (h.arguments a ha).spells_print)
    (List.forall_mem_map.2 fun _ _ => List.cons_ne_nil _ _)
  exact (harguments.token (lexes_name h.name.1) (ends_wrapped surrounds_parens _)).mark rfl

/-- Legible directives spell their tokens. -/
theorem spells_printDirectives {ds : List Directive} (h : LegibleDirectives Plain ds) :
    Spells (printDirectives ds) (directiveTokens ds) := by
  rw [directiveTokens, List.flatMap_def]
  exact .words (forall₂_spells fun d hd => (h d hd).spells_print)

/-- A legible type reference spells its tokens. -/
theorem TypeRef.Legible.spells_print {room : Nat} {t : TypeRef} (h : t.Legible Plain room) :
    Spells t.print t.tokens := by
  induction h with
  | named h => exact .name h
  | list _ ih => exact .surrounded surrounds_brackets ih
  | nonNull _ _ ih => exact ih.append (.mark rfl .nil) (ends_of_mark? (c := '!') rfl _)

/-- A description is spelled on lines of its own. -/
theorem spells_described {d : Option Description} (h : LegibleDescription Plain d)
    {cs : List Char} {ks : List TokenKind} (hcs : Spells cs ks) :
    Spells (described d cs) (descriptionTokens d ++ ks) := by
  cases d with
  | none => exact hcs
  | some d =>
    have hlex := lexes_printText (h d rfl)
    have hprint : described (some d) cs = printText d.block d.text ++ '\n' :: cs := by
      obtain ⟨c, cs', hw, -⟩ := hlex.scan [] ends_nil
      rw [described, Form.described, printDescription, Option.map_some, Option.getD_some,
        Description.print, Layout.wrapped, hw, List.isEmpty_cons, if_neg nofun]
      simp
    rw [hprint]
    exact (hcs.skip rfl).token hlex (ends_of_isSeparator (c := '\n') rfl _)

theorem spells_printDefault {v : Option Value}
    (h : ∀ x ∈ v, x.Legible Plain Parser.depthRoom) :
    Spells (Layout.wrapped "= " (printDefault v)) (defaultTokens v) := by
  cases v with
  | none => exact .nil
  | some v =>
    have hprint := (h v rfl).spells_print
    rw [printDefault, Option.map_some, Option.getD_some, Layout.wrapped]
    split_ifs with hempty
    · rw [List.isEmpty_iff.1 hempty] at hprint
      exact absurd hprint.eq_nil v.tokens_ne_nil
    · simpa [defaultTokens] using (hprint.skip (c := ' ') rfl).mark (c := '=') rfl

/-- Names with a mark between any two. -/
theorem spells_names (sep : String) {c : Char} {m : Mark} (hsep : sep.toList = [' ', c, ' '])
    (hm : Token.mark? c = some m) {ns : List Name} (h : LegibleNames Plain ns) :
    Spells (Layout.joined sep (ns.map Name.print)) (nameTokens m ns) := by
  induction ns with
  | nil => exact .nil
  | cons n ns ih =>
    have hname := Spells.name (h n List.mem_cons_self)
    have hrest := ih fun n' hn' => h n' (List.mem_cons_of_mem n hn')
    rw [List.map_cons, Layout.joined_cons]
    split_ifs with hempty
    · rw [List.isEmpty_iff.1 hempty] at hname
      cases hname.eq_nil
    · have hmore : Spells (Layout.wrapped sep (Layout.joined sep (ns.map Name.print)))
          (ns.flatMap fun n => [.mark m, .name n.text]) := by
        cases ns with
        | nil => exact .nil
        | cons n' ns =>
          have hne : (Layout.joined sep ((n' :: ns).map Name.print)).isEmpty = false := by
            refine Bool.eq_false_iff.2 fun hempty => ?_
            rw [List.isEmpty_iff.1 hempty] at hrest
            cases hrest.eq_nil
          rw [Layout.wrapped, hne, if_neg nofun, hsep]
          simpa [nameTokens] using ((hrest.skip (c := ' ') rfl).mark hm).skip (c := ' ') rfl
      have hends : Ends (Layout.wrapped sep (Layout.joined sep (ns.map Name.print))) := by
        rw [Layout.wrapped]
        split_ifs
        · exact ends_nil
        · rw [hsep]
          exact ends_of_isSeparator (c := ' ') rfl _
      exact hname.append hmore hends

theorem isEmpty_joined_names {sep : String} {ns : List Name} (h : LegibleNames Plain ns) :
    (Layout.joined sep (ns.map Name.print)).isEmpty = ns.isEmpty := by
  have hnames := forall₂_spells fun n hn => Spells.name (h n hn)
  rw [Spells.isEmpty_joined hnames (List.forall_mem_map.2 fun _ _ => List.cons_ne_nil _ _)]
  exact List.isEmpty_map

/-! ## Fields -/

/-- A legible input value spells its tokens. -/
theorem InputValue.Legible.spells_print {v : InputValue} (h : v.Legible Plain) :
    Spells v.print v.tokens := by
  have hentry := (Spells.name h.name).entry h.type.spells_print
  have hparts := Spells.words (.cons hentry (.cons (spells_printDefault h.default)
    (.cons (spells_printDirectives h.directives) .nil)))
  have hprint : Spells v.print _ := spells_described h.description hparts
  simpa [tokens] using hprint

theorem InputValue.tokens_ne_nil (v : InputValue) : v.tokens ≠ [] := by
  simp [tokens]

/-- Argument definitions behind a name. -/
theorem spells_argumentDefs {vs : List InputValue} (h : ∀ v ∈ vs, v.Legible Plain) :
    Spells (Form.argumentDefs (vs.map InputValue.print))
      (tokensBetween .parenL (vs.map InputValue.tokens) .parenR) :=
  .argumentDefs (forall₂_spells fun v hv => (h v hv).spells_print)
    (List.forall_mem_map.2 fun v _ => v.tokens_ne_nil)

/-- A legible field spells its tokens. -/
theorem Field.Legible.spells_print {f : Field} (h : f.Legible Plain) :
    Spells f.print f.tokens := by
  have hhead := (Spells.name h.name).append (spells_argumentDefs h.arguments)
    (Spells.ends_argumentDefs _)
  have hdefault := spells_printDefault (v := f.default) (by simp [h.default])
  have hparts := Spells.words (.cons (hhead.entry h.type.spells_print) (.cons hdefault
    (.cons (spells_printDirectives h.directives) .nil)))
  have hprint : Spells f.print _ := spells_described h.description hparts
  simpa [tokens, h.default, defaultTokens] using hprint

theorem Field.tokens_ne_nil (f : Field) : f.tokens ≠ [] := by
  simp [tokens]

/-! ## Types -/

/-- The pieces after a keyword. -/
theorem Spells.keywordWords {s : String} (hs : IsName s) {pieces : List (List Char)}
    {rows : List (List TokenKind)} (h : List.Forall₂ Spells pieces rows) {ks : List TokenKind}
    (hks : rows.flatten = ks) :
    Spells (Layout.joined " " (s.toList :: pieces)) (.name s :: ks) := by
  have hwords := Spells.words (.cons (.keyword hs) h)
  rwa [List.flatten_cons, hks] at hwords

/-- The interfaces of a type spell their tokens, or nothing if there are none. -/
theorem spells_interfaces {ns : List Name} (h : LegibleNames Plain ns) :
    Spells (Layout.wrapped "implements " (Layout.joined " & " (ns.map Name.print)))
      (interfaceTokens ns) := by
  have hnames := spells_names " & " (m := .amp) rfl (by decide) h
  rw [Layout.wrapped, isEmpty_joined_names h, interfaceTokens]
  split_ifs
  · exact .nil
  · simpa using Spells.word (s := "implements") (by decide) hnames

/-- The members of a union type spell their tokens, or nothing if there are none. -/
theorem spells_members {ns : List Name} (h : LegibleNames Plain ns) :
    Spells (Layout.wrapped "= " (Layout.joined " | " (ns.map Name.print)))
      (memberTokens ns) := by
  have hnames := spells_names " | " (m := .pipe) rfl (by decide) h
  rw [Layout.wrapped, isEmpty_joined_names h, memberTokens]
  split_ifs
  · exact .nil
  · simpa using (hnames.skip (c := ' ') rfl).mark (c := '=') rfl

theorem ObjectType.Legible.spells_printParts {t : ObjectType} (h : t.Legible Plain) {s : String}
    (hs : IsName s) :
    Spells (Layout.joined " " (s.toList :: t.printParts)) (.name s :: t.tokens) := by
  have hfields := Spells.block (forall₂_spells fun f hf => (h.fields f hf).spells_print)
    (List.forall_mem_map.2 fun f _ => f.tokens_ne_nil)
  exact .keywordWords hs (.cons (.name h.name) (.cons (spells_interfaces h.interfaces)
    (.cons (spells_printDirectives h.directives) (.cons hfields .nil)))) (by simp [tokens])

theorem ScalarType.Legible.spells_printBody {t : ScalarType} (h : t.Legible Plain) :
    Spells (TypeDef.scalar t).printBody (.name "scalar" :: t.tokens) :=
  .keywordWords (by decide) (.cons (.name h.name)
    (.cons (spells_printDirectives h.directives) .nil)) (by simp [tokens])

theorem UnionType.Legible.spells_printBody {t : UnionType} (h : t.Legible Plain) :
    Spells (TypeDef.union t).printBody (.name "union" :: t.tokens) :=
  .keywordWords (by decide) (.cons (.name h.name) (.cons (spells_printDirectives h.directives)
    (.cons (spells_members h.members) .nil))) (by simp [tokens])

/-- A legible enum value spells its tokens. -/
theorem EnumValue.Legible.spells_print {v : EnumValue} (h : v.Legible Plain) :
    Spells v.print v.tokens := by
  have hparts := Spells.words (.cons (.name h.name)
    (.cons (spells_printDirectives h.directives) .nil))
  have hprint : Spells v.print _ := spells_described h.description hparts
  simpa [tokens] using hprint

theorem EnumValue.tokens_ne_nil (v : EnumValue) : v.tokens ≠ [] := by
  simp [tokens]

theorem EnumType.Legible.spells_printBody {t : EnumType} (h : t.Legible Plain) :
    Spells (TypeDef.enum t).printBody (.name "enum" :: t.tokens) := by
  have hvalues := Spells.block (forall₂_spells fun v hv => (h.values v hv).spells_print)
    (List.forall_mem_map.2 fun v _ => v.tokens_ne_nil)
  exact .keywordWords (by decide) (.cons (.name h.name)
    (.cons (spells_printDirectives h.directives) (.cons hvalues .nil))) (by simp [tokens])

theorem InputType.Legible.spells_printBody {t : InputType} (h : t.Legible Plain) :
    Spells (TypeDef.input t).printBody (.name "input" :: t.tokens) := by
  have hfields := Spells.block (forall₂_spells fun v hv => (h.fields v hv).spells_print)
    (List.forall_mem_map.2 fun v _ => v.tokens_ne_nil)
  exact .keywordWords (by decide) (.cons (.name h.name)
    (.cons (spells_printDirectives h.directives) (.cons hfields .nil))) (by simp [tokens])

/-- A type is printed as its keyword and its tokens. -/
theorem TypeDef.Legible.spells_printBody {t : TypeDef} (h : t.Legible Plain) :
    Spells t.printBody (.name t.keyword :: t.tokens) := by
  cases t with
  | scalar t => exact ScalarType.Legible.spells_printBody h
  | object t => exact ObjectType.Legible.spells_printParts h (by decide)
  | interface t => exact ObjectType.Legible.spells_printParts h (by decide)
  | union t => exact UnionType.Legible.spells_printBody h
  | enum t => exact EnumType.Legible.spells_printBody h
  | input t => exact InputType.Legible.spells_printBody h

theorem TypeDef.Legible.description {t : TypeDef} (h : t.Legible Plain) :
    LegibleDescription Plain t.description := by
  cases t with
  | scalar t => exact ScalarType.Legible.description h
  | object t => exact ObjectType.Legible.description h
  | interface t => exact ObjectType.Legible.description h
  | union t => exact UnionType.Legible.description h
  | enum t => exact EnumType.Legible.description h
  | input t => exact InputType.Legible.description h

/-! ## Documents -/

theorem spells_printRoot {r : OperationKind × Name} (h : Plain (.name r.2.text)) :
    Spells (printRoot r) (rootTokens r) := by
  have hkeyword : IsName r.1.keyword := by cases r.1 <;> decide
  exact (Spells.keyword hkeyword).entry (.name h)

/-- A legible schema definition spells its tokens. -/
theorem SchemaDef.Legible.spells_printBody {s : SchemaDef} (h : s.Legible Plain) :
    Spells s.printBody (.name "schema" :: s.tokens) := by
  have hroots := Spells.block (forall₂_spells fun r hr => spells_printRoot (h.roots r hr))
    (List.forall_mem_map.2 fun _ _ => List.cons_ne_nil _ _)
  exact .keywordWords (by decide) (.cons (spells_printDirectives h.directives)
    (.cons hroots .nil)) (by simp [tokens])

/-- What is left out if it is empty, behind a blank. -/
theorem Spells.afterBlank {cs : List Char} {ks : List TokenKind} (h : Spells cs ks) :
    Spells (Layout.wrapped " " cs) ks := by
  rw [Layout.wrapped]
  split_ifs with hempty
  · rw [List.isEmpty_iff.1 hempty] at h
    rw [h.eq_nil]
    exact .nil
  · simpa using h.skip (c := ' ') rfl

theorem ends_afterBlank (cs : List Char) : Ends (Layout.wrapped " " cs) := by
  rw [Layout.wrapped]
  split_ifs
  · exact ends_nil
  · exact ends_of_isSeparator (c := ' ') rfl _

/-- A legible directive definition spells its tokens. -/
theorem DirectiveDef.Legible.spells_printBody {d : DirectiveDef} (h : d.Legible Plain) :
    Spells d.printBody (.name "directive" :: d.tokens) := by
  have hname : Spells ("directive @".toList ++ d.name.print)
      [.name "directive", .mark .atSign, .name d.name.text] := by
    simpa using Spells.word (s := "directive") (by decide)
      ((Spells.name h.name).mark (c := '@') (m := .atSign) rfl)
  have hrepeatable : Spells (if d.repeatable then " repeatable".toList else [])
      (if d.repeatable then [.name "repeatable"] else []) := by
    split_ifs
    · exact (Spells.keyword (s := "repeatable") (by decide)).skip (c := ' ') rfl
    · exact .nil
  have hends : Ends (if d.repeatable then " repeatable".toList else []) := by
    split_ifs
    · exact ends_of_isSeparator (c := ' ') rfl _
    · exact ends_nil
  have hlocations : Spells (" on ".toList ++ Layout.joined " | " (d.locations.map Name.print))
      (.name "on" :: nameTokens .pipe d.locations) := by
    simpa using (Spells.word (s := "on") (by decide)
      (spells_names " | " (m := .pipe) rfl (by decide) h.locations)).skip (c := ' ') rfl
  have hcall := hname.append (spells_argumentDefs h.arguments) (Spells.ends_argumentDefs _)
  have hfront := hcall.append (spells_printDirectives h.directives).afterBlank (ends_afterBlank _)
  have hbody := (hfront.append hrepeatable hends).append hlocations
    (by simpa using ends_of_isSeparator (c := ' ') rfl _)
  rw [← List.append_assoc _ " on ".toList] at hbody
  unfold DirectiveDef.printBody
  simpa only [tokens, List.append_assoc, List.cons_append, List.nil_append] using hbody

/-- A legible definition of a type system is printed as its tokens. -/
theorem Definition.Legible.spells_print {d : Definition} (h : d.Legible Plain)
    (hd : d.isTypeSystem) : Spells d.print d.tokens := by
  cases d with
  | operation o => cases hd
  | fragment f => cases hd
  | schema s => exact spells_described h.1.description h.1.spells_printBody
  | schemaExtension s => exact .word (s := "extend") (by decide) h.1.spells_printBody
  | typeDef t =>
    exact spells_described (TypeDef.Legible.description h) (TypeDef.Legible.spells_printBody h)
  | typeExtension t => exact .word (s := "extend") (by decide) h.1.spells_printBody
  | directiveDef d =>
    exact spells_described (DirectiveDef.Legible.description h)
      (DirectiveDef.Legible.spells_printBody h)
  | directiveExtension n ds =>
    have hname := Spells.word (s := "extend") (by decide)
      (.word (s := "directive") (by decide) ((Spells.name h.1).mark (c := '@') (m := .atSign) rfl))
    have hprint : Spells (directiveExtension n ds).print _ :=
      Spells.words (.cons hname (.cons (spells_printDirectives h.2.2) .nil))
    simpa [tokens] using hprint

/-- A legible document of a type system is printed as its tokens. -/
theorem Document.Legible.spells_print {d : Document} (h : d.Legible Plain)
    (hd : ∀ definition ∈ d.definitions, definition.isTypeSystem) :
    Spells d.printChars (d.definitions.flatMap Definition.tokens) := by
  rw [List.flatMap_def]
  exact .joined "\n\n" (by decide) (by decide)
    (forall₂_spells fun definition hdef => (h definition hdef).spells_print (hd definition hdef))

end RelationApi.Sdl

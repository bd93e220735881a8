import RelationApi.Proofs.Sdl.Reading
import RelationApi.Proofs.Sdl.Tokens

/-!
# Taking tokens

What a parser does is settled by the kinds of the tokens before it (`Cursor.At`). A parser takes a
row of tokens if it succeeds there, takes just the row, and gives a result with a property; what
follows the row must not go on with it (`Parser.Parses`).

There is one rule for each primitive and one for each combinator, so that the statements about the
grammar follow the syntax of the parsers. Repetition has a single rule, `Parses.repeated`, of which
lists between marks, lists with marks in between, and directives are cases.
-/

namespace RelationApi.Sdl

/-- The tokens that are left are of these kinds, and none of them is invalid. -/
structure Cursor.At (c : Cursor) (ks : List TokenKind) : Prop where
  kinds : c.rest.map Token.kind = ks
  valid : ∀ k ∈ ks, ∀ e, k ≠ .invalid e

theorem headD_append (ks ks' : List TokenKind) (k : TokenKind) :
    (ks ++ ks').headD k = ks.headD (ks'.headD k) := by
  cases ks <;> rfl

namespace Cursor.At

variable {c : Cursor} {k : TokenKind} {ks : List TokenKind}

/-- The current token is the first one of the row. -/
theorem head (h : c.At ks) : c.head.kind = ks.headD .finish := by
  rw [← h.kinds, Cursor.head]
  cases c.rest <;> rfl

theorem length_rest (h : c.At ks) : c.rest.length = ks.length := by
  rw [← h.kinds, List.length_map]

/-- A row that is not empty is left after its first token. -/
theorem rest_eq_cons (h : c.At (k :: ks)) : ∃ t ts, c.rest = t :: ts ∧ t.kind = k ∧
    ∀ last, At ⟨last, ts⟩ ks := by
  cases hrest : c.rest with
  | nil => simpa [hrest] using h.kinds
  | cons t ts =>
    have hkinds := h.kinds
    rw [hrest, List.map_cons, List.cons.injEq] at hkinds
    exact ⟨t, ts, rfl, hkinds.1,
      fun _ => ⟨hkinds.2, fun k hk => h.valid k (List.mem_cons_of_mem _ hk)⟩⟩

/-- The check of the head succeeds. -/
theorem checkHead (h : c.At ks) (c' : Cursor) : Parser.checkHead c.rest c' = .ok ((), c') := by
  cases hrest : c.rest with
  | nil => rfl
  | cons t ts =>
    have hvalid : ∀ e, t.kind ≠ .invalid e := by
      refine h.valid t.kind ?_
      rw [← h.kinds, hrest]
      exact List.mem_cons_self
    obtain ⟨kind, span⟩ := t
    cases kind with
    | invalid e => exact absurd rfl (hvalid e)
    | _ => rfl

end Cursor.At

namespace Parser

variable {α β γ : Type}

/-- Before the row, and where what follows it is admitted, the parser succeeds, takes the row and
no more, and gives a result with the property. -/
def Parses (p : Parser α) (ks : List TokenKind) (F : TokenKind → Prop) (P : α → Prop) : Prop :=
  ∀ c rest, c.At (ks ++ rest) → F (rest.headD .finish) →
    ∃ a c', p c = .ok (a, c') ∧ c'.At rest ∧ P a

/-- Whatever follows. -/
def Anything (_ : TokenKind) : Prop := True

namespace Parses

variable {p : Parser α} {f : α → Parser β} {ks ks' : List TokenKind} {F F' : TokenKind → Prop}
  {P : α → Prop} {Q : β → Prop}

theorem mono {P' : α → Prop} (h : Parses p ks F P) (hP : ∀ a, P a → P' a) : Parses p ks F P' := by
  intro c rest hc hF
  obtain ⟨a, c', hp, hc', ha⟩ := h c rest hc hF
  exact ⟨a, c', hp, hc', hP a ha⟩

theorem before (h : Parses p ks F P) (hF : ∀ k, F' k → F k) : Parses p ks F' P :=
  fun c rest hc hF' => h c rest hc (hF _ hF')

theorem pure {a : α} (h : P a) : Parses (pure a) [] F P :=
  fun c _ hc _ => ⟨a, c, rfl, hc, h⟩

/-- One parser after another takes one row after another; the second row follows the first. -/
theorem bind (h : Parses p ks F P) (hf : ∀ a, P a → Parses (f a) ks' F' Q)
    (hF : ∀ k, F' k → F (ks'.headD k)) : Parses (p >>= f) (ks ++ ks') F' Q := by
  intro c rest hc hF'
  rw [List.append_assoc] at hc
  obtain ⟨a, c₁, hp, hc₁, ha⟩ := h c _ hc (by rw [headD_append]; exact hF _ hF')
  obtain ⟨b, c₂, hb, hc₂, hQ⟩ := hf a ha c₁ rest hc₁ hF'
  exact ⟨b, c₂, bind_eq_ok_iff.2 ⟨a, c₁, hp, hb⟩, hc₂, hQ⟩

/-- A parser that takes its row whatever follows, before another one. -/
theorem andThen (h : Parses p ks Anything P) (hf : ∀ a, P a → Parses (f a) ks' F' Q) :
    Parses (p >>= f) (ks ++ ks') F' Q :=
  h.bind hf fun _ _ => trivial

/-- A parser that takes one token whatever follows, before another one. -/
theorem cons {k : TokenKind} (h : Parses p [k] Anything P)
    (hf : ∀ a, P a → Parses (f a) ks F' Q) : Parses (p >>= f) (k :: ks) F' Q :=
  h.andThen hf

/-- A parser that takes nothing, before another one. -/
theorem look (h : Parses p [] F P) (hf : ∀ a, P a → Parses (f a) ks F' Q)
    (hF : ∀ k, F' k → F (ks.headD k)) : Parses (p >>= f) ks F' Q :=
  h.bind hf hF

/-- A parser that takes its row, before others that take nothing. -/
theorem bindNil (h : Parses p ks F P) (hf : ∀ a, P a → Parses (f a) [] F Q) :
    Parses (p >>= f) ks F Q := by
  simpa using h.bind hf fun _ hk => hk

/-- A parser that takes its row, and what is made of its result. -/
theorem map (h : Parses p ks F P) {g : α → β} (hg : ∀ a, P a → Q (g a)) :
    Parses (p >>= fun a => Pure.pure (g a)) ks F Q :=
  h.bindNil fun a ha => .pure (hg a ha)

/-- A parser that takes its row, and what is made of its result by a map. -/
theorem fmap (h : Parses p ks F P) {g : α → β} (hg : ∀ a, P a → Q (g a)) :
    Parses (g <$> p) ks F Q := by
  rw [← bind_pure_comp]
  exact h.map hg

end Parses

/-! ## Tokens -/

section Tokens

variable {k : TokenKind} {ks : List TokenKind} {F : TokenKind → Prop} {P : α → Prop}

/-- The token at the head is known before it is taken. -/
theorem Parses.current {f : Token → Parser α}
    (h : ∀ t, (∃ k, F k ∧ t.kind = ks.headD k) → Parses (f t) ks F P) :
    Parses (current >>= f) ks F P := by
  intro c rest hc hF
  have hhead : c.head.kind = ks.headD (rest.headD .finish) := by rw [hc.head, headD_append]
  exact h c.head ⟨_, hF, hhead⟩ c rest hc hF

/-- The token at the head is the first one of the row. -/
theorem Parses.current_cons {f : Token → Parser α}
    (h : ∀ t, t.kind = k → Parses (f t) (k :: ks) F P) :
    Parses (Parser.current >>= f) (k :: ks) F P :=
  .current fun t ⟨_, _, ht⟩ => h t ht

/-- One token is taken, whatever it is. -/
theorem parses_advance : Parses advance [k] Anything fun _ => True := by
  intro c rest hc _
  obtain ⟨t, ts, hrest, -, hts⟩ := hc.rest_eq_cons
  have hadvance :
      advance c = (do checkHead ts; set (Cursor.mk t.span.stop ts) : Parser Unit) c := by
    rw [advance, get_bind, hrest]
  refine ⟨(), ⟨t.span.stop, ts⟩, ?_, hts _, trivial⟩
  rw [hadvance, bind_eq_ok_iff]
  exact ⟨(), c, (hts 0).checkHead c, rfl⟩

theorem parses_place : Parses place [] F fun _ => True :=
  fun c _ hc _ => ⟨_, c, rfl, hc, trivial⟩

theorem parses_spanFrom (start : Nat) : Parses (spanFrom start) [] F fun _ => True :=
  fun c _ hc _ => ⟨_, c, rfl, hc, trivial⟩

/-- The second token of a row is known before the first is taken. -/
theorem parses_lookahead {k k' : TokenKind} {ks : List TokenKind} {f : TokenKind → Parser α}
    (h : Parses (f k') (k :: k' :: ks) F P) : Parses (lookahead >>= f) (k :: k' :: ks) F P := by
  intro c rest hc hF
  obtain ⟨t, ts, hrest, -, hts⟩ := hc.rest_eq_cons
  obtain ⟨t', ts', hrest', ht', -⟩ := (hts 0).rest_eq_cons
  obtain rfl : ts = t' :: ts' := hrest'
  have hlook : lookahead c = .ok (k', c) := by
    have hlook : lookahead c = (do checkHead (t' :: ts'); return t'.kind : Parser TokenKind) c := by
      rw [lookahead, get_bind, hrest]
    rw [hlook, bind_eq_ok_iff]
    exact ⟨(), c, (hts 0).checkHead c, by rw [ht']; rfl⟩
  obtain ⟨a, c', hf, hc', ha⟩ := h c rest hc hF
  exact ⟨a, c', bind_eq_ok_iff.2 ⟨k', c, hlook, hf⟩, hc', ha⟩

theorem parses_peekMark (m : Mark) : Parses (peekMark m) [] (· = .mark m) (· = true) :=
  .current fun _ ⟨_, hk, ht⟩ => .pure (decide_eq_true (ht.trans hk))

theorem parses_peekMark_ne (m : Mark) : Parses (peekMark m) [] (· ≠ .mark m) (· = false) :=
  .current fun _ ⟨_, hk, ht⟩ => .pure (decide_eq_false (ht ▸ hk))

/-- A mark that is there is taken. -/
theorem parses_optMark (m : Mark) : Parses (optMark m) [.mark m] Anything (· = true) := by
  refine (parses_peekMark m).look ?_ fun _ _ => rfl
  rintro _ rfl
  exact parses_advance.map fun _ _ => rfl

/-- A mark that is not there is not taken. -/
theorem parses_optMark_ne (m : Mark) : Parses (optMark m) [] (· ≠ .mark m) (· = false) := by
  refine (parses_peekMark_ne m).look ?_ fun _ hk => hk
  rintro _ rfl
  exact .pure rfl

/-- A mark that has to be there is taken. -/
theorem parses_expectMark (m : Mark) : Parses (expectMark m) [.mark m] Anything fun _ => True := by
  refine (parses_optMark m).bindNil ?_
  rintro _ rfl
  exact .pure trivial

/-- A keyword that is there is taken. -/
theorem parses_optKeyword (s : String) : Parses (optKeyword s) [.name s] Anything (· = true) := by
  refine .current_cons fun t ht => ?_
  rw [if_pos ht]
  exact parses_advance.map fun _ _ => rfl

/-- A keyword that is not there is not taken. -/
theorem parses_optKeyword_ne (s : String) :
    Parses (optKeyword s) [] (· ≠ .name s) (· = false) := by
  refine .current fun t ⟨k, hk, ht⟩ => ?_
  rw [if_neg (ht ▸ hk : t.kind ≠ .name s)]
  exact .pure rfl

/-- A keyword that has to be there is taken. -/
theorem parses_expectKeyword (s : String) :
    Parses (expectKeyword s) [.name s] Anything fun _ => True := by
  refine (parses_optKeyword s).bindNil ?_
  rintro _ rfl
  exact .pure trivial

/-- A name is taken and is the result. -/
theorem parses_name (s : String) : Parses name [.name s] Anything fun n => n.text = s := by
  refine .current_cons fun t ht => ?_
  obtain ⟨kind, span⟩ := t
  obtain rfl : kind = .name s := ht
  exact parses_advance.map fun _ _ => rfl

end Tokens

/-! ## Repetition -/

/-- The row starts with a token of the given kinds. -/
def StartsWith (G : TokenKind → Prop) (ks : List TokenKind) : Prop :=
  ∃ k ks', ks = k :: ks' ∧ G k

/-- Rows that are not empty have as many tokens as there are rows, at least. -/
theorem length_le_length_flatMap {row : β → List TokenKind} {xs : List β}
    (h : ∀ x ∈ xs, row x ≠ []) : xs.length ≤ (xs.flatMap row).length := by
  induction xs with
  | nil => exact Nat.zero_le _
  | cons x xs ih =>
    rw [List.forall_mem_cons] at h
    rw [List.flatMap_cons, List.length_append, List.length_cons]
    have hrow := List.length_pos_iff.2 h.1
    have hrest := ih h.2
    omega

theorem StartsWith.mono {G G' : TokenKind → Prop} {ks : List TokenKind} (h : StartsWith G ks)
    (hG : ∀ k, G k → G' k) : StartsWith G' ks := by
  obtain ⟨k, ks', rfl, hk⟩ := h
  exact ⟨k, ks', rfl, hG k hk⟩

theorem StartsWith.headD {G : TokenKind → Prop} {ks : List TokenKind} (h : StartsWith G ks)
    (k : TokenKind) : G (ks.headD k) := by
  obtain ⟨k', ks', rfl, hk'⟩ := h
  exact hk'

section Repetition

variable {more : Parser Bool} {item : Parser α}
  {F F' G : TokenKind → Prop} {row : β → List TokenKind} {view : α → γ} {expected : β → γ}
  {xs : List β}

/-- What follows a row is the next row, or what the last test takes. -/
theorem headD_rows {pre post : List TokenKind} (hstart : ∀ x ∈ xs, StartsWith G (row x))
    (hpre : ∀ k, G k → F (pre.headD k)) (hpost : ∀ k, F' k → F (post.headD k)) (k : TokenKind)
    (hk : F' k) : F (((xs.flatMap fun x => pre ++ row x) ++ post).headD k) := by
  cases xs with
  | nil => exact hpost k hk
  | cons x xs =>
    obtain ⟨k', ks', hrow, hk'⟩ := hstart x List.mem_cons_self
    rw [List.flatMap_cons, hrow, List.append_assoc, List.append_assoc, headD_append]
    exact hpre k' hk'

section Rows

variable (pre post : List TokenKind)
  (hgo : Parses more pre G (· = true)) (hstop : Parses more post F' (· = false))
  (hitem : ∀ x ∈ xs, Parses item (row x) F fun a => view a = expected x)
  (hstart : ∀ x ∈ xs, StartsWith G (row x)) (hpre : ∀ k, G k → F (pre.headD k))
  (hpost : ∀ k, F' k → F (post.headD k))
include hgo hstop hitem hstart hpre hpost

/-- Rows are taken one after another, if there are more rounds than rows. -/
theorem parses_repeatWhile (rounds : Nat) (hlt : xs.length < rounds) :
    Parses (repeatWhile more item rounds) ((xs.flatMap fun x => pre ++ row x) ++ post) F'
      fun as => as.map view = xs.map expected := by
  obtain ⟨rounds, rfl⟩ := Nat.exists_eq_succ_of_ne_zero (Nat.ne_zero_of_lt hlt)
  induction xs generalizing rounds with
  | nil =>
    have hnone :
        Parses (repeatWhile more item (rounds + 1)) (post ++ []) F' fun as => as = [] := by
      refine hstop.bind ?_ fun _ hk => hk
      rintro _ rfl
      exact .pure rfl
    simpa using hnone.mono fun _ has => has
  | cons x xs ih =>
    rw [List.forall_mem_cons] at hitem hstart
    obtain ⟨rounds, rfl⟩ := Nat.exists_eq_succ_of_ne_zero
      (Nat.ne_zero_of_lt (Nat.lt_of_succ_lt_succ hlt))
    have hrest := ih hitem.2 hstart.2 rounds (by simpa using hlt)
    have hmore : Parses (repeatWhile more item (rounds + 1 + 1))
        (pre ++ (row x ++ ((xs.flatMap fun x => pre ++ row x) ++ post))) F'
        fun as => as.map view = (x :: xs).map expected := by
      obtain ⟨k, ks, hrow, hk⟩ := hstart.1
      refine hgo.bind ?_ fun _ _ => by rw [hrow]; exact hk
      rintro _ rfl
      refine hitem.1.bind (fun a ha => hrest.map fun as has => ?_)
        (headD_rows hstart.2 hpre hpost)
      rw [List.map_cons, List.map_cons, ha, has]
    simpa using hmore

/-- Rows are taken one after another as long as the test before each says so, if the test takes
`pre` and what follows is the start of a row, and otherwise takes `post`. -/
theorem Parses.repeated :
    Parses (repeated more item) ((xs.flatMap fun x => pre ++ row x) ++ post) F'
      fun as => as.map view = xs.map expected := by
  intro c rest hc hF
  -- each row has a token, so there are as many rounds as rows
  have hlength : xs.length ≤ (xs.flatMap fun x => pre ++ row x).length := by
    refine length_le_length_flatMap fun x hx => ?_
    obtain ⟨k, ks, hrow, -⟩ := hstart x hx
    simp [hrow]
  have hrounds : xs.length < c.rest.length + 1 := by
    rw [hc.length_rest, List.length_append, List.length_append]
    omega
  exact parses_repeatWhile pre post hgo hstop hitem hstart hpre hpost _ hrounds c rest hc hF

end Rows

variable {sep op close : Mark}

/-- Items up to a closing mark, which is taken. -/
theorem parses_itemsUntil
    (hitem : ∀ x ∈ xs, Parses item (row x) F fun a => view a = expected x)
    (hstart : ∀ x ∈ xs, StartsWith (fun k => k ≠ .mark close ∧ F k) (row x))
    (hclose : F (.mark close)) :
    Parses (itemsUntil close item) (xs.flatMap row ++ [.mark close]) Anything
      fun as => as.map view = xs.map expected := by
  refine .repeated [] [.mark close] (F := F) ?_ ?_ hitem hstart (fun _ hk => hk.2) fun _ _ => hclose
  · exact ((parses_optMark_ne close).before fun _ hk => hk.1).map fun b hb => by rw [hb]; rfl
  · exact (parses_optMark close).map fun b hb => by rw [hb]; rfl

/-- Items between two marks, which are there even if no items are. -/
theorem parses_anyBetween
    (hitem : ∀ x ∈ xs, Parses item (row x) F fun a => view a = expected x)
    (hstart : ∀ x ∈ xs, StartsWith (fun k => k ≠ .mark close ∧ F k) (row x))
    (hclose : F (.mark close)) :
    Parses (anyBetween op item close) (.mark op :: (xs.flatMap row ++ [.mark close])) Anything
      fun as => as.map view = xs.map expected :=
  (parses_expectMark op).cons fun _ _ => parses_itemsUntil hitem hstart hclose

/-- At least one item up to a closing mark. -/
theorem parses_someUntil (hne : xs ≠ [])
    (hitem : ∀ x ∈ xs, Parses item (row x) F fun a => view a = expected x)
    (hstart : ∀ x ∈ xs, StartsWith (fun k => k ≠ .mark close ∧ F k) (row x))
    (hclose : F (.mark close)) :
    Parses (someUntil close item) (xs.flatMap row ++ [.mark close]) Anything
      fun as => as.map view = xs.map expected := by
  cases xs with
  | nil => exact absurd rfl hne
  | cons x xs =>
    rw [List.forall_mem_cons] at hitem hstart
    rw [List.flatMap_cons, List.append_assoc]
    refine hitem.1.bind (fun a ha => (parses_itemsUntil hitem.2 hstart.2 hclose).map
      fun as has => by rw [List.map_cons, List.map_cons, ha, has]) fun k _ => ?_
    cases xs with
    | nil => exact hclose
    | cons x xs =>
      obtain ⟨k', ks, hrow, -, hk'⟩ := hstart.2 x List.mem_cons_self
      rw [List.flatMap_cons, hrow]
      exact hk'

theorem tokensBetween_of_ne_nil (h : xs ≠ []) : tokensBetween op (xs.map row) close =
    .mark op :: (xs.flatMap row ++ [.mark close]) := by
  rw [tokensBetween, if_neg (by simpa using h), List.flatMap_def]

/-- At least one item between two marks. -/
theorem parses_someBetween (hne : xs ≠ [])
    (hitem : ∀ x ∈ xs, Parses item (row x) F fun a => view a = expected x)
    (hstart : ∀ x ∈ xs, StartsWith (fun k => k ≠ .mark close ∧ F k) (row x))
    (hclose : F (.mark close)) :
    Parses (someBetween op item close) (tokensBetween op (xs.map row) close) Anything
      fun as => as.map view = xs.map expected := by
  rw [tokensBetween_of_ne_nil hne]
  exact (parses_expectMark op).cons fun _ _ => parses_someUntil hne hitem hstart hclose

/-- Items between two marks, or nothing if there are none. -/
theorem parses_optBetween
    (hitem : ∀ x ∈ xs, Parses item (row x) F fun a => view a = expected x)
    (hstart : ∀ x ∈ xs, StartsWith (fun k => k ≠ .mark close ∧ F k) (row x))
    (hclose : F (.mark close)) :
    Parses (optBetween op item close) (tokensBetween op (xs.map row) close) (· ≠ .mark op)
      fun as => as.map view = xs.map expected := by
  by_cases hne : xs = []
  · subst hne
    refine (parses_optMark_ne op).bindNil ?_
    rintro _ rfl
    exact .pure rfl
  · rw [tokensBetween_of_ne_nil hne]
    refine (parses_optMark op).cons ?_
    rintro _ rfl
    exact (parses_someUntil hne hitem hstart hclose).before fun _ _ => trivial

/-- At least one item, with a mark between any two. -/
theorem parses_separatedBy (row : β → List TokenKind) {x : β}
    (hitem : ∀ x' ∈ x :: xs, Parses item (row x') Anything fun a => view a = expected x')
    (hstart : ∀ x' ∈ x :: xs, StartsWith (· ≠ .mark sep) (row x')) :
    Parses (separatedBy sep item) (row x ++ xs.flatMap fun x => .mark sep :: row x) (· ≠ .mark sep)
      fun as => as.map view = (x :: xs).map expected := by
  rw [List.forall_mem_cons] at hitem hstart
  obtain ⟨k, ks, hrow, hk⟩ := hstart.1
  have hmore : Parses (repeated (optMark sep) item) (xs.flatMap fun x => .mark sep :: row x)
      (· ≠ .mark sep) fun as => as.map view = xs.map expected := by
    have hmore := Parses.repeated [.mark sep] [] (G := (· ≠ .mark sep))
      ((parses_optMark sep).before fun _ _ => trivial) (parses_optMark_ne sep) hitem.2 hstart.2
      (fun _ _ => trivial) fun _ _ => trivial
    simpa using hmore
  refine (parses_optMark_ne sep).look (fun _ _ => ?_) fun _ _ => by rw [hrow]; exact hk
  exact hitem.1.andThen fun a ha => hmore.map fun as has => by
    rw [List.map_cons, List.map_cons, ha, has]

end Repetition

end Parser

end RelationApi.Sdl

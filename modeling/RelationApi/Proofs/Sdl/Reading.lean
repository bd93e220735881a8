import Mathlib.Tactic.SplitIfs
import RelationApi.Sdl.Parser.Basic

/-!
# What parsers read

A parser takes tokens off the head of its list and adds none. So if all tokens of a text are of a
kind (`Cursor.All`), then so are all that a parser ever sees. Under this invariant, `Parser.Reads`
is a postcondition for what a parser reads, with one rule for each way to put parsers together;
`Parser.Takes` is the case where nothing is said about the result.

The parsers for tokens and for repetition are all here.
-/

namespace RelationApi.Sdl

/-- The token at the head; past the last one stays the end of the text. -/
def Cursor.head (c : Cursor) : Token := c.rest.head?.getD ⟨.finish, ⟨0, 0⟩⟩

/-- All tokens that are left have the property, and so has the end of the text. -/
def Cursor.All (T : TokenKind → Prop) (c : Cursor) : Prop := T .finish ∧ ∀ t ∈ c.rest, T t.kind

namespace Parser

variable {α β : Type} {T : TokenKind → Prop} {P : α → Prop} {Q : β → Prop}

/-- A parser in two parts succeeds exactly when both parts do. -/
theorem bind_eq_ok_iff {p : Parser α} {f : α → Parser β} {c c' : Cursor} {b : β} :
    (p >>= f) c = .ok (b, c') ↔ ∃ a c₁, p c = .ok (a, c₁) ∧ f a c₁ = .ok (b, c') := by
  simp only [Bind.bind, StateT.bind]
  rcases p c with e | ⟨a, c₁⟩ <;> simp [Except.bind, and_assoc]

/-- A parser that looks at the cursor first. -/
theorem get_bind (f : Cursor → Parser β) (c : Cursor) : (get >>= f) c = f c c := rfl

/-- Whatever the parser reads has the property `P`, and the tokens that it leaves have `T`, if those
that it was given have. -/
def Reads (T : TokenKind → Prop) (p : Parser α) (P : α → Prop) : Prop :=
  ∀ c a c', c.All T → p c = .ok (a, c') → c'.All T ∧ P a

namespace Reads

theorem pure {a : α} (h : P a) : Reads T (pure a) P := by
  intro c b c' hc hb
  cases hb
  exact ⟨hc, h⟩

theorem fail (e : SyntaxError) : Reads T (fail e : Parser α) P := by
  intro c a c' hc ha
  cases ha

theorem bind {p : Parser α} {f : α → Parser β} (hp : Reads T p P)
    (hf : ∀ a, P a → Reads T (f a) Q) : Reads T (p >>= f) Q := by
  intro c b c' hc hb
  obtain ⟨a, c₁, ha, hb⟩ := bind_eq_ok_iff.1 hb
  obtain ⟨hc₁, ha⟩ := hp c a c₁ hc ha
  exact hf a ha c₁ b c' hc₁ hb

theorem mono {P' : α → Prop} {p : Parser α} (hp : Reads T p P) (h : ∀ a, P a → P' a) :
    Reads T p P' := fun c a c' hc ha => (hp c a c' hc ha).imp_right (h a)

theorem map {p : Parser α} {f : α → β} (hp : Reads T p P) (h : ∀ a, P a → Q (f a)) :
    Reads T (f <$> p) Q := by
  rw [← bind_pure_comp]
  exact hp.bind fun a ha => pure (h a ha)

theorem ite {c : Prop} [Decidable c] {p q : Parser α} (hp : Reads T p P) (hq : Reads T q P) :
    Reads T (if c then p else q) P := by
  split_ifs <;> assumption

end Reads

/-- The parser only takes tokens. -/
abbrev Takes (T : TokenKind → Prop) (p : Parser α) : Prop := Reads T p fun _ => True

/-- A parser that reads what has a property only takes tokens. -/
theorem Reads.takes {p : Parser α} (hp : Reads T p P) : Takes T p := hp.mono fun _ _ => trivial

/-! ## Tokens -/

/-- The check of the head changes nothing. -/
theorem eq_of_checkHead {tokens : List Token} {c c' : Cursor} {u : Unit}
    (h : checkHead tokens c = .ok (u, c')) : c' = c := by
  unfold checkHead at h
  split at h <;> cases h
  rfl

theorem takes_checkHead (tokens : List Token) : Takes T (checkHead tokens) := by
  unfold checkHead
  split
  · exact .fail _
  · exact .pure trivial

theorem reads_get : Reads T (get : Parser Cursor) (Cursor.All T) := by
  intro c a c' hc h
  cases h
  exact ⟨hc, hc⟩

/-- The cursor can be set to one with such tokens. -/
theorem takes_set {c : Cursor} (hc : c.All T) : Takes T (set c : Parser PUnit) := by
  intro c₀ a c' _ h
  cases h
  exact ⟨hc, trivial⟩

/-- The current token is such a token. -/
theorem reads_current : Reads T current fun t => T t.kind := by
  refine reads_get.bind fun c hc => .pure ?_
  cases h : c.rest with
  | nil => exact hc.1
  | cons t ts => exact hc.2 t (by simp [h])

/-- Taking a token leaves such tokens. -/
theorem takes_advance : Takes T advance := by
  refine reads_get.bind fun c hc => ?_
  split
  · exact .pure trivial
  · next t rest h =>
    have hrest : Cursor.All T ⟨t.span.stop, rest⟩ :=
      ⟨hc.1, fun t' ht' => hc.2 t' (by simp [h, ht'])⟩
    exact (takes_checkHead rest).bind fun _ _ => takes_set hrest

/-- The token after the current one is such a token. -/
theorem reads_lookahead : Reads T lookahead T := by
  refine reads_get.bind fun c hc => ?_
  split
  · next t rest h =>
    exact (takes_checkHead _).bind fun _ _ => .pure (hc.2 t (by simp [h]))
  · exact .pure hc.1

theorem takes_place : Takes T place :=
  reads_current.bind fun _ _ => .pure trivial

/-- No token is taken for a place. -/
theorem takes_spanFrom (start : Nat) : Takes T (spanFrom start) :=
  reads_get.bind fun _ _ => .pure trivial

/-- A parser that fails reads whatever is wanted. -/
theorem reads_unexpected : Reads T (unexpected : Parser α) P :=
  reads_current.bind fun _ _ => .fail _

theorem takes_peekMark (m : Mark) : Takes T (peekMark m) :=
  reads_current.bind fun _ _ => .pure trivial

/-- A mark that may be missing is taken or not. -/
theorem takes_optMark (m : Mark) : Takes T (optMark m) :=
  (takes_peekMark m).bind fun _ _ =>
    .ite (takes_advance.bind fun _ _ => .pure trivial) (.pure trivial)

theorem takes_expectMark (m : Mark) : Takes T (expectMark m) :=
  (takes_optMark m).bind fun _ _ => .ite (reads_current.bind fun _ _ => .fail _) (.pure trivial)

theorem takes_optKeyword (k : String) : Takes T (optKeyword k) :=
  reads_current.bind fun _ _ => .ite (takes_advance.bind fun _ _ => .pure trivial) (.pure trivial)

/-- A keyword that has to be there is taken. -/
theorem takes_expectKeyword (k : String) : Takes T (expectKeyword k) :=
  (takes_optKeyword k).bind fun _ _ => .ite (reads_current.bind fun _ _ => .fail _) (.pure trivial)

/-- A name that is read is a token. -/
theorem reads_name : Reads T name fun n => T (.name n.text) := by
  refine reads_current.bind fun t ht => ?_
  split
  · next s hs => exact takes_advance.bind fun _ _ => .pure (hs ▸ ht)
  · exact .fail _

/-- A name that was read was the token at the head. -/
theorem kind_of_name {c c' : Cursor} {n : Name} (h : name c = .ok (n, c')) :
    c.head.kind = .name n.text := by
  obtain ⟨t, c₁, ht, h⟩ := bind_eq_ok_iff.1 h
  obtain ⟨hhead, rfl⟩ : c.head = t ∧ c = c₁ := Prod.mk.inj (Except.ok.inj ht)
  rw [hhead]
  cases hk : t.kind with
  | name s =>
    rw [hk] at h
    obtain ⟨_, _, -, h⟩ := bind_eq_ok_iff.1 h
    cases h
    rfl
  | _ =>
    rw [hk] at h
    cases h

/-! ## Repetition -/

section Repetition

variable {item : Parser α} (hitem : Reads T item P)
include hitem

/-- What is read in so many rounds at most, item by item, has the property of the items. -/
theorem reads_repeatWhile {more : Parser Bool} (hmore : Takes T more) (rounds : Nat) :
    Reads T (repeatWhile more item rounds) fun as => ∀ a ∈ as, P a := by
  induction rounds with
  | zero => exact .pure (by simp)
  | succ rounds ih =>
    refine hmore.bind fun _ _ => .ite ?_ (.pure (by simp))
    exact hitem.bind fun a ha => ih.bind fun as has => .pure (List.forall_mem_cons.2 ⟨ha, has⟩)

/-- What is read item by item has the property of the items. -/
theorem reads_repeated {more : Parser Bool} (hmore : Takes T more) :
    Reads T (repeated more item) fun as => ∀ a ∈ as, P a :=
  reads_get.bind fun _ _ => reads_repeatWhile hitem hmore _

/-- Items up to a closing mark. -/
theorem reads_itemsUntil (close : Mark) :
    Reads T (itemsUntil close item) fun as => ∀ a ∈ as, P a :=
  reads_repeated hitem ((takes_optMark close).bind fun _ _ => .pure trivial)

/-- Items between two marks, none of them if there are none. -/
theorem reads_anyBetween (op close : Mark) :
    Reads T (anyBetween op item close) fun as => ∀ a ∈ as, P a :=
  (takes_expectMark op).bind fun _ _ => reads_itemsUntil hitem close

/-- At least one item up to a closing mark. -/
theorem reads_someUntil (close : Mark) :
    Reads T (someUntil close item) fun as => as ≠ [] ∧ ∀ a ∈ as, P a :=
  hitem.bind fun _ ha => (reads_itemsUntil hitem close).bind fun _ has =>
    .pure ⟨List.cons_ne_nil _ _, List.forall_mem_cons.2 ⟨ha, has⟩⟩

/-- At least one item between two marks. -/
theorem reads_someBetween (op close : Mark) :
    Reads T (someBetween op item close) fun as => as ≠ [] ∧ ∀ a ∈ as, P a :=
  (takes_expectMark op).bind fun _ _ => reads_someUntil hitem close

/-- At least one item between two marks, or nothing at all. -/
theorem reads_optBetween (op close : Mark) :
    Reads T (optBetween op item close) fun as => ∀ a ∈ as, P a :=
  (takes_optMark op).bind fun _ _ =>
    .ite ((reads_someUntil hitem close).mono fun _ h => h.2) (.pure (by simp))

/-- At least one item, with a mark between any two. -/
theorem reads_separatedBy (mark : Mark) :
    Reads T (separatedBy mark item) fun as => as ≠ [] ∧ ∀ a ∈ as, P a :=
  (takes_optMark mark).bind fun _ _ => hitem.bind fun _ ha =>
    (reads_repeated hitem (takes_optMark mark)).bind fun _ has =>
      .pure ⟨List.cons_ne_nil _ _, List.forall_mem_cons.2 ⟨ha, has⟩⟩

end Repetition

end Parser

end RelationApi.Sdl

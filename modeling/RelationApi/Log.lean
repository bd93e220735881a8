import RelationApi.Settings.Key

/-!
# Logs

What a run reports while it goes on (`Event`), and the computations that report (`Run`) : a run has
a log and ends with a result or a failure. The log of a run that fails holds what was reported
before.
-/

namespace RelationApi

/-- How much an event matters. -/
inductive Level where
  | debug
  | warning
deriving DecidableEq

/-- The word for the level. -/
def Level.word : Level → String
  | debug => "DEBUG"
  | warning => "WARNING"

/-- What a run reports. -/
inductive Event where
  | found (count : Nat)
  | noMutationRoot (type field : String)
  | disabled (fromType toType relationship : String)
  | fieldExists (mutation : String)
  | generated (mutation relationship : String)
  | replaced (type : String)
  | extensionWithoutBase (type : String)
  | unknownSettings (keys : List Key)
  | initialized
deriving DecidableEq

namespace Event

/-- How much the event matters. -/
def level : Event → Level
  | replaced _ | extensionWithoutBase _ | unknownSettings _ => .warning
  | found _ | noMutationRoot _ _ | disabled _ _ _ | fieldExists _ | generated _ _ | initialized =>
    .debug

/-- The wording of the event. -/
def message : Event → String
  | found n => "Found " ++ toString n ++ " relationship fields to augment"
  | noMutationRoot t f =>
    "No Mutation type, skipping relationship mutations for " ++ t ++ "." ++ f
  | disabled f t r => "Mutations disabled for " ++ f ++ " -> " ++ t ++ ", skipping " ++ r
  | fieldExists m => "Mutation field " ++ m ++ " already exists, skipping"
  | generated m r => "Generated " ++ m ++ " for relationship " ++ r
  | replaced t => "Generated type " ++ t ++ " replaced with a different definition"
  | extensionWithoutBase t =>
    "extend type " ++ t ++ " has no base definition, its fields are not augmented"
  | unknownSettings keys => "Ignoring unknown augmentation settings: " ++ Key.displayAll keys
  | initialized => "graph-augment initialized"

end Event

/-- A computation that reports events and ends with a result or a failure. -/
@[ext]
structure Run (ε α : Type) where
  log : List Event
  result : Except ε α

namespace Run

variable {ε α β : Type}

/-- The run that ends at once. -/
def ofExcept (x : Except ε α) : Run ε α := ⟨[], x⟩

/-- The run that fails at once. -/
def fail (e : ε) : Run ε α := ⟨[], .error e⟩

/-- The run that reports one event. -/
def emit (e : Event) : Run ε Unit := ⟨[e], .ok ()⟩

/-- The run that reports events, in order. -/
def emitAll (es : List Event) : Run ε Unit := ⟨es, .ok ()⟩

/-- The run that goes on with the result of another; a failure ends it. -/
def andThen (x : Run ε α) (f : α → Run ε β) : Run ε β :=
  match x.result with
  | .error e => ⟨x.log, .error e⟩
  | .ok a => ⟨x.log ++ (f a).log, (f a).result⟩

instance : Monad (Run ε) where
  pure a := ⟨[], .ok a⟩
  bind := andThen

/-- The run with another kind of failure. -/
def mapFault {ε' : Type} (f : ε → ε') (x : Run ε α) : Run ε' α :=
  ⟨x.log, x.result.mapError f⟩

/-! ## The log and the result of a run -/

@[simp] theorem log_pure (a : α) : (pure a : Run ε α).log = [] := rfl

@[simp] theorem result_pure (a : α) : (pure a : Run ε α).result = .ok a := rfl

@[simp] theorem log_emit (e : Event) : (emit e : Run ε Unit).log = [e] := rfl

@[simp] theorem result_emit (e : Event) : (emit e : Run ε Unit).result = .ok () := rfl

@[simp] theorem log_ofExcept (x : Except ε α) : (ofExcept x).log = [] := rfl

@[simp] theorem result_ofExcept (x : Except ε α) : (ofExcept x).result = x := rfl

theorem bind_def (x : Run ε α) (f : α → Run ε β) : x >>= f = x.andThen f := rfl

/-- The result of a run in two parts is that of the second part, run on the result of the first. -/
@[simp] theorem result_bind (x : Run ε α) (f : α → Run ε β) :
    (x >>= f).result = x.result >>= fun a => (f a).result := by
  rw [bind_def, andThen]
  rcases x.result with _ | _ <;> rfl

/-- The second part of a run reports after the first, if it is reached. -/
theorem log_bind (x : Run ε α) (f : α → Run ε β) :
    (x >>= f).log = x.log ++ (x.result.toOption.map fun a => (f a).log).getD [] := by
  rw [bind_def, andThen]
  rcases x.result with _ | _ <;> simp [Except.toOption]

/-- A run in two parts reports what its parts report. -/
theorem mem_log_bind {x : Run ε α} {f : α → Run ε β} {e : Event} :
    e ∈ (x >>= f).log ↔ e ∈ x.log ∨ ∃ a, x.result = .ok a ∧ e ∈ (f a).log := by
  rw [log_bind, List.mem_append]
  rcases x.result with _ | a <;> simp [Except.toOption]

theorem bind_of_ok {x : Run ε α} {a : α} (h : x.result = .ok a) (f : α → Run ε β) :
    x >>= f = ⟨x.log ++ (f a).log, (f a).result⟩ := by
  simp [bind_def, andThen, h]

theorem bind_of_error {x : Run ε α} {e : ε} (h : x.result = .error e) (f : α → Run ε β) :
    x >>= f = ⟨x.log, .error e⟩ := by
  simp [bind_def, andThen, h]

/-- A run in two parts succeeds exactly when both parts do. -/
theorem result_bind_eq_ok_iff {x : Run ε α} {f : α → Run ε β} {b : β} :
    (x >>= f).result = .ok b ↔ ∃ a, x.result = .ok a ∧ (f a).result = .ok b := by
  rcases h : x.result with _ | a
  · simp [bind_of_error h]
  · simp [bind_of_ok h]

/-- A run in two parts fails where its first part fails, or else its second. -/
theorem result_bind_eq_error_iff {x : Run ε α} {f : α → Run ε β} {e : ε} :
    (x >>= f).result = .error e ↔
      x.result = .error e ∨ ∃ a, x.result = .ok a ∧ (f a).result = .error e := by
  rcases h : x.result with _ | a
  · simp [bind_of_error h]
  · simp [bind_of_ok h]

instance : LawfulMonad (Run ε) :=
  LawfulMonad.mk' (Run ε)
    (fun x => by
      change x.andThen (fun a => pure a) = x
      rcases x with ⟨log, _ | a⟩ <;> simp [andThen])
    (fun a f => by
      change (pure a : Run ε _).andThen f = f a
      simp [andThen])
    (fun x f g => by
      rcases hx : x.result with e | a
      · simp [bind_of_error hx, bind_of_error]
      · rcases hf : (f a).result with e | b <;> simp [bind_def, andThen, hx, hf])

end Run

end RelationApi

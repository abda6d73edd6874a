/-!
# Logged computations

Operations of the library may fail, and they report noteworthy events on the way, failing or not.
A logged computation is its result together with the events in the order in which they arose. The
result of a sequence depends on the results of its steps alone (`result_bind`).
-/

namespace EntityModel

/-- How important an event is. -/
inductive Level where
  | debug
  | info
  | warn
  | error
deriving DecidableEq, Repr

/-- The word for a level. -/
def Level.word : Level → String
  | .debug => "DEBUG"
  | .info => "INFO"
  | .warn => "WARN"
  | .error => "ERROR"

/-- Something reported during an operation. -/
structure Event where
  level : Level
  message : String
deriving DecidableEq, Repr

/-- A result and the events on the way to it. -/
structure Logged (ε α : Type) where
  result : Except ε α
  events : List Event := []

namespace Logged

variable {ε ε' α β : Type}

/-- Fail without an event. -/
def fail (e : ε) : Logged ε α :=
  ⟨.error e, []⟩

/-- Report an event. -/
def report (level : Level) (message : String) : Logged ε Unit :=
  ⟨.ok (), [⟨level, message⟩]⟩

/-- A result without events. -/
def ofExcept (r : Except ε α) : Logged ε α :=
  ⟨r, []⟩

/-- Run a second computation on the value of the first; a failure ends the sequence. -/
def bind (x : Logged ε α) (f : α → Logged ε β) : Logged ε β :=
  match x.result with
  | .ok a => ⟨(f a).result, x.events ++ (f a).events⟩
  | .error e => ⟨.error e, x.events⟩

/-- Change the failure of a computation. -/
def mapError (g : ε → ε') (x : Logged ε α) : Logged ε' α :=
  ⟨x.result.mapError g, x.events⟩

instance : Monad (Logged ε) where
  pure a := ⟨.ok a, []⟩
  bind := bind

/-! ### Results -/

@[simp] theorem result_pure (a : α) : (pure a : Logged ε α).result = .ok a := rfl

@[simp] theorem result_fail (e : ε) : (fail e : Logged ε α).result = .error e := rfl

@[simp] theorem result_report (l : Level) (m : String) :
    (report l m : Logged ε Unit).result = .ok () := rfl

@[simp] theorem result_ofExcept (r : Except ε α) : (ofExcept r).result = r := rfl

@[simp] theorem result_mapError (g : ε → ε') (x : Logged ε α) :
    (x.mapError g).result = x.result.mapError g := rfl

theorem result_bind (x : Logged ε α) (f : α → Logged ε β) :
    (x >>= f).result = x.result.bind fun a => (f a).result := by
  change (bind x f).result = _
  unfold bind
  cases x.result <;> rfl

theorem result_bind_of_ok {x : Logged ε α} {a : α} (h : x.result = .ok a) (f : α → Logged ε β) :
    (x >>= f).result = (f a).result := by
  rw [result_bind, h]; rfl

theorem result_bind_of_error {x : Logged ε α} {e : ε} (h : x.result = .error e)
    (f : α → Logged ε β) : (x >>= f).result = .error e := by
  rw [result_bind, h]; rfl

theorem result_bind_eq_ok_iff {x : Logged ε α} {f : α → Logged ε β} {b : β} :
    (x >>= f).result = .ok b ↔ ∃ a, x.result = .ok a ∧ (f a).result = .ok b := by
  rw [result_bind]
  cases x.result <;> simp [Except.bind]

/-! ### Lists -/

/-- Run a computation on each member of a list, in order, until one fails. -/
def mapList (f : α → Logged ε β) : List α → Logged ε (List β)
  | [] => pure []
  | a :: as => do
    let b ← f a
    let bs ← mapList f as
    pure (b :: bs)

/-- Run a step with a state for each member of a list, in order, until one fails. -/
def foldList (f : β → α → Logged ε β) : β → List α → Logged ε β
  | b, [] => pure b
  | b, a :: as => do
    let b ← f b a
    foldList f b as

end Logged

end EntityModel

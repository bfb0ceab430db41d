import Mathlib

/-!
# Operations that may crash between persistent steps

An operation reads and changes a world.  Its persistent steps are counted: it
is given the number of persistent steps the process still lives for, and when
it needs one more it ends there, with the world as the steps before left it.

A triple says what holds when the operation returns and what holds when it
crashes, for every number of steps the process may live.
-/

namespace Sitos.Crash

variable {World Value Result : Type}

/-- The remaining lifetime and the world in; the value with the lifetime left,
or `none` for a crash, and the world out. -/
def Op (World Value : Type) := ℕ → World → Option (Value × ℕ) × World

namespace Op

def pure (value : Value) : Op World Value := fun lifetime world => (some (value, lifetime), world)

def bind (op : Op World Value) (next : Value → Op World Result) : Op World Result :=
  fun lifetime world =>
    match op lifetime world with
    | (none, world) => (none, world)
    | (some (value, lifetime), world) => next value lifetime world

instance : Monad (Op World) where
  pure := Op.pure
  bind := Op.bind

def read : Op World World := fun lifetime world => (some (world, lifetime), world)

/-- A change that a crash loses or that costs no lifetime. -/
def update (change : World → World) : Op World Unit :=
  fun lifetime world => (some ((), lifetime), change world)

/-- One persistent step, made entirely or not at all. -/
def persist (change : World → World) : Op World Unit
  | 0, world => (none, world)
  | lifetime + 1, world => (some ((), lifetime), change world)

@[simp]
theorem read_bind (next : World → Op World Result) (lifetime : ℕ) (world : World) :
    (read >>= next) lifetime world = next world lifetime world := rfl

@[simp]
theorem pure_apply (value : Value) (lifetime : ℕ) (world : World) :
    (Pure.pure value : Op World Value) lifetime world = (some (value, lifetime), world) := rfl

end Op

/-- From `Before`, the operation returns in `After` or crashes in `Crashed`. -/
def Meets (Before : World → Prop) (op : Op World Value) (After : Value → World → Prop)
    (Crashed : World → Prop) : Prop :=
  ∀ lifetime world, Before world →
    match op lifetime world with
    | (some (value, _), next) => After value next
    | (none, next) => Crashed next

namespace Meets

variable {Before : World → Prop} {After : Value → World → Prop} {Crashed : World → Prop}

theorem pure {value : Value} (hafter : ∀ world, Before world → After value world) :
    Meets Before (Pure.pure value) After Crashed :=
  fun _ world hbefore => hafter world hbefore

theorem bind {op : Op World Value} {next : Value → Op World Result}
    {Middle : Value → World → Prop} {After : Result → World → Prop}
    (hop : Meets Before op Middle Crashed)
    (hnext : ∀ value, Meets (Middle value) (next value) After Crashed) :
    Meets Before (op >>= next) After Crashed := by
  intro lifetime world hbefore
  have hmiddle := hop lifetime world hbefore
  simp only [Bind.bind, Op.bind]
  cases hresult : op lifetime world with
  | mk result middle =>
      rw [hresult] at hmiddle
      cases result with
      | none => exact hmiddle
      | some pair => exact hnext pair.1 pair.2 middle hmiddle

/-- What is read is the world itself. -/
theorem readSame {next : World → Op World Result} {After : Result → World → Prop}
    (hnext : ∀ value, Before value → Meets (· = value) (next value) After Crashed) :
    Meets Before (Op.read >>= next) After Crashed :=
  fun lifetime world hbefore => hnext world hbefore lifetime world rfl

/-- What is read met the precondition. -/
theorem read {next : World → Op World Result} {After : Result → World → Prop}
    (hnext : ∀ value, Before value → Meets Before (next value) After Crashed) :
    Meets Before (Op.read >>= next) After Crashed :=
  fun lifetime world hbefore => hnext world hbefore lifetime world hbefore

theorem update {change : World → World} {After : Unit → World → Prop}
    (hafter : ∀ world, Before world → After () (change world)) :
    Meets Before (Op.update change) After Crashed :=
  fun _ world hbefore => hafter world hbefore

theorem persist {change : World → World} {After : Unit → World → Prop}
    (hcrash : ∀ world, Before world → Crashed world)
    (hafter : ∀ world, Before world → After () (change world)) :
    Meets Before (Op.persist change) After Crashed := by
  intro lifetime world hbefore
  cases lifetime with
  | zero => exact hcrash world hbefore
  | succ lifetime => exact hafter world hbefore

theorem conditional {condition : Prop} [Decidable condition] {first second : Op World Value}
    (hfirst : condition → Meets Before first After Crashed)
    (hsecond : ¬condition → Meets Before second After Crashed) :
    Meets Before (if condition then first else second) After Crashed := by
  by_cases hcondition : condition
  · rw [if_pos hcondition]
    exact hfirst hcondition
  · rw [if_neg hcondition]
    exact hsecond hcondition

theorem before {Before' : World → Prop} {op : Op World Value}
    (hop : Meets Before' op After Crashed) (hbefore : ∀ world, Before world → Before' world) :
    Meets Before op After Crashed :=
  fun lifetime world h => hop lifetime world (hbefore world h)

theorem after {After' : Value → World → Prop} {op : Op World Value}
    (hop : Meets Before op After' Crashed)
    (hafter : ∀ value world, After' value world → After value world) :
    Meets Before op After Crashed := by
  intro lifetime world h
  have hresult := hop lifetime world h
  revert hresult
  cases op lifetime world with
  | mk result next =>
      cases result with
      | none => exact id
      | some pair => exact hafter pair.1 next

/-- The part of a precondition that does not mention the world. -/
theorem fact {Fact : Prop} {op : Op World Value}
    (hop : Fact → Meets Before op After Crashed) :
    Meets (fun world => Fact ∧ Before world) op After Crashed :=
  fun lifetime world h => hop h.1 lifetime world h.2

theorem choose {Choice : Type} {Before : Choice → World → Prop} {op : Op World Value}
    (hop : ∀ choice, Meets (Before choice) op After Crashed) :
    Meets (fun world => ∃ choice, Before choice world) op After Crashed := by
  rintro lifetime world ⟨choice, h⟩
  exact hop choice lifetime world h

/-- Some world meets the precondition, or there is nothing to show. -/
theorem assuming {op : Op World Value}
    (hop : ∀ world, Before world → Meets Before op After Crashed) :
    Meets Before op After Crashed :=
  fun lifetime world h => hop world h lifetime world h

end Meets

end Sitos.Crash

import Sitos.Core.Machine
import Sitos.Core.Tasks

/-!
# The dispatch lane

Subscribers of one transport share a lane.  A callback enters it under the admission mutex, after
its subscriber has prepared for it, takes a ticket and waits for its turn; it leaves the lane when
its entry is released.  A subscriber that closes its registration waits for its own entries.

Every block that takes one of the three mutexes is a step, and the callbacks of a dispatch are
steps of their own.  Entries are objects that are moved about; an entry that was moved from
releases nothing.
-/

namespace Sitos.Dispatch

open Sitos.Tasks

structure Lane where
  capacity : UInt64
  nextTicket : UInt64
  servingTicket : UInt64
  admitted : UInt64
  accepting : Bool
  deriving DecidableEq

/-- A lease that was moved from is detached from its lane.  The last fields note which call it was
given to, and whether its turn has come. -/
structure Lease where
  attached : Bool
  ticket : UInt64
  call : ℕ
  turn : Bool
  deriving DecidableEq

namespace Lane

def hasCapacity (lane : Lane) : Bool :=
  lane.accepting && lane.admitted < lane.capacity

def tryEnter (lane : Lane) : Option (Lane × UInt64) :=
  if !lane.accepting ∨ lane.admitted = lane.capacity then none
  else
    some
      ({ lane with nextTicket := lane.nextTicket + 1, admitted := lane.admitted + 1 },
        lane.nextTicket)

def release (lane : Lane) : Lane :=
  { lane with servingTicket := lane.servingTicket + 1, admitted := lane.admitted - 1 }

end Lane

structure RegistrationState where
  accepting : Bool
  admitted : ℕ
  deriving DecidableEq

structure Entry where
  lease : Option Lease
  registration : Option ℕ
  deriving DecidableEq

namespace Entry

def empty : Entry := ⟨none, none⟩

/-- What is left of an entry that was moved from. -/
def movedFrom (entry : Entry) : Entry where
  lease := entry.lease.map fun lease => { lease with attached := false }
  registration := none

end Entry

inductive Outcome where
  | admitted
  | rejected
  | overflow
  | closed
  deriving DecidableEq, Repr

/-- Registrations are numbered in the order they are made, and so are the objects that entries
live in. -/
structure Shared where
  lane : Lane
  admission : Bool
  registered : ℕ
  registrations : ℕ → RegistrationState
  entries : ℕ → Entry

/-- The next block of a call. -/
inductive Task where
  | idle
  -- Dispatch
  | dispatch (registration : ℕ)
  | checkAccepting (registration : ℕ)
  | checkCapacity (registration : ℕ)
  | overflow (registration : ℕ)
  | prepare (registration : ℕ)
  | tryEnter (registration : ℕ)
  | count (registration : ℕ) (ticket : UInt64)
  | returned (registration : Option ℕ) (outcome : Outcome)
  | threw (registration : ℕ)
  -- CloseAndWait
  | close (registration : ℕ)
  | closeWait (registration : ℕ)
  | closed (registration : Option ℕ)
  deriving DecidableEq

/-- How a callback ends; one that is not there accepts. -/
inductive Callback where
  | returned (accepted : Bool)
  | threw
  deriving DecidableEq

/-- What a block finds outside itself: how its callback ends, and the object that the entry is
returned in. -/
structure Choice where
  callback : Callback
  object : ℕ

namespace Shared

def setRegistration (shared : Shared) (registration : ℕ) (state : RegistrationState) : Shared :=
  { shared with registrations := Function.update shared.registrations registration state }

def setEntry (shared : Shared) (object : ℕ) (entry : Entry) : Shared :=
  { shared with entries := Function.update shared.entries object entry }

end Shared

def dispatchBlock (shared : Shared) (call : ℕ) (choice : Choice) :
    Task → Option (Shared × Task)
  | .dispatch registration =>
      if shared.admission then none
      else some ({ shared with admission := true }, .checkAccepting registration)
  | .checkAccepting registration =>
      if (shared.registrations registration).accepting then
        some (shared, .checkCapacity registration)
      else some ({ shared with admission := false }, .returned registration .closed)
  | .checkCapacity registration =>
      if shared.lane.hasCapacity then some (shared, .prepare registration)
      else some (shared, .overflow registration)
  | .overflow registration =>
      some ({ shared with admission := false },
        match choice.callback with
        | .returned _ => .returned registration .overflow
        | .threw => .threw registration)
  | .prepare registration =>
      match choice.callback with
      | .returned true => some (shared, .tryEnter registration)
      | .returned false =>
          some ({ shared with admission := false }, .returned registration .rejected)
      | .threw => some ({ shared with admission := false }, .threw registration)
  | .tryEnter registration =>
      match shared.lane.tryEnter with
      | none => some ({ shared with admission := false }, .returned registration .overflow)
      | some (lane, ticket) => some ({ shared with lane }, .count registration ticket)
  | .count registration ticket =>
      if shared.entries choice.object ≠ .empty then none
      else
        let state := shared.registrations registration
        let entry : Entry := ⟨some ⟨true, ticket, call, false⟩, some registration⟩
        some
          ({ (shared.setRegistration registration { state with admitted := state.admitted + 1 })
                |>.setEntry choice.object entry with
              admission := false },
            .returned registration .admitted)
  | _ => none

def closeBlock (shared : Shared) : Task → Option (Shared × Task)
  | .close registration =>
      if shared.admission then none
      else
        some
          (shared.setRegistration registration
            { shared.registrations registration with accepting := false },
            .closeWait registration)
  | .closeWait registration =>
      if (shared.registrations registration).admitted = 0 then
        some (shared, .closed registration)
      else none
  | _ => none

/-! ## Entries -/

/-- `WaitTurn` returns: at once when there is nothing to wait for. -/
def waitTurn (shared : Shared) (object : ℕ) : Option Shared :=
  match (shared.entries object).lease with
  | none => some shared
  | some lease =>
      if !lease.attached then some shared
      else if lease.ticket = shared.lane.servingTicket then
        some (shared.setEntry object
          { shared.entries object with lease := some { lease with turn := true } })
      else none

/-- The first half of `Release`, by which the lease goes.  Nobody releases an admitted entry whose
turn has not come. -/
def releaseLease (shared : Shared) (object : ℕ) : Option Shared :=
  let entry := shared.entries object
  match entry.lease with
  | none => some shared
  | some lease =>
      if !lease.attached then some (shared.setEntry object { entry with lease := none })
      else if lease.turn then
        some { shared.setEntry object { entry with lease := none } with
          lane := shared.lane.release }
      else none

/-- The second half, by which the registration is told. -/
def releaseRegistration (shared : Shared) (object : ℕ) : Option Shared :=
  let entry := shared.entries object
  match entry.lease, entry.registration with
  | none, some registration =>
      let state := shared.registrations registration
      some ((shared.setRegistration registration { state with admitted := state.admitted - 1 })
        |>.setEntry object .empty)
  | _, _ => none

/-- A move into an object that holds nothing; a move assignment has released it before.  An entry
is not moved in the middle of its own release. -/
def move (shared : Shared) (target source : ℕ) : Option Shared :=
  let entry := shared.entries source
  if shared.entries target ≠ .empty ∨ target = source ∨
      (entry.lease = none ∧ entry.registration ≠ none) then none
  else some ((shared.setEntry target entry).setEntry source entry.movedFrom)

/-! ## Runs -/

inductive Action where
  | register
  | dispatch (call : ℕ) (registration : Option ℕ)
  | closeAndWait (call : ℕ) (registration : Option ℕ)
  | block (call : ℕ) (choice : Choice)
  | waitTurn (object : ℕ)
  | releaseLease (object : ℕ)
  | releaseRegistration (object : ℕ)
  | move (target source : ℕ)

abbrev State := Config Shared Task

/-- A registration that was default constructed has no state. -/
def enter (shared : Shared) (registration : Option ℕ) (task : ℕ → Task) (left : Task) :
    Option (Shared × Task) :=
  match registration with
  | none => some (shared, left)
  | some registration =>
      if registration < shared.registered then some (shared, task registration) else none

def block (shared : Shared) (call : ℕ) (choice : Choice) (task : Task) : Option (Shared × Task) :=
  dispatchBlock shared call choice task <|> closeBlock shared task

def start (capacity : UInt64) : State where
  shared :=
    { lane := ⟨capacity, 0, 0, 0, true⟩, admission := false, registered := 0,
      registrations := fun _ => ⟨true, 0⟩, entries := fun _ => .empty }
  tasks := fun _ => .idle

def step (state : State) : Action → Option State
  | .register =>
      some { state with shared := { state.shared with registered := state.shared.registered + 1 } }
  | .dispatch call registration =>
      match state.tasks call with
      | .idle =>
          (enter state.shared registration .dispatch (.returned none .closed)).map
            fun (shared, next) => state.replace call shared next
      | _ => none
  | .closeAndWait call registration =>
      match state.tasks call with
      | .idle =>
          (enter state.shared registration .close (.closed none)).map
            fun (shared, next) => state.replace call shared next
      | _ => none
  | .block call choice =>
      (block state.shared call choice (state.tasks call)).map fun (shared, next) =>
        state.replace call shared next
  | .waitTurn object => (waitTurn state.shared object).map fun shared => { state with shared }
  | .releaseLease object =>
      (releaseLease state.shared object).map fun shared => { state with shared }
  | .releaseRegistration object =>
      (releaseRegistration state.shared object).map fun shared => { state with shared }
  | .move target source => (move state.shared target source).map fun shared => { state with shared }

end Sitos.Dispatch

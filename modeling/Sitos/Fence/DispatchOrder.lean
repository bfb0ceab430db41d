import Sitos.Core.Turns
import Sitos.Fence.Dispatch

/-!
# The order of the dispatch lane

What a run lets be seen is a log: which calls prepared, entered the lane, began and ended, and
which registrations were closed.  The counters of the lane are lengths of its lists, taken modulo
the width of a ticket, and whoever holds a lease knows its place in them.
-/

namespace Sitos.Dispatch

open Sitos.Machine
open Sitos.Tasks
open Sitos.Turns

inductive Event where
  | preparing (call : ℕ)
  | overflowing (call : ℕ)
  | prepared (call : ℕ)
  | admitted (call registration : ℕ) (ticket : UInt64)
  | began (call : ℕ)
  | ended (call : ℕ)
  | closing (registration : ℕ)
  | closed (registration : ℕ)
  deriving DecidableEq

def eventsOf (shared : Shared) (call : ℕ) (choice : Choice) : Task → List Event
  | .checkCapacity _ =>
      if shared.lane.hasCapacity then [.preparing call] else [.overflowing call]
  | .prepare _ => if choice.callback = .returned true then [.prepared call] else []
  | .tryEnter registration =>
      match shared.lane.tryEnter with
      | none => []
      | some (_, ticket) => [.admitted call registration ticket]
  | .close registration => [.closing registration]
  | .closeWait registration => [.closed registration]
  | _ => []

/-- A turn begins with the first `WaitTurn` that returns and ends with the release of the lease. -/
def emits (state : State) : Action → List Event
  | .block call choice => eventsOf state.shared call choice (state.tasks call)
  | .waitTurn object =>
      match (state.shared.entries object).lease with
      | some lease => if lease.attached && !lease.turn then [.began lease.call] else []
      | none => []
  | .releaseLease object =>
      match (state.shared.entries object).lease with
      | some lease => if lease.attached then [.ended lease.call] else []
      | none => []
  | _ => []

/-! ## The lists of a log -/

namespace Event

def prepares : Event → Option ℕ
  | prepared call => some call
  | _ => none

def admits : Event → Option (ℕ × UInt64)
  | admitted call _ ticket => some (call, ticket)
  | _ => none

def begins : Event → Option ℕ
  | began call => some call
  | _ => none

def ends : Event → Option ℕ
  | ended call => some call
  | _ => none

end Event

/-- The calls whose preparation succeeded, in order. -/
def preparations (seen : List Event) : List ℕ := seen.filterMap Event.prepares

/-- The calls that entered the lane, with their tickets. -/
def admissions (seen : List Event) : List (ℕ × UInt64) := seen.filterMap Event.admits

def entered (seen : List Event) : List ℕ := (admissions seen).map Prod.fst

/-- The calls whose turn began, and those whose turn has ended. -/
def begun (seen : List Event) : List ℕ := seen.filterMap Event.begins

def ended (seen : List Event) : List ℕ := seen.filterMap Event.ends

section Lists

variable (seen events : List Event)

@[simp]
theorem preparations_append :
    preparations (seen ++ events) = preparations seen ++ preparations events :=
  List.filterMap_append

@[simp]
theorem admissions_append : admissions (seen ++ events) = admissions seen ++ admissions events :=
  List.filterMap_append

@[simp]
theorem entered_append : entered (seen ++ events) = entered seen ++ entered events := by
  simp [entered]

@[simp]
theorem begun_append : begun (seen ++ events) = begun seen ++ begun events :=
  List.filterMap_append

@[simp]
theorem ended_append : ended (seen ++ events) = ended seen ++ ended events :=
  List.filterMap_append

variable (event : Event)

@[simp]
theorem preparations_singleton : preparations [event] = event.prepares.toList := by
  cases hevent : event.prepares with
  | _ => simp [preparations, hevent]

@[simp]
theorem admissions_singleton : admissions [event] = event.admits.toList := by
  cases hevent : event.admits with
  | _ => simp [admissions, hevent]

@[simp]
theorem begun_singleton : begun [event] = event.begins.toList := by
  cases hevent : event.begins with
  | _ => simp [begun, hevent]

@[simp]
theorem ended_singleton : ended [event] = event.ends.toList := by
  cases hevent : event.ends with
  | _ => simp [ended, hevent]

end Lists

/-! ## The lane -/

/-- The counters of the lane are the lengths of the lists. -/
structure Counts (capacity : UInt64) (seen : List Event) (lane : Lane) : Prop where
  limit : lane.capacity = capacity
  accepting : lane.accepting = true
  next : lane.nextTicket = UInt64.ofNat (admissions seen).length
  serving : lane.servingTicket = UInt64.ofNat (ended seen).length
  admitted : lane.admitted.toNat + (ended seen).length = (admissions seen).length
  room : lane.admitted ≤ lane.capacity
  tickets : ∀ index admission, (admissions seen)[index]? = some admission →
    admission.2 = UInt64.ofNat index
  turns : InTurn (entered seen) (begun seen) (ended seen)
  distinct : (entered seen).Nodup

namespace Counts

variable {capacity : UInt64} {seen : List Event} {lane lane' : Lane} {call registration : ℕ}
  {ticket : UInt64}

theorem length_entered (seen : List Event) : (entered seen).length = (admissions seen).length :=
  List.length_map _

/-- Events that are not of the lane. -/
theorem quiet (hcounts : Counts capacity seen lane) {events : List Event}
    (hadmissions : admissions events = []) (hbegun : begun events = [])
    (hended : ended events = []) : Counts capacity (seen ++ events) lane := by
  have hentered : entered events = [] := by rw [entered, hadmissions, List.map_nil]
  refine ⟨hcounts.limit, hcounts.accepting, ?_, ?_, ?_, hcounts.room, ?_, ?_, ?_⟩
  · simpa [hadmissions] using hcounts.next
  · simpa [hended] using hcounts.serving
  · simpa [hended, hadmissions] using hcounts.admitted
  · simpa only [admissions_append, hadmissions, List.append_nil] using hcounts.tickets
  · simpa [hentered, hbegun, hended] using hcounts.turns
  · simpa [hentered] using hcounts.distinct

theorem difference (hcounts : Counts capacity seen lane) :
    lane.nextTicket - lane.servingTicket = lane.admitted := by
  rw [hcounts.next, hcounts.serving, ← hcounts.admitted]
  have hsum : UInt64.ofNat (lane.admitted.toNat + (ended seen).length) =
      lane.admitted + UInt64.ofNat (ended seen).length := by
    rw [UInt64.ofNat_add, UInt64.ofNat_toNat]
  rw [hsum, UInt64.add_sub_cancel]

/-- Whoever finds the lane with room enters it, with a ticket that tells its place. -/
theorem tryEnter (hcounts : Counts capacity seen lane) (hroom : lane.admitted < lane.capacity)
    (hnew : call ∉ entered seen) :
    ∃ lane', lane.tryEnter = some (lane', lane.nextTicket) ∧
      Counts capacity (seen ++ [.admitted call registration lane.nextTicket]) lane' := by
  have hlt : lane.admitted.toNat < lane.capacity.toNat := UInt64.lt_iff_toNat_lt.mp hroom
  have hbound := lane.capacity.toNat_lt
  have hne : ¬(!lane.accepting ∨ lane.admitted = lane.capacity) := by
    rintro (hrefused | hfull)
    · simp [hcounts.accepting] at hrefused
    · rw [hfull] at hlt
      exact Nat.lt_irrefl _ hlt
  have hone : (lane.admitted + 1).toNat = lane.admitted.toNat + 1 := by
    rw [UInt64.toNat_add]
    exact Nat.mod_eq_of_lt (by simp; omega)
  refine ⟨_, if_neg hne, hcounts.limit, hcounts.accepting, ?_, ?_, ?_, ?_, ?_, ?_, ?_⟩
  · simp [Event.admits, hcounts.next, UInt64.ofNat_add]
  · simpa [Event.ends] using hcounts.serving
  · have := hcounts.admitted
    simp only [hone, ended_append, ended_singleton, Event.ends, Option.toList_none,
      List.append_nil, admissions_append, admissions_singleton, Event.admits, Option.toList_some,
      List.length_append, List.length_singleton]
    omega
  · rw [UInt64.le_iff_toNat_le, hone]
    exact hlt
  · intro index admission hindex
    rw [admissions_append] at hindex
    rcases Nat.lt_or_ge index (admissions seen).length with hold | hlast
    · rw [List.getElem?_append_left hold] at hindex
      exact hcounts.tickets index admission hindex
    · rw [List.getElem?_append_right hlast] at hindex
      have hzero : index - (admissions seen).length = 0 := by
        have := (List.getElem?_eq_some_iff.mp hindex).1
        simp only [admissions_singleton, Event.admits, Option.toList_some,
          List.length_singleton] at this
        omega
      rw [hzero, admissions_singleton] at hindex
      obtain rfl := Option.some.inj hindex
      rw [Nat.le_antisymm (Nat.sub_eq_zero_iff_le.mp hzero) hlast]
      exact hcounts.next
  · simpa [entered, Event.admits, Event.begins, Event.ends] using hcounts.turns.enter [call]
  · rw [entered_append, List.nodup_append]
    refine ⟨hcounts.distinct, List.nodup_singleton _, fun other hother item hitem => ?_⟩
    have hitem : item = call := by simpa [entered, Event.admits] using hitem
    rw [hitem]
    rintro rfl
    exact hnew hother

/-- The place of the ticket that is served. -/
theorem index_of_serving (hcounts : Counts capacity seen lane) {index : ℕ}
    (hindex : (admissions seen)[index]? = some (call, ticket))
    (hle : (ended seen).length ≤ index) (hserving : ticket = lane.servingTicket) :
    index = (ended seen).length := by
  have hlt := (List.getElem?_eq_some_iff.mp hindex).1
  have hadmitted := hcounts.admitted
  have hbound := lane.admitted.toNat_lt
  refine eq_of_ofNat_eq hle (by omega) ?_
  rw [← hcounts.serving, ← hserving]
  exact (hcounts.tickets index _ hindex).symm

theorem entered_getElem {index : ℕ} (hindex : (admissions seen)[index]? = some (call, ticket)) :
    (entered seen)[index]? = some call := by
  rw [entered, List.getElem?_map, hindex]
  rfl

/-- The turn of the call that is served begins. -/
theorem begin (hcounts : Counts capacity seen lane)
    (hindex : (admissions seen)[(ended seen).length]? = some (call, ticket))
    (hidle : (begun seen).length ≤ (ended seen).length) :
    Counts capacity (seen ++ [.began call]) lane := by
  have hsame := Nat.le_antisymm hidle hcounts.turns.length_le
  have hturns := hcounts.turns.begin hsame (entered_getElem hindex)
  refine ⟨hcounts.limit, hcounts.accepting, ?_, ?_, ?_, hcounts.room, ?_, ?_, ?_⟩
  · simpa [Event.admits] using hcounts.next
  · simpa [Event.ends] using hcounts.serving
  · simpa [Event.ends, Event.admits] using hcounts.admitted
  · simpa only [admissions_append, admissions_singleton, Event.admits, Option.toList_none,
      List.append_nil] using hcounts.tickets
  · simpa [entered, Event.admits, Event.begins, Event.ends] using hturns
  · simpa [entered, Event.admits] using hcounts.distinct

/-- It ends, and the next ticket is served. -/
theorem release (hcounts : Counts capacity seen lane)
    (hindex : (admissions seen)[(ended seen).length]? = some (call, ticket))
    (hbusy : (ended seen).length < (begun seen).length) :
    Counts capacity (seen ++ [.ended call]) lane.release := by
  have hlt := (List.getElem?_eq_some_iff.mp hindex).1
  have hadmitted := hcounts.admitted
  have hpos : (1 : UInt64).toNat ≤ lane.admitted.toNat := by
    change 1 ≤ _
    omega
  have hone : (lane.admitted - 1).toNat = lane.admitted.toNat - 1 := by
    rw [UInt64.toNat_sub_of_le _ _ (UInt64.le_iff_toNat_le.mpr hpos)]
    rfl
  have hturns := hcounts.turns.finish hbusy (entered_getElem hindex)
  refine ⟨hcounts.limit, hcounts.accepting, ?_, ?_, ?_, ?_, ?_, ?_, ?_⟩
  · simpa [Lane.release, Event.admits] using hcounts.next
  · simp [Lane.release, Event.ends, hcounts.serving, UInt64.ofNat_add]
  · simp only [Lane.release, hone, ended_append, ended_singleton, Event.ends, Option.toList_some,
      List.length_append, List.length_singleton, admissions_append, admissions_singleton,
      Event.admits, Option.toList_none, List.append_nil]
    omega
  · have hroom := UInt64.le_iff_toNat_le.mp hcounts.room
    rw [UInt64.le_iff_toNat_le]
    simp only [Lane.release, hone]
    omega
  · simpa only [admissions_append, admissions_singleton, Event.admits, Option.toList_none,
      List.append_nil] using hcounts.tickets
  · simpa [entered, Event.admits, Event.begins, Event.ends] using hturns
  · simpa [entered, Event.admits] using hcounts.distinct

end Counts

/-! ## Calls -/

namespace Task

/-- Whether the call holds the admission mutex. -/
def critical : Task → Bool
  | checkAccepting _ | checkCapacity _ | overflow _ | prepare _ | tryEnter _ | count _ _ => true
  | _ => false

/-- The registration that the call has found accepting. -/
def gate : Task → Option ℕ
  | checkCapacity registration | overflow registration | prepare registration
  | tryEnter registration | count registration _ => some registration
  | _ => none

/-- Whether the call relies on the room it has found. -/
def room : Task → Bool
  | prepare _ | tryEnter _ => true
  | _ => false

def entering : Task → Bool
  | tryEnter _ => true
  | _ => false

/-- The ticket that is not yet in an entry. -/
def ticket : Task → Option UInt64
  | count _ ticket => some ticket
  | _ => none

/-- Whether the call has entered the lane. -/
def inside : Task → Bool
  | count _ _ | returned _ .admitted => true
  | _ => false

/-- Whether the call has asked for room. -/
def checked : Task → Bool
  | overflow _ | prepare _ | tryEnter _ | count _ _ | returned _ _ | threw _ => true
  | _ => false

def awaits : Task → Option ℕ
  | closeWait registration => some registration
  | _ => none

end Task

/-- What holds of a call at the point where it stands. -/
structure At (seen : List Event) (shared : Shared) (call : ℕ) (task : Task) : Prop where
  critical : task.critical = true → shared.admission = true
  gate : ∀ registration, task.gate = some registration →
    (shared.registrations registration).accepting = true
  room : task.room = true → shared.lane.admitted < shared.lane.capacity
  ticket : ∀ ticket, task.ticket = some ticket →
    ∃ index, (admissions seen)[index]? = some (call, ticket) ∧ (begun seen).length ≤ index
  awaits : ∀ registration, task.awaits = some registration →
    (shared.registrations registration).accepting = false
  prepared : call ∈ preparations seen → task.entering = true ∨ task.inside = true
  inside : call ∈ entered seen → task.inside = true
  checked : .preparing call ∈ seen ∨ .overflowing call ∈ seen → task.checked = true

/-- The lease of an object knows its place among the admissions. -/
structure Held (seen : List Event) (state : State) (lease : Lease) (registration : Option ℕ)
    (index : ℕ) : Prop where
  place : (admissions seen)[index]? = some (lease.call, lease.ticket)
  left : (ended seen).length ≤ index
  turn : lease.turn = true ↔ index < (begun seen).length
  owner : registration.isSome = true ∧
    state.tasks lease.call = .returned registration .admitted

structure Ordered (capacity : UInt64) (seen : List Event) (state : State) : Prop where
  counts : Counts capacity seen state.shared.lane
  call : ∀ call, At seen state.shared call (state.tasks call)
  alone : ∀ first second, first ≠ second → (state.tasks first).critical = true →
    (state.tasks second).critical = false
  waiting : ∀ call, (state.tasks call).entering = true →
    preparations seen = entered seen ++ [call]
  settled : (∀ call, (state.tasks call).entering = false) → preparations seen = entered seen
  held : ∀ object lease, (state.shared.entries object).lease = some lease →
    lease.attached = true →
    ∃ index, Held seen state lease (state.shared.entries object).registration index
  apart : ∀ first second lease other, first ≠ second →
    (state.shared.entries first).lease = some lease → lease.attached = true →
    (state.shared.entries second).lease = some other → other.attached = true →
    lease.call ≠ other.call
  tally : ∀ registration,
    { object | (state.shared.entries object).registration = some registration }.encard =
      ((state.shared.registrations registration).admitted : ℕ∞)
  exclusive : ∀ call, .preparing call ∈ seen → .overflowing call ∉ seen
  closed : ∀ registration, .closed registration ∈ seen →
    (state.shared.registrations registration).accepting = false ∧
      (state.shared.registrations registration).admitted = 0
  closing : ∀ registration, (state.shared.registrations registration).accepting = false →
    .closing registration ∈ seen
  after : AtEach (fun before event => ∀ call registration ticket,
    event = .admitted call registration ticket → .closed registration ∉ before) seen

theorem ordered_start (capacity : UInt64) : Ordered capacity [] (start capacity) where
  counts :=
    ⟨rfl, rfl, rfl, rfl, rfl, UInt64.zero_le, fun _ _ h => by simp [admissions] at h, inTurn_nil,
      List.nodup_nil⟩
  call _ := ⟨nofun, nofun, nofun, nofun, nofun, nofun, nofun, nofun⟩
  alone := nofun
  waiting := nofun
  settled _ := rfl
  held := nofun
  apart := nofun
  tally _ := by simp [start, Entry.empty]
  exclusive := nofun
  closed := nofun
  closing := nofun
  after := atEach_nil

/-- Events that say nothing about a call. -/
structure Omits (call : ℕ) (events : List Event) : Prop where
  prepared : call ∉ preparations events
  entered : call ∉ entered events
  preparing : .preparing call ∉ events
  overflowing : .overflowing call ∉ events

section Steps

variable {capacity : UInt64} {seen events : List Event} {state : State} {shared next : Shared}
  {call caller : ℕ} {task task' : Task}

theorem omits_nil (call : ℕ) : Omits call [] := ⟨nofun, nofun, nofun, nofun⟩

/-- A call that does not move. -/
theorem At.stays (hat : At seen shared call task) (homits : Omits call events)
    (hadmission : task.critical = true → shared.admission = true → next.admission = true)
    (haccepting : ∀ registration, task.gate = some registration →
      (shared.registrations registration).accepting = true →
      (next.registrations registration).accepting = true)
    (hclosed : ∀ registration, (shared.registrations registration).accepting = false →
      (next.registrations registration).accepting = false)
    (hroom : task.room = true → shared.lane.admitted < shared.lane.capacity →
      next.lane.admitted < next.lane.capacity)
    (hbegun : ∀ ticket index, task.ticket = some ticket →
      (admissions seen)[index]? = some (call, ticket) → (begun seen).length ≤ index →
      (begun (seen ++ events)).length ≤ index) :
    At (seen ++ events) next call task where
  critical hcritical := hadmission hcritical (hat.critical hcritical)
  gate registration hgate := haccepting registration hgate (hat.gate registration hgate)
  room htask := hroom htask (hat.room htask)
  ticket ticket hticket := by
    obtain ⟨index, hindex, hle⟩ := hat.ticket ticket hticket
    refine ⟨index, ?_, hbegun ticket index hticket hindex hle⟩
    have hlt := (List.getElem?_eq_some_iff.mp hindex).1
    rw [admissions_append, List.getElem?_append_left hlt]
    exact hindex
  awaits registration hawaits := hclosed registration (hat.awaits registration hawaits)
  prepared hmem := by
    rw [preparations_append] at hmem
    exact hat.prepared ((List.mem_append.mp hmem).resolve_right homits.prepared)
  inside hmem := by
    rw [entered_append] at hmem
    exact hat.inside ((List.mem_append.mp hmem).resolve_right homits.entered)
  checked hmem := by
    rcases hmem with hmem | hmem
    · exact hat.checked (.inl ((List.mem_append.mp hmem).resolve_right homits.preparing))
    · exact hat.checked (.inr ((List.mem_append.mp hmem).resolve_right homits.overflowing))

/-! ### Objects -/

/-- Only the objects and the lane have changed. -/
theorem Ordered.objects (hordered : Ordered capacity seen state)
    (hregistrations : next.registrations = state.shared.registrations)
    (hadmission : next.admission = state.shared.admission)
    (hlane : next.lane.capacity = state.shared.lane.capacity ∧
      next.lane.admitted ≤ state.shared.lane.admitted)
    (hentries : ∀ object, (next.entries object).registration =
      (state.shared.entries object).registration)
    (hcounts : Counts capacity (seen ++ events) next.lane)
    (hevents : ∀ event ∈ events, ∃ call, event = .began call ∨ event = .ended call)
    (hbegun : ∀ call ticket index, (state.tasks call).ticket = some ticket →
      (admissions seen)[index]? = some (call, ticket) → (begun seen).length ≤ index →
      (begun (seen ++ events)).length ≤ index)
    (hheld : ∀ object lease, (next.entries object).lease = some lease → lease.attached = true →
      (∃ before, (state.shared.entries object).lease = some before ∧ before.attached = true ∧
        before.call = lease.call) ∧
      ∃ index, Held (seen ++ events) { state with shared := next } lease
        (next.entries object).registration index) :
    Ordered capacity (seen ++ events) { state with shared := next } := by
  have hnone : preparations events = [] ∧ admissions events = [] := by
    constructor
    · refine List.filterMap_eq_nil_iff.mpr fun event hmem => ?_
      obtain ⟨call, rfl | rfl⟩ := hevents event hmem
      · rfl
      · rfl
    · refine List.filterMap_eq_nil_iff.mpr fun event hmem => ?_
      obtain ⟨call, rfl | rfl⟩ := hevents event hmem
      · rfl
      · rfl
  have hentered : entered events = [] := by rw [entered, hnone.2, List.map_nil]
  have hold : ∀ event ∈ seen ++ events, (∀ call, event ≠ .began call ∧ event ≠ .ended call) →
      event ∈ seen := by
    intro event hmem hother
    rcases List.mem_append.mp hmem with hmem | hmem
    · exact hmem
    · obtain ⟨call, hevent⟩ := hevents event hmem
      exact absurd hevent (not_or.mpr (hother call))
  have homits : ∀ call, Omits call events := by
    intro call
    refine ⟨?_, ?_, fun hmem => ?_, fun hmem => ?_⟩
    · rw [hnone.1]
      exact List.not_mem_nil
    · rw [hentered]
      exact List.not_mem_nil
    · obtain ⟨other, hevent⟩ := hevents _ hmem
      exact hevent.elim nofun nofun
    · obtain ⟨other, hevent⟩ := hevents _ hmem
      exact hevent.elim nofun nofun
  refine ⟨hcounts, fun call => ?_, hordered.alone, ?_, ?_, fun object lease hlease hattached =>
    (hheld object lease hlease hattached).2, ?_, ?_, ?_, ?_, ?_, ?_⟩
  · refine (hordered.call call).stays (homits call) (fun _ h => hadmission.trans h) ?_ ?_ ?_
      fun ticket index => hbegun call ticket index
    · intro registration _ haccepting
      rw [hregistrations]
      exact haccepting
    · intro registration haccepting
      rw [hregistrations]
      exact haccepting
    · intro _ hroom
      rw [hlane.1]
      exact UInt64.lt_of_le_of_lt hlane.2 hroom
  · intro call hentering
    rw [preparations_append, entered_append, hnone.1, hentered, List.append_nil, List.append_nil]
    exact hordered.waiting call hentering
  · intro hidle
    rw [preparations_append, entered_append, hnone.1, hentered, List.append_nil, List.append_nil]
    exact hordered.settled hidle
  · intro first second lease other hne hlease hattached hother hattached'
    obtain ⟨⟨before, hbefore, hwas, hcall⟩, -⟩ := hheld first lease hlease hattached
    obtain ⟨⟨before', hbefore', hwas', hcall'⟩, -⟩ := hheld second other hother hattached'
    rw [← hcall, ← hcall']
    exact hordered.apart first second before before' hne hbefore hwas hbefore' hwas'
  · intro registration
    simp only [hentries, hregistrations]
    exact hordered.tally registration
  · intro call hpreparing hoverflowing
    exact hordered.exclusive call (hold _ hpreparing fun _ => ⟨nofun, nofun⟩)
      (hold _ hoverflowing fun _ => ⟨nofun, nofun⟩)
  · intro registration hclosed
    rw [hregistrations]
    exact hordered.closed registration (hold _ hclosed fun _ => ⟨nofun, nofun⟩)
  · intro registration haccepting
    rw [hregistrations] at haccepting
    exact List.mem_append_left _ (hordered.closing registration haccepting)
  · refine hordered.after.append fun event hmem before call registration ticket hadmitted => ?_
    obtain ⟨other, hevent⟩ := hevents event hmem
    rw [hadmitted] at hevent
    exact hevent.elim nofun nofun

/-- A held lease whose turn is not the moment's changes nothing of its place. -/
theorem Ordered.place (hordered : Ordered capacity seen state) {object : ℕ} {lease : Lease}
    {index : ℕ} {registration : Option ℕ} (hheld : Held seen state lease registration index)
    {other : ℕ} {lease' : Lease} {registration' : Option ℕ} {index' : ℕ} (hne : object ≠ other)
    (hlease : (state.shared.entries object).lease = some lease) (hattached : lease.attached = true)
    (hlease' : (state.shared.entries other).lease = some lease')
    (hattached' : lease'.attached = true)
    (hheld' : Held seen state lease' registration' index') : index' ≠ index := by
  rintro rfl
  have hsame := Option.some.inj (hheld.place.symm.trans hheld'.place)
  exact hordered.apart object other lease lease' hne hlease hattached hlease' hattached'
    (congrArg Prod.fst hsame)

theorem Ordered.begin {object : ℕ} {lease : Lease} (hordered : Ordered capacity seen state)
    (hlease : (state.shared.entries object).lease = some lease) (hattached : lease.attached = true)
    (hturn : lease.turn = false) (hserving : lease.ticket = state.shared.lane.servingTicket) :
    Ordered capacity (seen ++ [.began lease.call])
      { state with
        shared := state.shared.setEntry object
          { state.shared.entries object with lease := some { lease with turn := true } } } := by
  obtain ⟨index, hheld⟩ := hordered.held object lease hlease hattached
  obtain rfl := hordered.counts.index_of_serving hheld.place hheld.left hserving
  have hidle : (begun seen).length ≤ (ended seen).length := by
    by_contra hlt
    have := hheld.turn.mpr (Nat.lt_of_not_le hlt)
    simp [hturn] at this
  have hsame := Nat.le_antisymm hidle hordered.counts.turns.length_le
  have hbegun : (begun (seen ++ [.began lease.call])).length = (begun seen).length + 1 := by
    simp [Event.begins]
  refine hordered.objects rfl rfl ⟨rfl, UInt64.le_refl _⟩ (fun other => ?_)
    (hordered.counts.begin hheld.place hidle)
    (fun event hmem => ⟨lease.call, .inl (List.mem_singleton.mp hmem)⟩) ?_ ?_
  · by_cases hother : other = object
    · subst hother
      simp [Shared.setEntry]
    · simp [Shared.setEntry, hother]
  · intro call ticket index hticket hplace hle
    rw [hbegun]
    refine Nat.lt_of_le_of_ne hle fun hlast => ?_
    -- whoever still holds its ticket outside an entry has not returned
    rw [← hlast, hsame, hheld.place] at hplace
    have hcall : lease.call = call := congrArg Prod.fst (Option.some.inj hplace)
    have howner := hheld.owner.2
    rw [hcall] at howner
    rw [howner] at hticket
    cases hticket
  · intro other lease' hlease' hattached'
    by_cases hother : other = object
    · subst hother
      simp only [Shared.setEntry, Function.update_self] at hlease' ⊢
      obtain rfl := Option.some.inj hlease'
      refine ⟨⟨lease, hlease, hattached, rfl⟩, (ended seen).length, ?_, ?_, ?_, hheld.owner⟩
      · simpa [Event.admits] using hheld.place
      · simp [Event.ends]
      · rw [hbegun, hsame]
        simp
    · simp only [Shared.setEntry, Function.update_of_ne hother] at hlease' ⊢
      obtain ⟨index', hheld'⟩ := hordered.held other lease' hlease' hattached'
      have hne := hordered.place hheld (Ne.symm hother) hlease hattached hlease' hattached' hheld'
      refine ⟨⟨lease', hlease', hattached', rfl⟩, index', ?_, ?_, ?_, hheld'.owner⟩
      · simpa [Event.admits] using hheld'.place
      · simpa [Event.ends] using hheld'.left
      · rw [hbegun, hheld'.turn]
        omega

theorem Ordered.waitTurn {object : ℕ} (hordered : Ordered capacity seen state)
    (hwait : waitTurn state.shared object = some next) :
    Ordered capacity (seen ++ emits state (.waitTurn object)) { state with shared := next } := by
  unfold Dispatch.waitTurn at hwait
  cases hlease : (state.shared.entries object).lease with
  | none =>
      simp only [hlease] at hwait
      obtain rfl := Option.some.inj hwait
      simpa [emits, hlease] using hordered
  | some lease =>
      simp only [hlease] at hwait
      split_ifs at hwait with hdetached hserving
      · obtain rfl := Option.some.inj hwait
        have hdetached : lease.attached = false := by simpa using hdetached
        simpa [emits, hlease, hdetached] using hordered
      · have hattached : lease.attached = true := by simpa using hdetached
        obtain rfl := Option.some.inj hwait
        cases hturn : lease.turn with
        | true =>
            have hentry : { state.shared.entries object with
                lease := some { lease with turn := true } } = state.shared.entries object := by
              rw [← hturn, ← hlease]
            rw [hentry, Shared.setEntry, Function.update_eq_self]
            simpa [emits, hlease, hattached, hturn] using hordered
        | false =>
            have hbegin := hordered.begin hlease hattached hturn hserving
            simpa [emits, hlease, hattached, hturn] using hbegin

/-- The turn under way is over. -/
theorem Ordered.finish {object : ℕ} {lease : Lease} (hordered : Ordered capacity seen state)
    (hlease : (state.shared.entries object).lease = some lease) (hattached : lease.attached = true)
    (hturn : lease.turn = true) :
    Ordered capacity (seen ++ [.ended lease.call])
      { state with
        shared :=
          { state.shared.setEntry object { state.shared.entries object with lease := none } with
            lane := state.shared.lane.release } } := by
  obtain ⟨index, hheld⟩ := hordered.held object lease hlease hattached
  have hbusy := hheld.turn.mp hturn
  have hindex : index = (ended seen).length := by
    have := hordered.counts.turns.single
    have := hheld.left
    omega
  subst hindex
  have hended : (ended (seen ++ [.ended lease.call])).length = (ended seen).length + 1 := by
    simp [Event.ends]
  have hcounts := hordered.counts.release hheld.place hbusy
  have hpos : (1 : UInt64) ≤ state.shared.lane.admitted := by
    have hlt := (List.getElem?_eq_some_iff.mp hheld.place).1
    have := hordered.counts.admitted
    exact UInt64.le_iff_toNat_le.mpr (by change 1 ≤ _; omega)
  refine hordered.objects rfl rfl ⟨rfl, ?_⟩ (fun other => ?_) hcounts
    (fun event hmem => ⟨lease.call, .inr (List.mem_singleton.mp hmem)⟩) ?_ ?_
  · rw [UInt64.le_iff_toNat_le]
    simp only [Lane.release, UInt64.toNat_sub_of_le _ _ hpos]
    omega
  · by_cases hother : other = object
    · subst hother
      simp [Shared.setEntry]
    · simp [Shared.setEntry, hother]
  · intro call ticket index _ _ hle
    simpa [Event.begins] using hle
  · intro other lease' hlease' hattached'
    by_cases hother : other = object
    · subst hother
      simp [Shared.setEntry] at hlease'
    · simp only [Shared.setEntry, Function.update_of_ne hother] at hlease' ⊢
      obtain ⟨index', hheld'⟩ := hordered.held other lease' hlease' hattached'
      have hne := hordered.place hheld (Ne.symm hother) hlease hattached hlease' hattached' hheld'
      refine ⟨⟨lease', hlease', hattached', rfl⟩, index', ?_, ?_, ?_, hheld'.owner⟩
      · simpa [Event.admits] using hheld'.place
      · rw [hended]
        have := hheld'.left
        omega
      · simpa [Event.begins] using hheld'.turn

theorem Ordered.releaseLease {object : ℕ} (hordered : Ordered capacity seen state)
    (hrelease : releaseLease state.shared object = some next) :
    Ordered capacity (seen ++ emits state (.releaseLease object))
      { state with shared := next } := by
  unfold Dispatch.releaseLease at hrelease
  cases hlease : (state.shared.entries object).lease with
  | none =>
      simp only [hlease] at hrelease
      obtain rfl := Option.some.inj hrelease
      simpa [emits, hlease] using hordered
  | some lease =>
      simp only [hlease] at hrelease
      split_ifs at hrelease with hdetached hturn
      · obtain rfl := Option.some.inj hrelease
        have hdetached : lease.attached = false := by simpa using hdetached
        rw [show emits state (.releaseLease object) = [] by simp [emits, hlease, hdetached]]
        refine hordered.objects rfl rfl ⟨rfl, UInt64.le_refl _⟩ (fun other => ?_)
          (hordered.counts.quiet rfl rfl rfl) nofun ?_ ?_
        · by_cases hother : other = object
          · subst hother
            simp [Shared.setEntry]
          · simp [Shared.setEntry, hother]
        · intro _ _ _ _ _ hle
          simpa using hle
        · intro other lease' hlease' hattached'
          by_cases hother : other = object
          · subst hother
            simp [Shared.setEntry] at hlease'
          · simp only [Shared.setEntry, Function.update_of_ne hother] at hlease' ⊢
            obtain ⟨index', hheld'⟩ := hordered.held other lease' hlease' hattached'
            rw [List.append_nil]
            exact ⟨⟨lease', hlease', hattached', rfl⟩, index', hheld'.place, hheld'.left,
              hheld'.turn, hheld'.owner⟩
      · obtain rfl := Option.some.inj hrelease
        have hattached : lease.attached = true := by simpa using hdetached
        have hfinish := hordered.finish hlease hattached hturn
        simpa [emits, hlease, hattached] using hfinish

theorem Ordered.releaseRegistration {object : ℕ} (hordered : Ordered capacity seen state)
    (hrelease : releaseRegistration state.shared object = some next) :
    Ordered capacity seen { state with shared := next } := by
  simp only [Dispatch.releaseRegistration] at hrelease
  split at hrelease
  · rename_i registration hlease hregistration
    obtain rfl := Option.some.inj hrelease
    have haccepting : ∀ other, ((Function.update state.shared.registrations registration
        { state.shared.registrations registration with
          admitted := (state.shared.registrations registration).admitted - 1 }) other).accepting =
        (state.shared.registrations other).accepting := by
      intro other
      by_cases hother : other = registration
      · subst hother
        simp
      · simp [hother]
    have hleases : ∀ other lease, ((Function.update state.shared.entries object .empty)
        other).lease = some lease → other ≠ object ∧
        (state.shared.entries other).lease = some lease := by
      intro other lease hother
      by_cases hsame : other = object
      · subst hsame
        simp [Entry.empty] at hother
      · rw [Function.update_of_ne hsame] at hother
        exact ⟨hsame, hother⟩
    refine
      { hordered with
        call := fun call => ?_
        held := fun other lease hother hattached => ?_
        apart := fun first second lease other hne hfirst hattached hsecond hattached' => ?_
        tally := fun other => ?_
        closed := fun other hclosed => ?_
        closing := fun other hother => ?_ }
    · have hat := hordered.call call
      exact
        { hat with
          gate := fun other hgate => (haccepting other).trans (hat.gate other hgate)
          awaits := fun other hawaits => (haccepting other).trans (hat.awaits other hawaits) }
    · obtain ⟨hne, hbefore⟩ := hleases other lease hother
      obtain ⟨index, hheld⟩ := hordered.held other lease hbefore hattached
      refine ⟨index, ?_⟩
      simp only [Shared.setEntry, Function.update_of_ne hne]
      exact { hheld with }
    · exact hordered.apart first second lease other hne (hleases first lease hfirst).2 hattached
        (hleases second other hsecond).2 hattached'
    · have htally := hordered.tally other
      by_cases hother : other = registration
      · subst hother
        have hset : { each | ((Function.update state.shared.entries object .empty)
            each).registration = some other } =
            { each | (state.shared.entries each).registration = some other } \ {object} := by
          ext each
          by_cases heach : each = object
          · subst heach
            simp [Entry.empty]
          · simp [heach]
        have hmem : object ∈ { each | (state.shared.entries each).registration = some other } :=
          hregistration
        simp only [Shared.setEntry, Shared.setRegistration, Function.update_self]
        rw [hset, Set.encard_sdiff_singleton_of_mem hmem, htally]
        simp
      · have hset : { each | ((Function.update state.shared.entries object .empty)
            each).registration = some other } =
            { each | (state.shared.entries each).registration = some other } := by
          ext each
          by_cases heach : each = object
          · subst heach
            simp [Entry.empty, hregistration, Ne.symm hother]
          · simp [heach]
        simp only [Shared.setEntry, Shared.setRegistration, Function.update_of_ne hother]
        rw [hset]
        exact htally
    · obtain ⟨hclosing, hzero⟩ := hordered.closed other hclosed
      refine ⟨(haccepting other).trans hclosing, ?_⟩
      by_cases hother : other = registration
      · subst hother
        simp [Shared.setEntry, Shared.setRegistration, hzero]
      · simpa [Shared.setEntry, Shared.setRegistration, hother] using hzero
    · exact hordered.closing other ((haccepting other).symm.trans hother)
  · cases hrelease

theorem Ordered.move {target source : ℕ} (hordered : Ordered capacity seen state)
    (hmove : move state.shared target source = some next) :
    Ordered capacity seen { state with shared := next } := by
  simp only [Dispatch.move] at hmove
  split_ifs at hmove with hrefused
  obtain rfl := Option.some.inj hmove
  simp only [not_or, not_not, not_and] at hrefused
  obtain ⟨htarget, hne, -⟩ := hrefused
  generalize hentry : state.shared.entries source = entry
  have hsource : ∀ each, each ≠ target → each ≠ source →
      (((state.shared.setEntry target entry).setEntry source entry.movedFrom).entries each) =
        state.shared.entries each := by
    intro each htarget hsource
    simp [Shared.setEntry, htarget, hsource]
  have hat : ((state.shared.setEntry target entry).setEntry source entry.movedFrom).entries target
      = entry := by
    simp [Shared.setEntry, hne]
  have hleft : ((state.shared.setEntry target entry).setEntry source entry.movedFrom).entries
      source = entry.movedFrom := by
    simp [Shared.setEntry]
  -- an attached lease afterwards is in the target, or where it was
  have hleases : ∀ object lease, (((state.shared.setEntry target entry).setEntry source
      entry.movedFrom).entries object).lease = some lease → lease.attached = true →
      (object = target ∧ (state.shared.entries source).lease = some lease) ∨
        (object ≠ target ∧ object ≠ source ∧ (state.shared.entries object).lease = some lease) := by
    intro object lease hlease hattached
    by_cases hobject : object = source
    · subst hobject
      rw [hleft] at hlease
      obtain ⟨before, -, rfl⟩ := Option.map_eq_some_iff.mp hlease
      cases hattached
    · by_cases hother : object = target
      · subst hother
        rw [hat, ← hentry] at hlease
        exact .inl ⟨rfl, hlease⟩
      · rw [hsource object hother hobject] at hlease
        exact .inr ⟨hother, hobject, hlease⟩
  refine
    { hordered with
      call := fun call => { hordered.call call with }
      held := fun object lease hlease hattached => ?_
      apart := fun first second lease other hdiffer hfirst hattached hsecond hattached' => ?_
      tally := fun registration => ?_ }
  · rcases hleases object lease hlease hattached with ⟨rfl, hbefore⟩ | ⟨htarget, hother, hbefore⟩
    · obtain ⟨index, hheld⟩ := hordered.held source lease hbefore hattached
      refine ⟨index, ?_⟩
      rw [hat, ← hentry]
      exact { hheld with }
    · obtain ⟨index, hheld⟩ := hordered.held object lease hbefore hattached
      refine ⟨index, ?_⟩
      rw [hsource object htarget hother]
      exact { hheld with }
  · rcases hleases first lease hfirst hattached with ⟨rfl, hbefore⟩ | ⟨-, hone, hbefore⟩
    · rcases hleases second other hsecond hattached' with ⟨rfl, -⟩ | ⟨-, htwo, hbefore'⟩
      · exact absurd rfl hdiffer
      · exact hordered.apart source second lease other (Ne.symm htwo) hbefore hattached hbefore'
          hattached'
    · rcases hleases second other hsecond hattached' with ⟨rfl, hbefore'⟩ | ⟨-, -, hbefore'⟩
      · exact hordered.apart first source lease other hone hbefore hattached hbefore' hattached'
      · exact hordered.apart first second lease other hdiffer hbefore hattached hbefore'
          hattached'
  · have htally := hordered.tally registration
    have hempty : target ∉
        { object | (state.shared.entries object).registration = some registration } := by
      simp [htarget, Entry.empty]
    by_cases howner : entry.registration = some registration
    · have hset : { object | (((state.shared.setEntry target entry).setEntry source
          entry.movedFrom).entries object).registration = some registration } =
          insert target ({ object | (state.shared.entries object).registration =
            some registration } \ {source}) := by
        ext object
        by_cases hobject : object = source
        · subst hobject
          rw [Set.mem_ofPred_eq, hleft]
          simp [Entry.movedFrom, Ne.symm hne]
        · by_cases hother : object = target
          · subst hother
            simp [hat, howner]
          · simp [hsource object hother hobject, hobject, hother]
      have hmem : source ∈
          { object | (state.shared.entries object).registration = some registration } := by
        rw [Set.mem_ofPred_eq, hentry]
        exact howner
      rw [hset, Set.encard_exchange hempty hmem]
      exact htally
    · have hset : { object | (((state.shared.setEntry target entry).setEntry source
          entry.movedFrom).entries object).registration = some registration } =
          { object | (state.shared.entries object).registration = some registration } := by
        ext object
        by_cases hobject : object = source
        · subst hobject
          simp only [Set.mem_ofPred_eq, hleft]
          exact ⟨nofun, fun h => absurd (hentry ▸ h) howner⟩
        · by_cases hother : object = target
          · subst hother
            simp only [Set.mem_ofPred_eq, hat]
            exact ⟨fun h => absurd h howner, fun h => absurd h hempty⟩
          · simp [hsource object hother hobject]
      rw [hset]
      exact htally

/-! ### Calls that move -/

variable (shared caller task events next task') in
/-- The call moves outside the lane: it takes no ticket and makes no entry. -/
structure Quiet : Prop where
  lane : next.lane = shared.lane := by rfl
  entries : next.entries = shared.entries := by rfl
  counted : ∀ registration, (next.registrations registration).admitted =
    (shared.registrations registration).admitted := by exact fun _ => rfl
  accepting : ∀ registration, (next.registrations registration).accepting =
      (shared.registrations registration).accepting ∨
    (.closing registration ∈ events ∧ shared.admission = false ∧
      (next.registrations registration).accepting = false) := by exact fun _ => .inl rfl
  unlocks : shared.admission = true → next.admission = true ∨ task.critical = true := by
    exact .inl
  locks : task'.critical = true → next.admission = true ∧
    (task.critical = true ∨ shared.admission = false) := by exact nofun
  outside : task.entering = false ∧ task.inside = false := by exact ⟨rfl, rfl⟩
  prepared : preparations events = if task'.entering then [caller] else [] := by rfl
  silent : admissions events = [] ∧ begun events = [] ∧ ended events = [] := by
    exact ⟨rfl, rfl, rfl⟩
  omits : ∀ call ≠ caller, Omits call events := by exact fun _ _ => omits_nil _
  gate : ∀ registration, task'.gate = some registration →
    (next.registrations registration).accepting = true := by exact nofun
  room : task'.room = true → next.lane.admitted < next.lane.capacity := by exact nofun
  ticket : task'.ticket = none := by rfl
  awaits : ∀ registration, task'.awaits = some registration →
    (next.registrations registration).accepting = false := by exact nofun
  inside : task'.inside = false := by rfl
  checked : task.checked = true ∨ .preparing caller ∈ events ∨ .overflowing caller ∈ events →
    task'.checked = true := by exact fun _ => rfl
  exclusive : .preparing caller ∈ events ∨ .overflowing caller ∈ events →
    task.checked = false ∧ ¬(.preparing caller ∈ events ∧ .overflowing caller ∈ events) := by
      exact nofun
  closed : ∀ registration, .closed registration ∈ events →
    (next.registrations registration).accepting = false ∧
      (next.registrations registration).admitted = 0 := by exact nofun

theorem critical_of_gate {registration : ℕ} (hgate : task.gate = some registration) :
    task.critical = true := by
  cases task with
  | checkCapacity _ | overflow _ | prepare _ | tryEnter _ | count _ _ => rfl
  | _ => cases hgate

theorem critical_of_room (hroom : task.room = true) : task.critical = true := by
  cases task with
  | prepare _ | tryEnter _ => rfl
  | _ => cases hroom

theorem critical_of_entering (hentering : task.entering = true) : task.critical = true := by
  cases task with
  | tryEnter _ => rfl
  | _ => cases hentering

theorem At.moves (hat : At seen shared caller task)
    (hquiet : Quiet events shared next caller task task') : At (seen ++ events) next caller task' where
  critical hcritical := (hquiet.locks hcritical).1
  gate := hquiet.gate
  room := hquiet.room
  ticket ticket hticket := by
    rw [hquiet.ticket] at hticket
    cases hticket
  awaits := hquiet.awaits
  prepared hmem := by
    rw [preparations_append, hquiet.prepared] at hmem
    rcases List.mem_append.mp hmem with hmem | hmem
    · have := hat.prepared hmem
      simp [hquiet.outside] at this
    · split_ifs at hmem with hentering
      · exact .inl hentering
      · cases hmem
  inside hmem := by
    rw [entered_append, entered, entered, hquiet.silent.1, List.map_nil, List.append_nil] at hmem
    have := hat.inside hmem
    simp [hquiet.outside] at this
  checked hmem := by
    refine hquiet.checked ?_
    rcases hmem with hmem | hmem
    · rcases List.mem_append.mp hmem with hmem | hmem
      · exact .inl (hat.checked (.inl hmem))
      · exact .inr (.inl hmem)
    · rcases List.mem_append.mp hmem with hmem | hmem
      · exact .inl (hat.checked (.inr hmem))
      · exact .inr (.inr hmem)

/-- The mutex has one holder when a call that takes it finds nobody else with it. -/
theorem Ordered.alone_replace (hordered : Ordered capacity seen state)
    (hfree : task'.critical = true → ∀ other ≠ caller, (state.tasks other).critical = false)
    (first second : ℕ) (hne : first ≠ second) :
    ((state.replace caller next task').tasks first).critical = true →
      ((state.replace caller next task').tasks second).critical = false := by
  by_cases hfirst : first = caller
  · subst hfirst
    rw [Config.replace_self, Config.replace_of_ne _ _ _ (Ne.symm hne)]
    exact fun hcritical => hfree hcritical second (Ne.symm hne)
  · rw [Config.replace_of_ne _ _ _ hfirst]
    by_cases hsecond : second = caller
    · subst hsecond
      rw [Config.replace_self]
      intro hcritical
      by_contra hnow
      have := hfree (by simpa using hnow) first hfirst
      simp [hcritical] at this
    · rw [Config.replace_of_ne _ _ _ hsecond]
      exact hordered.alone first second hne

/-- The owner of a lease has returned, so it is not the call that moves. -/
theorem Held.replace {lease : Lease} {registration : Option ℕ} {index : ℕ}
    (hheld : Held seen state lease registration index)
    (houtside : ∀ registration, state.tasks caller ≠ .returned registration .admitted)
    (hadmissions : admissions seen <+: admissions (seen ++ events)) (hbegun : begun events = [])
    (hended : ended events = []) :
    Held (seen ++ events) (state.replace caller next task') lease registration index := by
  refine ⟨?_, ?_, ?_, hheld.owner.1, ?_⟩
  · obtain ⟨more, hmore⟩ := hadmissions
    rw [← hmore, List.getElem?_append_left (List.getElem?_eq_some_iff.mp hheld.place).1]
    exact hheld.place
  · rw [ended_append, hended, List.append_nil]
    exact hheld.left
  · rw [begun_append, hbegun, List.append_nil]
    exact hheld.turn
  · have hother : lease.call ≠ caller := by
      intro hcaller
      exact houtside registration (hcaller ▸ hheld.owner.2)
    rw [Config.replace_of_ne _ _ _ hother]
    exact hheld.owner.2

theorem Ordered.quiet (hordered : Ordered capacity seen state)
    (hquiet : Quiet events state.shared next caller (state.tasks caller) task') :
    Ordered capacity (seen ++ events) (state.replace caller next task') := by
  obtain ⟨hadmissions, hbegun, hended⟩ := hquiet.silent
  have hentered : entered events = [] := by rw [entered, hadmissions, List.map_nil]
  have hcounts := hordered.counts.quiet hadmissions hbegun hended
  have hclosed : ∀ registration,
      (state.shared.registrations registration).accepting = false →
      (next.registrations registration).accepting = false := by
    intro registration hfalse
    rcases hquiet.accepting registration with hsame | ⟨-, -, hnow⟩
    · exact hsame.trans hfalse
    · exact hnow
  have hentries : ∀ object, (state.replace caller next task').shared.entries object =
      state.shared.entries object := by
    intro object
    rw [Config.replace_shared, hquiet.entries]
  have hfree : task'.critical = true → ∀ other ≠ caller,
      (state.tasks other).critical = false := by
    intro hcritical other hother
    rcases (hquiet.locks hcritical).2 with hbefore | hunlocked
    · exact hordered.alone caller other (Ne.symm hother) hbefore
    · by_contra hheld
      have := (hordered.call other).critical (by simpa using hheld)
      simp [hunlocked] at this
  refine ⟨?_, ?_, ?_, ?_, ?_, ?_, ?_, ?_, ?_, ?_, ?_, ?_⟩
  · rw [Config.replace_shared, hquiet.lane]
    exact hcounts
  · refine Config.replace_forall (At (seen ++ events) next) ((hordered.call caller).moves hquiet)
      fun other hother => ?_
    refine (hordered.call other).stays (hquiet.omits other hother) ?_ ?_ hclosed ?_ ?_
    · intro hcritical hadmission
      refine (hquiet.unlocks hadmission).resolve_right fun hcaller => ?_
      have := hordered.alone caller other (Ne.symm hother) hcaller
      simp [hcritical] at this
    · intro registration hgate haccepting
      rcases hquiet.accepting registration with hsame | ⟨-, hunlocked, -⟩
      · exact hsame.trans haccepting
      · have := (hordered.call other).critical (critical_of_gate hgate)
        simp [hunlocked] at this
    · rw [hquiet.lane]
      exact fun _ hroom => hroom
    · intro ticket index _ _ hle
      rw [begun_append, hbegun, List.append_nil]
      exact hle
  · exact hordered.alone_replace hfree
  · refine Config.replace_forall (fun call (task : Task) => task.entering = true → _ = _ ++ [call])
      (fun hentering => ?_) fun other hother hentering => ?_
    · have hidle : ∀ call, (state.tasks call).entering = false := by
        intro call
        by_cases hcall : call = caller
        · rw [hcall]
          exact hquiet.outside.1
        · by_contra hother
          have := hfree (critical_of_entering hentering) call hcall
          rw [critical_of_entering (by simpa using hother)] at this
          cases this
      rw [preparations_append, entered_append, hentered, hquiet.prepared, if_pos hentering,
        List.append_nil, hordered.settled hidle]
    · have hnone : task'.entering = false := by
        by_contra hboth
        have := hfree (critical_of_entering (by simpa using hboth)) other hother
        rw [critical_of_entering hentering] at this
        cases this
      rw [preparations_append, entered_append, hentered, hquiet.prepared, hnone,
        hordered.waiting other hentering]
      simp
  · intro hidle
    have hnone := hidle caller
    rw [Config.replace_self] at hnone
    have hbefore : ∀ call, (state.tasks call).entering = false := by
      intro call
      by_cases hcall : call = caller
      · rw [hcall]
        exact hquiet.outside.1
      · have := hidle call
        rwa [Config.replace_of_ne _ _ _ hcall] at this
    rw [preparations_append, entered_append, hentered, hquiet.prepared, hnone,
      hordered.settled hbefore]
    simp
  · intro object lease hlease hattached
    rw [hentries] at hlease ⊢
    obtain ⟨index, hheld⟩ := hordered.held object lease hlease hattached
    refine ⟨index, hheld.replace ?_ ?_ hbegun hended⟩
    · intro registration hreturned
      have houtside := hquiet.outside.2
      rw [hreturned] at houtside
      cases houtside
    · rw [admissions_append]
      exact List.prefix_append ..
  · intro first second lease other
    rw [hentries, hentries]
    exact hordered.apart first second lease other
  · intro registration
    simp only [Config.replace_shared, hquiet.entries, hquiet.counted]
    exact hordered.tally registration
  · intro call hpreparing hoverflowing
    rcases List.mem_append.mp hpreparing with hbefore | hnow
    · rcases List.mem_append.mp hoverflowing with hbefore' | hnow'
      · exact hordered.exclusive call hbefore hbefore'
      · obtain rfl : call = caller := by
          by_contra hother
          exact (hquiet.omits call hother).overflowing hnow'
        have := (hquiet.exclusive (.inr hnow')).1
        rw [(hordered.call call).checked (.inl hbefore)] at this
        cases this
    · obtain rfl : call = caller := by
        by_contra hother
        exact (hquiet.omits call hother).preparing hnow
      rcases List.mem_append.mp hoverflowing with hbefore' | hnow'
      · have := (hquiet.exclusive (.inl hnow)).1
        rw [(hordered.call call).checked (.inr hbefore')] at this
        cases this
      · exact (hquiet.exclusive (.inl hnow)).2 ⟨hnow, hnow'⟩
  · intro registration hmem
    rcases List.mem_append.mp hmem with hbefore | hnow
    · obtain ⟨hfalse, hzero⟩ := hordered.closed registration hbefore
      exact ⟨hclosed registration hfalse, (hquiet.counted registration).trans hzero⟩
    · exact hquiet.closed registration hnow
  · intro registration hfalse
    rcases hquiet.accepting registration with hsame | ⟨hclosing, -, -⟩
    · exact List.mem_append_left _ (hordered.closing registration (hsame.symm.trans hfalse))
    · exact List.mem_append_right _ hclosing
  · refine hordered.after.append fun event hmem before call registration ticket hadmitted => ?_
    have hnone := List.filterMap_eq_nil_iff.mp hadmissions event hmem
    rw [hadmitted] at hnone
    cases hnone

theorem Ordered.enters {registration : ℕ} (hordered : Ordered capacity seen state)
    (htask : state.tasks caller = .tryEnter registration) :
    ∃ lane, state.shared.lane.tryEnter = some (lane, state.shared.lane.nextTicket) ∧
      Ordered capacity
        (seen ++ [.admitted caller registration state.shared.lane.nextTicket])
        (state.replace caller { state.shared with lane }
          (.count registration state.shared.lane.nextTicket)) := by
  have hat := hordered.call caller
  rw [htask] at hat
  have hnew : caller ∉ entered seen := fun hmem => by cases hat.inside hmem
  obtain ⟨lane, hlane, hcounts⟩ := hordered.counts.tryEnter (hat.room rfl) hnew
  have hfree : ∀ other ≠ caller, (state.tasks other).critical = false := fun other hother =>
    hordered.alone caller other (Ne.symm hother) (by rw [htask]; rfl)
  have hentered : entered [.admitted caller registration state.shared.lane.nextTicket] =
    [caller] := rfl
  refine ⟨lane, hlane, hcounts, ?_, ?_, ?_, ?_, ?_, hordered.apart, hordered.tally, ?_, ?_, ?_, ?_⟩
  · refine Config.replace_forall (At _ { state.shared with lane }) ?_ fun other hother => ?_
    · refine ⟨fun _ => hat.critical rfl, hat.gate, nofun, fun ticket hticket => ?_, nofun,
        fun _ => .inr rfl, fun _ => rfl, fun _ => rfl⟩
      obtain rfl := Option.some.inj hticket
      refine ⟨(admissions seen).length, by simp [Event.admits], ?_⟩
      have hle := hordered.counts.turns.begins.length_le
      rw [Counts.length_entered] at hle
      simpa [Event.begins] using hle
    · refine (hordered.call other).stays ⟨nofun, ?_, by simp, by simp⟩ (fun _ h => h)
        (fun _ _ h => h) (fun _ h => h) (fun hroom => ?_) fun _ _ _ _ hle => ?_
      · rw [hentered]
        simpa using hother
      · have hcritical := critical_of_room hroom
        rw [hfree other hother] at hcritical
        cases hcritical
      · simpa [Event.begins] using hle
  · exact hordered.alone_replace fun _ => hfree
  · refine Config.replace_forall (fun call (task : Task) => task.entering = true → _ = _ ++ [call])
      nofun fun other hother hentering => ?_
    have hcritical := critical_of_entering hentering
    rw [hfree other hother] at hcritical
    cases hcritical
  · intro _
    have hwaiting := hordered.waiting caller (by rw [htask]; rfl)
    simpa [Event.prepares, hentered] using hwaiting
  · intro object lease hlease hattached
    obtain ⟨index, hheld⟩ := hordered.held object lease hlease hattached
    refine ⟨index, hheld.replace (fun _ => by rw [htask]; nofun) ?_ rfl rfl⟩
    rw [admissions_append]
    exact List.prefix_append ..
  · intro call hpreparing hoverflowing
    exact hordered.exclusive call (by simpa using hpreparing) (by simpa using hoverflowing)
  · intro other hclosed
    exact hordered.closed other (by simpa using hclosed)
  · intro other haccepting
    exact List.mem_append_left _ (hordered.closing other haccepting)
  · refine hordered.after.snoc fun call other ticket hsame hclosed => ?_
    obtain ⟨-, rfl, -⟩ := Event.admitted.inj hsame
    have haccepting := hat.gate registration rfl
    rw [(hordered.closed registration hclosed).1] at haccepting
    cases haccepting

theorem Ordered.counted {registration object : ℕ} {ticket : UInt64}
    (hordered : Ordered capacity seen state)
    (htask : state.tasks caller = .count registration ticket)
    (hobject : state.shared.entries object = .empty) :
    Ordered capacity seen
      (state.replace caller
        { (state.shared.setRegistration registration
              { state.shared.registrations registration with
                admitted := (state.shared.registrations registration).admitted + 1 }).setEntry
            object ⟨some ⟨true, ticket, caller, false⟩, some registration⟩ with
          admission := false }
        (.returned registration .admitted)) := by
  have hat := hordered.call caller
  rw [htask] at hat
  have hfree : ∀ other ≠ caller, (state.tasks other).critical = false := fun other hother =>
    hordered.alone caller other (Ne.symm hother) (by rw [htask]; rfl)
  have haccepting : ∀ other, ((Function.update state.shared.registrations registration
      { state.shared.registrations registration with
        admitted := (state.shared.registrations registration).admitted + 1 }) other).accepting =
      (state.shared.registrations other).accepting := by
    intro other
    by_cases hother : other = registration
    · subst hother
      simp
    · simp [hother]
  have howners : ∀ each lease, (state.shared.entries each).lease = some lease →
      lease.attached = true → lease.call ≠ caller := by
    intro each lease hlease hattached hcaller
    obtain ⟨index, hheld⟩ := hordered.held each lease hlease hattached
    have howner := hheld.owner.2
    rw [hcaller, htask] at howner
    cases howner
  -- a lease afterwards is the new one, or where it was
  have hleases : ∀ each lease, ((Function.update state.shared.entries object
      ⟨some ⟨true, ticket, caller, false⟩, some registration⟩) each).lease = some lease →
      (each = object ∧ lease = ⟨true, ticket, caller, false⟩) ∨
        (each ≠ object ∧ (state.shared.entries each).lease = some lease) := by
    intro each lease hlease
    by_cases heach : each = object
    · subst heach
      rw [Function.update_self] at hlease
      exact .inl ⟨rfl, (Option.some.inj hlease).symm⟩
    · rw [Function.update_of_ne heach] at hlease
      exact .inr ⟨heach, hlease⟩
  refine ⟨hordered.counts, ?_, ?_, ?_, ?_, ?_, ?_, ?_, hordered.exclusive, ?_, ?_, hordered.after⟩
  · refine Config.replace_forall (At seen _) ⟨nofun, nofun, nofun, nofun, nofun, fun _ => .inr rfl,
      fun _ => rfl, fun _ => rfl⟩ fun other hother => ?_
    have hother' := hordered.call other
    refine
      { hother' with
        critical := fun hcritical => ?_
        gate := fun each hgate => (haccepting each).trans (hother'.gate each hgate)
        awaits := fun each hawaits => (haccepting each).trans (hother'.awaits each hawaits) }
    rw [hfree other hother] at hcritical
    cases hcritical
  · exact hordered.alone_replace nofun
  · refine Config.replace_forall (fun call (task : Task) => task.entering = true → _ = _ ++ [call])
      nofun fun other hother hentering => hordered.waiting other hentering
  · intro hidle
    refine hordered.settled fun call => ?_
    by_cases hcall : call = caller
    · rw [hcall, htask]
      rfl
    · have := hidle call
      rwa [Config.replace_of_ne _ _ _ hcall] at this
  · intro each lease hlease hattached
    rcases hleases each lease hlease with ⟨rfl, rfl⟩ | ⟨heach, hbefore⟩
    · obtain ⟨index, hplace, hle⟩ := hat.ticket ticket rfl
      refine ⟨index, hplace, ?_, ?_, ?_, ?_⟩
      · exact Nat.le_trans hordered.counts.turns.length_le hle
      · simp only [Bool.false_eq_true, false_iff, Nat.not_lt]
        exact hle
      · simp [Shared.setEntry]
      · simp [Shared.setEntry, Config.replace]
    · obtain ⟨index, hheld⟩ := hordered.held each lease hbefore hattached
      refine ⟨index, ?_⟩
      simp only [Config.replace_shared, Shared.setEntry, Function.update_of_ne heach]
      rw [← List.append_nil seen]
      exact hheld.replace (fun _ => by rw [htask]; nofun) (by simp) rfl rfl
  · intro first second lease other hne hfirst hattached hsecond hattached'
    rcases hleases first lease hfirst with ⟨rfl, rfl⟩ | ⟨-, hbefore⟩
    · rcases hleases second other hsecond with ⟨rfl, -⟩ | ⟨-, hbefore'⟩
      · exact absurd rfl hne
      · exact (howners second other hbefore' hattached').symm
    · rcases hleases second other hsecond with ⟨rfl, rfl⟩ | ⟨-, hbefore'⟩
      · exact howners first lease hbefore hattached
      · exact hordered.apart first second lease other hne hbefore hattached hbefore' hattached'
  · intro other
    have htally := hordered.tally other
    have hempty : object ∉ { each | (state.shared.entries each).registration = some other } := by
      simp [hobject, Entry.empty]
    simp only [Config.replace_shared, Shared.setEntry, Shared.setRegistration]
    by_cases hother : other = registration
    · subst hother
      have hset : { each | ((Function.update state.shared.entries object
          ⟨some ⟨true, ticket, caller, false⟩, some other⟩) each).registration = some other } =
          insert object { each | (state.shared.entries each).registration = some other } := by
        ext each
        by_cases heach : each = object
        · subst heach
          simp
        · simp [heach]
      rw [hset, Set.encard_insert_of_notMem hempty, htally, Function.update_self]
      rfl
    · have hset : { each | ((Function.update state.shared.entries object
          ⟨some ⟨true, ticket, caller, false⟩, some registration⟩) each).registration =
            some other } =
          { each | (state.shared.entries each).registration = some other } := by
        ext each
        by_cases heach : each = object
        · subst heach
          simp [hobject, Entry.empty, Ne.symm hother]
        · simp [heach]
      rw [hset, Function.update_of_ne hother]
      exact htally
  · intro other hclosed
    obtain ⟨hfalse, hzero⟩ := hordered.closed other hclosed
    have hother : other ≠ registration := by
      rintro rfl
      have := hat.gate other rfl
      rw [hfalse] at this
      cases this
    refine ⟨(haccepting other).trans hfalse, ?_⟩
    simpa [Shared.setEntry, Shared.setRegistration, hother] using hzero
  · intro other hfalse
    exact hordered.closing other ((haccepting other).symm.trans hfalse)

theorem Ordered.dispatchBlock {choice : Choice} (hordered : Ordered capacity seen state)
    (hblock : dispatchBlock state.shared caller choice (state.tasks caller) = some (next, task')) :
    Ordered capacity (seen ++ eventsOf state.shared caller choice (state.tasks caller))
      (state.replace caller next task') := by
  have hat := hordered.call caller
  cases htask : state.tasks caller with
  | dispatch registration =>
      simp only [htask, Dispatch.dispatchBlock] at hblock
      split_ifs at hblock with hlocked
      obtain ⟨rfl, rfl⟩ := Prod.mk.inj (Option.some.inj hblock)
      refine hordered.quiet ?_
      rw [htask]
      have hunlocked : state.shared.admission = false := by simpa using hlocked
      exact
        { unlocks := fun _ => .inl rfl
          locks := fun _ => ⟨rfl, .inr hunlocked⟩
          checked := by simp [Task.checked, eventsOf] }
  | checkAccepting registration =>
      rw [htask] at hat
      simp only [htask, Dispatch.dispatchBlock] at hblock
      split_ifs at hblock with haccepting
      · obtain ⟨rfl, rfl⟩ := Prod.mk.inj (Option.some.inj hblock)
        refine hordered.quiet ?_
        rw [htask]
        refine
          { locks := fun _ => ⟨hat.critical rfl, .inl rfl⟩
            gate := fun other hother => ?_
            checked := by simp [Task.checked, eventsOf] }
        obtain rfl := Option.some.inj hother
        exact haccepting
      · obtain ⟨rfl, rfl⟩ := Prod.mk.inj (Option.some.inj hblock)
        refine hordered.quiet ?_
        rw [htask]
        exact { unlocks := fun _ => .inr rfl }
  | checkCapacity registration =>
      rw [htask] at hat
      simp only [htask, Dispatch.dispatchBlock] at hblock
      split_ifs at hblock with hcapacity
      · obtain ⟨rfl, rfl⟩ := Prod.mk.inj (Option.some.inj hblock)
        refine hordered.quiet ?_
        rw [htask]
        have hevents : eventsOf state.shared caller choice (.checkCapacity registration) =
            [.preparing caller] := if_pos hcapacity
        rw [hevents]
        exact
          { locks := fun _ => ⟨hat.critical rfl, .inl rfl⟩
            gate := hat.gate
            room := fun _ => by simpa [Lane.hasCapacity, hordered.counts.accepting] using hcapacity
            omits := fun other hother => ⟨nofun, nofun, by simp [hother], by simp⟩
            exclusive := fun _ => ⟨rfl, by simp⟩
            closed := by simp }
      · obtain ⟨rfl, rfl⟩ := Prod.mk.inj (Option.some.inj hblock)
        refine hordered.quiet ?_
        rw [htask]
        have hevents : eventsOf state.shared caller choice (.checkCapacity registration) =
            [.overflowing caller] := if_neg hcapacity
        rw [hevents]
        exact
          { locks := fun _ => ⟨hat.critical rfl, .inl rfl⟩
            gate := hat.gate
            omits := fun other hother => ⟨nofun, nofun, by simp, by simp [hother]⟩
            exclusive := fun _ => ⟨rfl, by simp⟩
            closed := by simp }
  | overflow registration =>
      simp only [htask, Dispatch.dispatchBlock] at hblock
      obtain ⟨rfl, rfl⟩ := Prod.mk.inj (Option.some.inj hblock)
      refine hordered.quiet ?_
      rw [htask]
      cases choice.callback with
      | returned accepted => exact { unlocks := fun _ => .inr rfl }
      | threw => exact { unlocks := fun _ => .inr rfl }
  | prepare registration =>
      rw [htask] at hat
      simp only [htask, Dispatch.dispatchBlock] at hblock
      split at hblock
      · rename_i haccepted
        obtain ⟨rfl, rfl⟩ := Prod.mk.inj (Option.some.inj hblock)
        refine hordered.quiet ?_
        rw [htask]
        have hevents : eventsOf state.shared caller choice (.prepare registration) =
            [.prepared caller] := if_pos haccepted
        rw [hevents]
        exact
          { locks := fun _ => ⟨hat.critical rfl, .inl rfl⟩
            gate := hat.gate
            room := hat.room
            omits := fun other hother =>
              ⟨by simp [Event.prepares, hother], nofun, by simp, by simp⟩
            exclusive := by simp
            closed := by simp }
      · rename_i hrejected
        obtain ⟨rfl, rfl⟩ := Prod.mk.inj (Option.some.inj hblock)
        refine hordered.quiet ?_
        rw [htask]
        have hevents : eventsOf state.shared caller choice (.prepare registration) = [] :=
          if_neg (by simp [hrejected])
        rw [hevents]
        exact { unlocks := fun _ => .inr rfl }
      · rename_i hthrew
        obtain ⟨rfl, rfl⟩ := Prod.mk.inj (Option.some.inj hblock)
        refine hordered.quiet ?_
        rw [htask]
        have hevents : eventsOf state.shared caller choice (.prepare registration) = [] :=
          if_neg (by simp [hthrew])
        rw [hevents]
        exact { unlocks := fun _ => .inr rfl }
  | tryEnter registration =>
      obtain ⟨lane, hlane, hentered⟩ := hordered.enters htask
      simp only [htask, Dispatch.dispatchBlock, hlane] at hblock
      obtain ⟨rfl, rfl⟩ := Prod.mk.inj (Option.some.inj hblock)
      simpa [eventsOf, hlane] using hentered
  | count registration ticket =>
      simp only [htask, Dispatch.dispatchBlock] at hblock
      split_ifs at hblock with hobject
      obtain ⟨rfl, rfl⟩ := Prod.mk.inj (Option.some.inj hblock)
      simpa [eventsOf] using hordered.counted htask (by simpa using hobject)
  | _ =>
      rw [htask] at hblock
      cases hblock

theorem Ordered.closeBlock {choice : Choice} (hordered : Ordered capacity seen state)
    (hblock : closeBlock state.shared (state.tasks caller) = some (next, task')) :
    Ordered capacity (seen ++ eventsOf state.shared caller choice (state.tasks caller))
      (state.replace caller next task') := by
  have hat := hordered.call caller
  cases htask : state.tasks caller with
  | close registration =>
      simp only [htask, Dispatch.closeBlock] at hblock
      split_ifs at hblock with hlocked
      obtain ⟨rfl, rfl⟩ := Prod.mk.inj (Option.some.inj hblock)
      have hunlocked : state.shared.admission = false := by simpa using hlocked
      refine hordered.quiet ?_
      rw [htask]
      refine
        { counted := fun other => ?_
          accepting := fun other => ?_
          omits := fun other hother => ⟨nofun, nofun, by simp [eventsOf], by simp [eventsOf]⟩
          awaits := fun other hother => ?_
          checked := by simp [Task.checked, eventsOf]
          exclusive := by simp [eventsOf]
          closed := by simp [eventsOf] }
      · by_cases hother : other = registration
        · subst hother
          simp [Shared.setRegistration]
        · simp [Shared.setRegistration, hother]
      · by_cases hother : other = registration
        · subst hother
          exact .inr ⟨List.mem_singleton.mpr rfl, hunlocked, by simp [Shared.setRegistration]⟩
        · exact .inl (by simp [Shared.setRegistration, hother])
      · obtain rfl := Option.some.inj hother
        simp [Shared.setRegistration]
  | closeWait registration =>
      rw [htask] at hat
      simp only [htask, Dispatch.closeBlock] at hblock
      split_ifs at hblock with hzero
      obtain ⟨rfl, rfl⟩ := Prod.mk.inj (Option.some.inj hblock)
      refine hordered.quiet ?_
      rw [htask]
      refine
        { omits := fun other hother => ⟨nofun, nofun, by simp [eventsOf], by simp [eventsOf]⟩
          checked := by simp [Task.checked, eventsOf]
          exclusive := by simp [eventsOf]
          closed := fun other hother => ?_ }
      obtain rfl : other = registration := by simpa [eventsOf] using hother
      exact ⟨hat.awaits other rfl, hzero⟩
  | _ =>
      rw [htask] at hblock
      cases hblock

theorem Ordered.step {action : Action} {next : State} (hordered : Ordered capacity seen state)
    (hstep : step state action = some next) :
    Ordered capacity (seen ++ emits state action) next := by
  cases action with
  | register =>
      obtain rfl := Option.some.inj hstep
      simp only [emits, List.append_nil]
      exact
        { hordered with
          call := fun call => { hordered.call call with }
          held := fun object lease hlease hattached => by
            obtain ⟨index, hheld⟩ := hordered.held object lease hlease hattached
            exact ⟨index, { hheld with }⟩ }
  | dispatch caller registration =>
      simp only [Dispatch.step] at hstep
      split at hstep
      · rename_i hidle
        obtain ⟨⟨shared, task'⟩, henter, rfl⟩ := Option.map_eq_some_iff.mp hstep
        refine hordered.quiet ?_
        rw [hidle]
        cases registration with
        | none =>
            obtain ⟨rfl, rfl⟩ := Prod.mk.inj (Option.some.inj henter)
            exact {}
        | some registration =>
            simp only [enter] at henter
            split_ifs at henter
            obtain ⟨rfl, rfl⟩ := Prod.mk.inj (Option.some.inj henter)
            exact { checked := by simp [Task.checked, emits] }
      · cases hstep
  | closeAndWait caller registration =>
      simp only [Dispatch.step] at hstep
      split at hstep
      · rename_i hidle
        obtain ⟨⟨shared, task'⟩, henter, rfl⟩ := Option.map_eq_some_iff.mp hstep
        refine hordered.quiet ?_
        rw [hidle]
        cases registration with
        | none =>
            obtain ⟨rfl, rfl⟩ := Prod.mk.inj (Option.some.inj henter)
            exact { checked := by simp [Task.checked, emits] }
        | some registration =>
            simp only [enter] at henter
            split_ifs at henter
            obtain ⟨rfl, rfl⟩ := Prod.mk.inj (Option.some.inj henter)
            exact { checked := by simp [Task.checked, emits] }
      · cases hstep
  | block caller choice =>
      obtain ⟨⟨shared, task'⟩, hblock, rfl⟩ := Option.map_eq_some_iff.mp hstep
      simp only [block, Option.orElse_eq_orElse, Option.orElse_eq_or,
        Option.or_eq_some_iff] at hblock
      rcases hblock with hdispatch | ⟨-, hclose⟩
      · exact hordered.dispatchBlock hdispatch
      · exact hordered.closeBlock hclose
  | waitTurn object =>
      obtain ⟨shared, hwait, rfl⟩ := Option.map_eq_some_iff.mp hstep
      exact hordered.waitTurn hwait
  | releaseLease object =>
      obtain ⟨shared, hrelease, rfl⟩ := Option.map_eq_some_iff.mp hstep
      exact hordered.releaseLease hrelease
  | releaseRegistration object =>
      obtain ⟨shared, hrelease, rfl⟩ := Option.map_eq_some_iff.mp hstep
      simp only [emits, List.append_nil]
      exact hordered.releaseRegistration hrelease
  | move target source =>
      obtain ⟨shared, hmove, rfl⟩ := Option.map_eq_some_iff.mp hstep
      simp only [emits, List.append_nil]
      exact hordered.move hmove

theorem ordered_run {actions : List Action} (hrun : run step (start capacity) actions = some state) :
    Ordered capacity (log step emits (start capacity) actions) state :=
  run_log emits (Ordered capacity) (ordered_start capacity)
    (fun _ _ _ _ _ hordered hstep => hordered.step hstep) hrun

end Steps

/-! ## What a run shows -/

/-- The callback of the entry runs from its turn on until the lease is released. -/
def Entry.running (entry : Entry) : Bool :=
  entry.lease.any fun lease => lease.attached && lease.turn

/-- The counters agree, and entries have their turns one at a time, in the order of their tickets,
which is the order of their preparations. -/
structure FirstInFirstOut (capacity : UInt64) (seen : List Event) (state : State) : Prop where
  counters : state.shared.lane.nextTicket - state.shared.lane.servingTicket =
    state.shared.lane.admitted ∧ state.shared.lane.admitted ≤ capacity
  turns : InTurn (entered seen) (begun seen) (ended seen)
  single : ∀ first second, (state.shared.entries first).running = true →
    (state.shared.entries second).running = true → first = second
  tickets : ∀ index call ticket, (admissions seen)[index]? = some (call, ticket) →
    ticket = UInt64.ofNat index
  prepared : entered seen <+: preparations seen

/-- A call that has prepared enters the lane, and one that finds the lane full never prepares. -/
structure SureAdmission (capacity : UInt64) (seen : List Event) (state : State) : Prop where
  sure : ∀ call ∈ preparations seen,
    (state.tasks call).entering = true ∨ (state.tasks call).inside = true
  enters : ∀ call registration choice, state.tasks call = .tryEnter registration →
    ∃ next ticket, step state (.block call choice) = some next ∧
      next.tasks call = .count registration ticket
  returns : ∀ call registration ticket choice, state.tasks call = .count registration ticket →
    state.shared.entries choice.object = .empty →
    ∃ next, step state (.block call choice) = some next ∧
      next.tasks call = .returned registration .admitted
  full : ∀ call registration choice next, state.tasks call = .checkCapacity registration →
    state.shared.lane.admitted = capacity → step state (.block call choice) = some next →
    next.tasks call = .overflow registration
  exclusive : ∀ call, .overflowing call ∈ seen → .preparing call ∉ seen

/-- A registration whose close has returned has nothing in the lane and never again enters it; the
others notice nothing. -/
structure Closure (seen : List Event) (state : State) : Prop where
  drained : ∀ registration, .closed registration ∈ seen →
    (∀ object, (state.shared.entries object).registration ≠ some registration) ∧
      ∀ call, (state.tasks call).gate ≠ some registration
  never : ∀ before call registration ticket after,
    seen = before ++ Event.admitted call registration ticket :: after →
    .closed registration ∉ before
  own : ∀ registration, .closing registration ∉ seen →
    (state.shared.registrations registration).accepting = true
  waits : ∀ call registration choice, state.tasks call = .closeWait registration →
    (∀ object, (state.shared.entries object).registration ≠ some registration) →
    ∃ next, step state (.block call choice) = some next ∧
      next.tasks call = .closed registration
  frame : ∀ call registration choice next,
    state.tasks call = .close registration ∨ state.tasks call = .closeWait registration →
    step state (.block call choice) = some next →
    next.shared.lane = state.shared.lane ∧ next.shared.entries = state.shared.entries ∧
      ∀ other ≠ registration,
        next.shared.registrations other = state.shared.registrations other

section Runs

variable {capacity : UInt64} {seen : List Event} {state : State}

theorem step_of_dispatchBlock {call : ℕ} {choice : Choice} {shared : Shared} {task : Task}
    (hblock : dispatchBlock state.shared call choice (state.tasks call) = some (shared, task)) :
    step state (.block call choice) = some (state.replace call shared task) := by
  simp [step, block, hblock]

theorem step_of_closeBlock {call : ℕ} {choice : Choice} {shared : Shared} {task : Task}
    (hdispatch : dispatchBlock state.shared call choice (state.tasks call) = none)
    (hblock : closeBlock state.shared (state.tasks call) = some (shared, task)) :
    step state (.block call choice) = some (state.replace call shared task) := by
  simp [step, block, hdispatch, hblock]

theorem Ordered.index_of_running (hordered : Ordered capacity seen state) {object : ℕ}
    (hrunning : (state.shared.entries object).running = true) :
    ∃ lease, (state.shared.entries object).lease = some lease ∧ lease.attached = true ∧
      (entered seen)[(ended seen).length]? = some lease.call := by
  obtain ⟨lease, hlease, hboth⟩ := (Option.any_eq_true _ _).mp hrunning
  obtain ⟨hattached, hturn⟩ := Bool.and_eq_true_iff.mp hboth
  obtain ⟨index, hheld⟩ := hordered.held object lease hlease hattached
  have hindex : index = (ended seen).length := by
    have := hordered.counts.turns.single
    have := hheld.left
    have := hheld.turn.mp hturn
    omega
  subst hindex
  exact ⟨lease, hlease, hattached, Counts.entered_getElem hheld.place⟩

theorem Ordered.firstInFirstOut (hordered : Ordered capacity seen state) :
    FirstInFirstOut capacity seen state where
  counters := by
    refine ⟨hordered.counts.difference, ?_⟩
    rw [← hordered.counts.limit]
    exact hordered.counts.room
  turns := hordered.counts.turns
  single first second hfirst hsecond := by
    obtain ⟨lease, hlease, hattached, hplace⟩ := hordered.index_of_running hfirst
    obtain ⟨other, hother, hattached', hplace'⟩ := hordered.index_of_running hsecond
    by_contra hne
    exact hordered.apart first second lease other hne hlease hattached hother hattached'
      (Option.some.inj (hplace.symm.trans hplace'))
  tickets index call ticket hplace := hordered.counts.tickets index (call, ticket) hplace
  prepared := by
    by_cases hidle : ∀ call, (state.tasks call).entering = false
    · rw [hordered.settled hidle]
    · obtain ⟨call, hentering⟩ := not_forall.mp hidle
      rw [hordered.waiting call (by simpa using hentering)]
      exact List.prefix_append ..

theorem Ordered.sureAdmission (hordered : Ordered capacity seen state) :
    SureAdmission capacity seen state where
  sure call := (hordered.call call).prepared
  enters call registration choice htask := by
    obtain ⟨lane, hlane, -⟩ := hordered.enters htask
    have hblock : Dispatch.dispatchBlock state.shared call choice (state.tasks call) =
        some ({ state.shared with lane }, .count registration state.shared.lane.nextTicket) := by
      simp only [htask, Dispatch.dispatchBlock, hlane]
    exact ⟨_, _, step_of_dispatchBlock hblock, Config.replace_self ..⟩
  returns call registration ticket choice htask hempty := by
    obtain ⟨shared, hblock⟩ : ∃ shared,
        Dispatch.dispatchBlock state.shared call choice (state.tasks call) =
          some (shared, .returned registration .admitted) := by
      simp [htask, Dispatch.dispatchBlock, hempty]
    exact ⟨_, step_of_dispatchBlock hblock, Config.replace_self ..⟩
  full call registration choice next htask hfull hstep := by
    have hno : state.shared.lane.hasCapacity = false := by
      rw [Lane.hasCapacity, hfull, hordered.counts.limit]
      simp
    have hblock : Dispatch.dispatchBlock state.shared call choice (state.tasks call) =
        some (state.shared, .overflow registration) := by
      simp [htask, Dispatch.dispatchBlock, hno]
    rw [step_of_dispatchBlock hblock] at hstep
    obtain rfl := Option.some.inj hstep
    exact Config.replace_self ..
  exclusive call hoverflowing hpreparing := hordered.exclusive call hpreparing hoverflowing

theorem Ordered.unheld_iff (hordered : Ordered capacity seen state) {registration : ℕ} :
    (∀ object, (state.shared.entries object).registration ≠ some registration) ↔
      (state.shared.registrations registration).admitted = 0 := by
  have htally := hordered.tally registration
  rw [← Nat.cast_inj (R := ℕ∞), ← htally, Nat.cast_zero, Set.encard_eq_zero]
  exact Set.eq_empty_iff_forall_notMem.symm

theorem Ordered.closure (hordered : Ordered capacity seen state) : Closure seen state where
  drained registration hclosed := by
    obtain ⟨hfalse, hzero⟩ := hordered.closed registration hclosed
    refine ⟨hordered.unheld_iff.mpr hzero, fun call hgate => ?_⟩
    have haccepting := (hordered.call call).gate registration hgate
    rw [hfalse] at haccepting
    cases haccepting
  never before call registration ticket after hsplit :=
    hordered.after before _ after hsplit call registration ticket rfl
  own registration hopen := by
    by_contra hfalse
    exact hopen (hordered.closing registration (by simpa using hfalse))
  waits call registration choice htask hnone := by
    have hzero := hordered.unheld_iff.mp hnone
    have hdispatch : Dispatch.dispatchBlock state.shared call choice (state.tasks call) = none := by
      rw [htask]
      rfl
    have hblock : Dispatch.closeBlock state.shared (state.tasks call) =
        some (state.shared, .closed registration) := by
      simp [htask, Dispatch.closeBlock, hzero]
    exact ⟨_, step_of_closeBlock hdispatch hblock, Config.replace_self ..⟩
  frame call registration choice next htask hstep := by
    obtain ⟨⟨shared, task'⟩, hblock, rfl⟩ := Option.map_eq_some_iff.mp hstep
    simp only [block, Option.orElse_eq_orElse, Option.orElse_eq_or,
      Option.or_eq_some_iff] at hblock
    rcases htask with htask | htask
    · simp only [htask, Dispatch.dispatchBlock, Dispatch.closeBlock, reduceCtorEq, true_and,
        false_or] at hblock
      split_ifs at hblock
      obtain ⟨rfl, rfl⟩ := Prod.mk.inj (Option.some.inj hblock)
      exact ⟨rfl, rfl, fun other hother => Function.update_of_ne hother ..⟩
    · simp only [htask, Dispatch.dispatchBlock, Dispatch.closeBlock, reduceCtorEq, true_and,
        false_or] at hblock
      split_ifs at hblock
      obtain ⟨rfl, rfl⟩ := Prod.mk.inj (Option.some.inj hblock)
      exact ⟨rfl, rfl, fun _ _ => rfl⟩

/-- However registrations, dispatches, turns, releases and closes interleave. -/
theorem dispatch_lane (capacity : UInt64) (actions : List Action) (state : State)
    (hrun : run step (start capacity) actions = some state) :
    FirstInFirstOut capacity (log step emits (start capacity) actions) state ∧
    SureAdmission capacity (log step emits (start capacity) actions) state ∧
    Closure (log step emits (start capacity) actions) state :=
  have hordered := ordered_run hrun
  ⟨hordered.firstInFirstOut, hordered.sureAdmission, hordered.closure⟩

end Runs

/-- A lane of one: the second call overflows while the first is in the lane, and the close returns
when its entry, moved meanwhile, is released. -/
theorem dispatch_lane_overflow :
    ∃ (actions : List Action) (state : State),
      run step (start 1) actions = some state ∧
      log step emits (start 1) actions =
        [.preparing 0, .prepared 0, .admitted 0 0 0, .overflowing 1, .began 0, .closing 0,
          .ended 0, .closed 0] ∧
      Closure (log step emits (start 1) actions) state := by
  let choice : Choice := ⟨.returned true, 0⟩
  let actions : List Action :=
    List.flatten
      [Action.register :: Action.dispatch 0 (some 0) :: List.replicate 6 (.block 0 choice),
        Action.dispatch 1 (some 0) :: List.replicate 4 (.block 1 choice),
        [.move 1 0, .releaseLease 0, .waitTurn 1, .closeAndWait 2 (some 0), .block 2 choice,
          .releaseLease 1, .releaseRegistration 1, .block 2 choice]]
  have hends : (run step (start 1) actions).isSome = true := by decide +kernel
  have hseen : log step emits (start 1) actions =
      [.preparing 0, .prepared 0, .admitted 0 0 0, .overflowing 1, .began 0, .closing 0,
        .ended 0, .closed 0] := by
    decide +kernel
  obtain ⟨state, hrun⟩ := Option.isSome_iff_exists.mp hends
  obtain ⟨-, -, hclosure⟩ := dispatch_lane 1 actions state hrun
  exact ⟨actions, state, hrun, hseen, hclosure⟩

end Sitos.Dispatch

import Sitos.Fence.Receiver
import Sitos.Wire.FenceRoute

/-!
# Isolation of the lanes of a receiver

A run is any sequence of calls on a registry that starts out empty, with the session ids valid.
Each call is about one lane, or drops a session, or drops everything.

A publisher that found the table full has no lane, so nothing but the mark of its scope tells it
from a publisher that has sent nothing.  The mark stays until its session is dropped.
-/

namespace Sitos.Receiver

open Sitos.AckResult
open Sitos.Bytes
open Sitos.Core
open Sitos.FenceWire
open Sitos.Key
open Sitos.LaneState
open Sitos.Machine
open Sitos.Segments
open Sitos.Token

/-! ## Keys -/

/-- What a lane is told apart by. -/
structure LaneId where
  sid : ByteString
  sessionGeneration : FenceUuid
  bufferClass : BufferClass
  publisherUuid : FenceUuid
  deriving DecidableEq

namespace LaneId

def key (lane : LaneId) : ByteString :=
  laneKey lane.sid lane.sessionGeneration lane.bufferClass lane.publisherUuid

def scope (lane : LaneId) : ByteString :=
  scopeKey lane.sid lane.sessionGeneration lane.bufferClass

def IsValid (lane : LaneId) : Prop := isValidSessionId lane.sid = true

end LaneId

theorem formatFenceUuid_injective : Function.Injective formatFenceUuid := by
  intro first second heq
  have hfirst := parseFrom_formatFrom 0 first.bytes
  have hsecond := parseFrom_formatFrom 0 second.bytes
  have hbytes : first.bytes = second.bytes := by
    rw [← Option.some_inj, ← hfirst, ← hsecond]
    exact congrArg (parseFrom 0) heq
  cases first
  cases second
  congr

theorem length_formatFenceUuid (uuid : FenceUuid) : (formatFenceUuid uuid).length = 36 :=
  length_formatAckToken uuid

theorem bar_not_mem_bufferClassName (bufferClass : BufferClass) :
    bar ∉ bufferClassName bufferClass := by
  cases bufferClass <;> decide

theorem bufferClassName_injective : Function.Injective bufferClassName := by
  intro first second heq
  cases first <;> cases second <;> first | rfl | exact absurd heq (by decide)

/-- The texts after the session id, which is where two keys of one session differ. -/
theorem scope_inj {lane other : LaneId} (hlane : lane.IsValid) (hother : other.IsValid)
    {rest rest' : ByteString}
    (heq : lane.sid ++ bar :: (formatFenceUuid lane.sessionGeneration ++ bar :: rest) =
      other.sid ++ bar :: (formatFenceUuid other.sessionGeneration ++ bar :: rest')) :
    lane.sid = other.sid ∧ lane.sessionGeneration = other.sessionGeneration ∧ rest = rest' := by
  obtain ⟨hsid, htail⟩ := append_cons_inj (bar_not_mem_of_isValidSessionId hlane)
    (bar_not_mem_of_isValidSessionId hother) heq
  have hlength : (formatFenceUuid lane.sessionGeneration).length =
      (formatFenceUuid other.sessionGeneration).length := by
    rw [length_formatFenceUuid, length_formatFenceUuid]
  obtain ⟨hgeneration, hrest⟩ := List.append_inj htail hlength
  exact ⟨hsid, formatFenceUuid_injective hgeneration, (List.cons.inj hrest).2⟩

theorem LaneId.eq_of_key {lane other : LaneId} (hlane : lane.IsValid) (hother : other.IsValid)
    (hkey : lane.key = other.key) : lane = other := by
  simp only [LaneId.key, laneKey, List.append_assoc, List.cons_append] at hkey
  obtain ⟨hsid, hgeneration, hrest⟩ := scope_inj hlane hother hkey
  obtain ⟨hclass, hpublisher⟩ := append_cons_inj (bar_not_mem_bufferClassName _)
    (bar_not_mem_bufferClassName _) hrest
  have hclass := bufferClassName_injective hclass
  have hpublisher := formatFenceUuid_injective hpublisher
  cases lane
  cases other
  simp_all

theorem LaneId.eq_of_scope {lane other : LaneId} (hlane : lane.IsValid) (hother : other.IsValid)
    (hscope : lane.scope = other.scope) : lane.sid = other.sid ∧
      lane.sessionGeneration = other.sessionGeneration ∧
        lane.bufferClass = other.bufferClass := by
  simp only [LaneId.scope, scopeKey, List.append_assoc, List.cons_append] at hscope
  obtain ⟨hsid, hgeneration, hrest⟩ := scope_inj hlane hother hscope
  exact ⟨hsid, hgeneration, bufferClassName_injective hrest⟩

theorem belongsToSession_key {sid : ByteString} {lane : LaneId}
    (hsid : isValidSessionId sid = true) (hlane : lane.IsValid) :
    FenceReceiverRegistry.belongsToSession sid lane.key = decide (lane.sid = sid) := by
  by_cases hsame : lane.sid = sid
  · subst hsame
    rw [decide_eq_true rfl]
    exact belongsToSession_laneKey ..
  · rw [decide_eq_false hsame, LaneId.key, laneKey, List.append_assoc, List.append_assoc,
      List.cons_append]
    exact not_belongsToSession_append hsid hlane hsame

theorem belongsToSession_scope {sid : ByteString} {lane : LaneId}
    (hsid : isValidSessionId sid = true) (hlane : lane.IsValid) :
    FenceReceiverRegistry.belongsToSession sid lane.scope = decide (lane.sid = sid) := by
  by_cases hsame : lane.sid = sid
  · subst hsame
    rw [decide_eq_true rfl]
    exact belongsToSession_scopeKey ..
  · rw [decide_eq_false hsame, LaneId.scope, scopeKey, List.append_assoc, List.cons_append]
    exact not_belongsToSession_append hsid hlane hsame

/-! ## Runs -/

inductive Operation where
  | admission (lane : LaneId) (sequence : UInt64)
  | complete (lane : LaneId) (sequence : UInt64) (failure : Option Status)
  | record (lane : LaneId) (sequence : UInt64) (failure : Option Status)
  | malformed (sid : ByteString) (sessionGeneration : FenceUuid) (bufferClass : BufferClass)
      (malformed : FenceLaneMalformed)
  | overflow (lane : LaneId) (sequence : UInt64)
  | erase (sid : ByteString)
  | clear
  deriving DecidableEq

namespace Operation

def sid : Operation → Option ByteString
  | .admission lane _ | .complete lane _ _ | .record lane _ _ | .overflow lane _ => some lane.sid
  | .malformed sid _ _ _ | .erase sid => some sid
  | .clear => none

/-- The lane that a call is about. -/
def lane : Operation → Option LaneId
  | .admission lane _ | .complete lane _ _ | .record lane _ _ | .overflow lane _ => some lane
  | .malformed sid sessionGeneration bufferClass part =>
      part.publisherUuid.map fun publisherUuid =>
        ⟨sid, sessionGeneration, bufferClass, publisherUuid⟩
  | .erase _ | .clear => none

/-- The lane whose publisher was observed: of a sample, well formed or not, or of an overflow. -/
def observes : Operation → Option LaneId
  | .complete _ _ _ => none
  | operation => operation.lane

/-- Whether the lanes of a session are dropped. -/
def drops (sid : ByteString) : Operation → Bool
  | .erase other => other == sid
  | .clear => true
  | _ => false

def IsValid (operation : Operation) : Prop :=
  ∀ sid, operation.sid = some sid → isValidSessionId sid = true

end Operation

/-- A call, with the allocations that succeed in it. -/
abbrev Action := Allocations × Operation

namespace FenceReceiverRegistry

/-- A call that returns nothing counts as accepted. -/
def perform (registry : FenceReceiverRegistry) (action : Action) : Call Bool :=
  match action.2 with
  | .admission ⟨sid, sessionGeneration, bufferClass, publisherUuid⟩ sequence =>
      registry.admitBufferObservation action.1 sid sessionGeneration bufferClass publisherUuid
        sequence
  | .complete ⟨sid, sessionGeneration, bufferClass, publisherUuid⟩ sequence failure =>
      let call := registry.completeBufferObservation action.1 sid sessionGeneration bufferClass
        publisherUuid sequence failure
      ⟨call.registry, call.returned.map fun _ => true⟩
  | .record ⟨sid, sessionGeneration, bufferClass, publisherUuid⟩ sequence failure =>
      registry.recordBufferObservation action.1 sid sessionGeneration bufferClass publisherUuid
        sequence failure
  | .malformed sid sessionGeneration bufferClass malformed =>
      registry.recordMalformedBuffer action.1 sid sessionGeneration bufferClass malformed
  | .overflow ⟨sid, sessionGeneration, bufferClass, publisherUuid⟩ sequence =>
      registry.recordBufferOverflow action.1 sid sessionGeneration bufferClass publisherUuid
        sequence
  | .erase sid => ⟨registry.eraseSession sid, some true⟩
  | .clear => ⟨registry.clear, some true⟩

def run (registry : FenceReceiverRegistry) (actions : List Action) : FenceReceiverRegistry :=
  actions.foldl (fun registry action => (registry.perform action).registry) registry

def find (registry : FenceReceiverRegistry) (lane : LaneId) : Option FenceLaneState :=
  registry.lanes.find lane.key

def isPoisoned (registry : FenceReceiverRegistry) (lane : LaneId) : Bool :=
  registry.poisonedScopes.find lane.scope == some true

def size (registry : FenceReceiverRegistry) : ℕ := registry.lanes.entries.length

def evaluate (registry : FenceReceiverRegistry) (lane : LaneId) (durability : AckDurability)
    (throughSequence : UInt64) : AckResultV1 :=
  registry.evaluateBuffer lane.sid lane.sessionGeneration lane.bufferClass lane.publisherUuid
    durability throughSequence

/-- A call that observed a lane and was refused because there was no place for it. -/
def Refuses (registry : FenceReceiverRegistry) (action : Action) (lane : LaneId) : Prop :=
  action.2.observes = some lane ∧ registry.find lane = none ∧ registry.size = registry.capacity ∧
    (registry.perform action).returned = some false

end FenceReceiverRegistry

/-! ## What one call changes -/

/-- Nothing changed but one lane and the mark of its scope, which is at most set. -/
structure Touches (lane : LaneId) (registry next : FenceReceiverRegistry) : Prop where
  capacity : next.capacity = registry.capacity
  lanes : ∀ key, key ≠ lane.key → next.lanes.find key = registry.lanes.find key
  scopes : ∀ key, key ≠ lane.scope →
    next.poisonedScopes.find key = registry.poisonedScopes.find key
  mark : next.poisonedScopes.find lane.scope = registry.poisonedScopes.find lane.scope ∨
    next.poisonedScopes.find lane.scope = some true
  size : registry.size ≤ registry.capacity → next.size ≤ next.capacity

section Calls

variable {lane : LaneId} {registry next later : FenceReceiverRegistry}

theorem touches_refl (lane : LaneId) (registry : FenceReceiverRegistry) :
    Touches lane registry registry :=
  ⟨rfl, fun _ _ => rfl, fun _ _ => rfl, .inl rfl, fun h => h⟩

theorem Touches.trans (hfirst : Touches lane registry next) (hsecond : Touches lane next later) :
    Touches lane registry later where
  capacity := hsecond.capacity.trans hfirst.capacity
  lanes key hkey := (hsecond.lanes key hkey).trans (hfirst.lanes key hkey)
  scopes key hkey := (hsecond.scopes key hkey).trans (hfirst.scopes key hkey)
  mark := by
    rcases hsecond.mark with hsame | hset
    · rw [hsame]
      exact hfirst.mark
    · exact .inr hset
  size hsize := hsecond.size (hfirst.size hsize)

theorem Touches.poisoned (htouches : Touches lane registry next) {key : ByteString}
    (hpoisoned : registry.poisonedScopes.find key = some true) :
    next.poisonedScopes.find key = some true := by
  by_cases hkey : key = lane.scope
  · subst hkey
    rcases htouches.mark with hsame | hset
    · exact hsame.trans hpoisoned
    · exact hset
  · exact (htouches.scopes key hkey).trans hpoisoned

/-- A lane that is there, or one that there is a place for. -/
theorem touches_insertLane (state : FenceLaneState)
    (hplace : (registry.find lane).isSome = true ∨ registry.size ≠ registry.capacity) :
    Touches lane registry
      { registry with lanes := registry.lanes.insertOrAssign lane.key state } where
  capacity := rfl
  lanes key hkey := by rw [SortedMap.find_insertOrAssign, if_neg hkey]
  scopes _ _ := rfl
  mark := .inl rfl
  size hsize := by
    simp only [FenceReceiverRegistry.size] at hsize hplace ⊢
    rcases hplace with hfound | hroom
    · obtain ⟨old, hold⟩ := Option.isSome_iff_exists.mp hfound
      rwa [SortedMap.length_insertOrAssign_of_find hold]
    · have hle := SortedMap.length_insertEntry_le lane.key state registry.lanes.entries
      simp only [SortedMap.insertOrAssign]
      omega

theorem touches_poison (lane : LaneId) (registry : FenceReceiverRegistry) : Touches lane registry
    { registry with
      poisonedScopes := registry.poisonedScopes.insertOrAssign lane.scope true } where
  capacity := rfl
  lanes _ _ := rfl
  scopes key hkey := by rw [SortedMap.find_insertOrAssign, if_neg hkey]
  mark := .inr (by rw [SortedMap.find_insertOrAssign, if_pos rfl])
  size hsize := hsize

variable {Value : Type} (allocations : Allocations) (lane)

theorem touches_tell (refused : Value) (operation : FenceLaneState → LaneState.Call Value) :
    Touches lane registry (registry.tell allocations lane.sid lane.sessionGeneration
      lane.bufferClass lane.publisherUuid refused operation).registry := by
  simp only [FenceReceiverRegistry.tell, FenceReceiverRegistry.findOrEmplace]
  cases allocations.entry with
  | exhausted => exact touches_refl lane registry
  | available =>
      cases hfind : registry.find lane with
      | some state =>
          have hlane := hfind
          simp only [FenceReceiverRegistry.find, LaneId.key] at hlane
          simp only [hlane]
          exact touches_insertLane _ (.inl (by simp [hfind]))
      | none =>
          have hlane := hfind
          simp only [FenceReceiverRegistry.find, LaneId.key] at hlane
          simp only [hlane]
          split_ifs with hfull
          · exact touches_poison lane registry
          · refine (touches_insertLane .empty (.inr hfull)).trans (touches_insertLane _ (.inl ?_))
            simp [FenceReceiverRegistry.find, SortedMap.find_insertOrAssign, LaneId.key]

theorem touches_completeBufferObservation (sequence : UInt64) (failure : Option Status) :
    Touches lane registry (registry.completeBufferObservation allocations lane.sid
      lane.sessionGeneration lane.bufferClass lane.publisherUuid sequence failure).registry := by
  simp only [FenceReceiverRegistry.completeBufferObservation]
  cases allocations.entry with
  | exhausted => exact touches_refl lane registry
  | available =>
      cases hfind : registry.find lane with
      | none =>
          simp only [FenceReceiverRegistry.find, LaneId.key] at hfind
          simp only [hfind]
          exact touches_refl lane registry
      | some state =>
          have hlane := hfind
          simp only [FenceReceiverRegistry.find, LaneId.key] at hlane
          simp only [hlane]
          exact touches_insertLane _ (.inl (by simp [hfind]))

theorem touches_recordBufferObservation (sequence : UInt64) (failure : Option Status) :
    Touches lane registry (registry.recordBufferObservation allocations lane.sid
      lane.sessionGeneration lane.bufferClass lane.publisherUuid sequence failure).registry := by
  have hadmit : Touches lane registry (registry.admitBufferObservation allocations lane.sid
      lane.sessionGeneration lane.bufferClass lane.publisherUuid sequence).registry :=
    touches_tell lane allocations _ _
  unfold FenceReceiverRegistry.recordBufferObservation
  split
  · rename_i admitted hcall
    rw [hcall] at hadmit
    exact hadmit.trans (touches_completeBufferObservation lane allocations sequence failure)
  · exact hadmit

end Calls

section Steps

open FenceReceiverRegistry

variable {registry : FenceReceiverRegistry} {action : Action} {lane : LaneId}

/-- A call about a lane touches no other. -/
theorem touches_perform (hlane : action.2.lane = some lane) :
    Touches lane registry (registry.perform action).registry := by
  obtain ⟨allocations, operation⟩ := action
  cases operation with
  | admission target sequence =>
      obtain rfl := Option.some.inj hlane
      exact touches_tell _ allocations _ _
  | complete target sequence failure =>
      obtain rfl := Option.some.inj hlane
      exact touches_completeBufferObservation _ allocations sequence failure
  | record target sequence failure =>
      obtain rfl := Option.some.inj hlane
      exact touches_recordBufferObservation _ allocations sequence failure
  | malformed sid sessionGeneration bufferClass malformed =>
      obtain ⟨publisherUuid, hpublisher, rfl⟩ := Option.map_eq_some_iff.mp hlane
      simp only [perform, recordMalformedBuffer, hpublisher]
      exact touches_tell ⟨sid, sessionGeneration, bufferClass, publisherUuid⟩ allocations _ _
  | overflow target sequence =>
      obtain rfl := Option.some.inj hlane
      exact touches_tell _ allocations _ _
  | erase sid => cases hlane
  | clear => cases hlane

/-- What a call about no lane does. -/
theorem perform_of_no_lane (hlane : action.2.lane = none) :
    (registry.perform action).registry = registry ∨
      (∃ sid, action.2 = .erase sid ∧
        (registry.perform action).registry = registry.eraseSession sid) ∨
      (action.2 = .clear ∧ (registry.perform action).registry = registry.clear) := by
  obtain ⟨allocations, operation⟩ := action
  cases operation with
  | malformed sid sessionGeneration bufferClass malformed =>
      left
      have hpublisher : malformed.publisherUuid = none := Option.map_eq_none_iff.mp hlane
      simp only [perform, recordMalformedBuffer, hpublisher]
  | erase sid => exact .inr (.inl ⟨sid, rfl, rfl⟩)
  | clear => exact .inr (.inr ⟨rfl, rfl⟩)
  | admission target sequence => cases hlane
  | complete target sequence failure => cases hlane
  | record target sequence failure => cases hlane
  | overflow target sequence => cases hlane

/-- An erasure is exact: the lanes of that session go, and no others. -/
theorem find_eraseSession {sid : ByteString} (hsid : isValidSessionId sid = true)
    (hlane : lane.IsValid) :
    (registry.eraseSession sid).find lane =
      if lane.sid = sid then none else registry.find lane := by
  simp only [find, eraseSession, SortedMap.find_eraseIf, belongsToSession_key hsid hlane,
    decide_eq_true_eq]

theorem mark_eraseSession {sid : ByteString} (hsid : isValidSessionId sid = true)
    (hlane : lane.IsValid) :
    (registry.eraseSession sid).poisonedScopes.find lane.scope =
      if lane.sid = sid then none else registry.poisonedScopes.find lane.scope := by
  simp only [eraseSession, SortedMap.find_eraseIf, belongsToSession_scope hsid hlane,
    decide_eq_true_eq]

theorem evaluate_of_absent (habsent : registry.find lane = none) (durability : AckDurability)
    (throughSequence : UInt64) :
    (registry.evaluate lane durability throughSequence).status = .ok ↔
      throughSequence = 0 ∧ registry.isPoisoned lane = false := by
  simp only [find, LaneId.key] at habsent
  simp only [FenceReceiverRegistry.evaluate, evaluateBuffer, habsent, isPoisoned, LaneId.scope, fenceResult]
  by_cases hthrough : throughSequence = 0
  · subst hthrough
    by_cases hpoisoned : registry.poisonedScopes.find
        (scopeKey lane.sid lane.sessionGeneration lane.bufferClass) = some true
    · simp [hpoisoned]
    · simp [hpoisoned]
  · have hpos : throughSequence > 0 := UInt64.pos_iff_ne_zero.mpr hthrough
    simp [hthrough, hpos]

/-- What a table without a place answers to a new lane. -/
theorem tell_full (lane : LaneId) (allocations : Allocations) (habsent : registry.find lane = none)
    (hfull : registry.size = registry.capacity)
    (operation : FenceLaneState → LaneState.Call Bool) :
    let call := registry.tell allocations lane.sid lane.sessionGeneration lane.bufferClass
      lane.publisherUuid false operation
    call.returned = none ∨ (call.returned = some false ∧ call.registry.isPoisoned lane = true) := by
  simp only [find, LaneId.key] at habsent
  simp only [size] at hfull
  simp only [FenceReceiverRegistry.tell, findOrEmplace, habsent, hfull, if_true]
  cases allocations.entry with
  | exhausted => exact .inl rfl
  | available =>
      right
      simp [isPoisoned, SortedMap.find_insertOrAssign, LaneId.scope]

/-- A refused publisher leaves its mark. -/
theorem isPoisoned_of_refuses (hrefuses : registry.Refuses action lane) :
    (registry.perform action).registry.isPoisoned lane = true := by
  obtain ⟨hobserves, habsent, hfull, hreturned⟩ := hrefuses
  obtain ⟨allocations, operation⟩ := action
  cases operation with
  | admission target sequence =>
      obtain rfl := Option.some.inj hobserves
      rcases tell_full target allocations habsent hfull _ with hthrew | ⟨-, hpoisoned⟩
      · exact nomatch hthrew.symm.trans hreturned
      · exact hpoisoned
  | complete target sequence failure => cases hobserves
  | record target sequence failure =>
      obtain rfl := Option.some.inj hobserves
      have hadmit := tell_full target allocations habsent hfull
        fun state => admitSequence allocations.diagnostic state sequence
      simp only [perform, recordBufferObservation] at hreturned ⊢
      split at hreturned
      · rename_i admitted hcall
        simp only [admitBufferObservation] at hcall
        simp [hcall] at hadmit
      · rename_i hadmitted
        rcases hadmit with hthrew | ⟨-, hpoisoned⟩
        · exact nomatch hthrew.symm.trans hreturned
        · exact hpoisoned
  | malformed sid sessionGeneration bufferClass malformed =>
      obtain ⟨publisherUuid, hpublisher, rfl⟩ := Option.map_eq_some_iff.mp hobserves
      simp only [perform, recordMalformedBuffer, hpublisher] at hreturned ⊢
      rcases tell_full ⟨sid, sessionGeneration, bufferClass, publisherUuid⟩ allocations habsent
        hfull _ with hthrew | ⟨-, hpoisoned⟩
      · exact nomatch hthrew.symm.trans hreturned
      · exact hpoisoned
  | overflow target sequence =>
      obtain rfl := Option.some.inj hobserves
      rcases tell_full target allocations habsent hfull _ with hthrew | ⟨-, hpoisoned⟩
      · exact nomatch hthrew.symm.trans hreturned
      · exact hpoisoned
  | erase sid => cases hobserves
  | clear => cases hobserves

end Steps

/-! ## Runs -/

section Runs

open FenceReceiverRegistry

variable {capacity : ℕ} {registry : FenceReceiverRegistry} {action : Action} {lane : LaneId}

/-- What a registry has in it at any time. -/
structure Kept (capacity : ℕ) (registry : FenceReceiverRegistry) : Prop where
  capacity : registry.capacity = capacity
  size : registry.size ≤ registry.capacity
  lanes : ∀ key state, registry.lanes.find key = some state →
    ∃ lane : LaneId, lane.IsValid ∧ key = lane.key
  scopes : ∀ key mark, registry.poisonedScopes.find key = some mark →
    ∃ lane : LaneId, lane.IsValid ∧ key = lane.scope

theorem kept_create (capacity : ℕ) : Kept capacity (create capacity) where
  capacity := rfl
  size := Nat.zero_le _
  lanes _ _ hfind := by cases hfind
  scopes _ _ hfind := by cases hfind

theorem lane_isValid (hvalid : action.2.IsValid) (hlane : action.2.lane = some lane) :
    lane.IsValid := by
  apply hvalid
  obtain ⟨allocations, operation⟩ := action
  cases operation with
  | malformed sid sessionGeneration bufferClass malformed =>
      obtain ⟨publisherUuid, hpublisher, rfl⟩ := Option.map_eq_some_iff.mp hlane
      rfl
  | erase sid => cases hlane
  | clear => cases hlane
  | admission target sequence => exact congrArg (Option.map LaneId.sid) hlane
  | complete target sequence failure => exact congrArg (Option.map LaneId.sid) hlane
  | record target sequence failure => exact congrArg (Option.map LaneId.sid) hlane
  | overflow target sequence => exact congrArg (Option.map LaneId.sid) hlane

theorem Kept.eraseSession (hkept : Kept capacity registry) (sid : ByteString) :
    Kept capacity (registry.eraseSession sid) where
  capacity := hkept.capacity
  size := (List.length_filter_le _ _).trans hkept.size
  lanes key state hfind := by
    simp only [FenceReceiverRegistry.eraseSession, SortedMap.find_eraseIf] at hfind
    split_ifs at hfind
    exact hkept.lanes key state hfind
  scopes key mark hfind := by
    simp only [FenceReceiverRegistry.eraseSession, SortedMap.find_eraseIf] at hfind
    split_ifs at hfind
    exact hkept.scopes key mark hfind

theorem Kept.touched (hkept : Kept capacity registry) {next : FenceReceiverRegistry}
    (hlane : lane.IsValid) (htouches : Touches lane registry next) : Kept capacity next where
  capacity := htouches.capacity.trans hkept.capacity
  size := htouches.size hkept.size
  lanes key state hfind := by
    by_cases hkey : key = lane.key
    · exact ⟨lane, hlane, hkey⟩
    · rw [htouches.lanes key hkey] at hfind
      exact hkept.lanes key state hfind
  scopes key mark hfind := by
    by_cases hkey : key = lane.scope
    · exact ⟨lane, hlane, hkey⟩
    · rw [htouches.scopes key hkey] at hfind
      exact hkept.scopes key mark hfind

theorem Kept.perform (hkept : Kept capacity registry) (hvalid : action.2.IsValid) :
    Kept capacity (registry.perform action).registry := by
  cases hlane : action.2.lane with
  | some lane => exact hkept.touched (lane_isValid hvalid hlane) (touches_perform hlane)
  | none =>
      rcases perform_of_no_lane hlane with hsame | ⟨sid, -, herased⟩ | ⟨-, hcleared⟩
      · rwa [hsame]
      · rw [herased]
        exact hkept.eraseSession sid
      · rw [hcleared]
        exact ⟨hkept.capacity, Nat.zero_le _, fun _ _ hfind => (nomatch hfind),
          fun _ _ hfind => (nomatch hfind)⟩

theorem Kept.run (hkept : Kept capacity registry) (actions : List Action)
    (hvalid : ∀ action ∈ actions, action.2.IsValid) : Kept capacity (registry.run actions) := by
  induction actions generalizing registry with
  | nil => exact hkept
  | cons action actions ih =>
      have hnext := hkept.perform (hvalid action List.mem_cons_self)
      exact ih hnext fun later hlater => hvalid later (List.mem_cons_of_mem _ hlater)

/-- A mark stays while its session is not dropped. -/
theorem isPoisoned_perform (hlane : lane.IsValid) (hvalid : action.2.IsValid)
    (hdrops : action.2.drops lane.sid = false) (hpoisoned : registry.isPoisoned lane = true) :
    (registry.perform action).registry.isPoisoned lane = true := by
  simp only [isPoisoned, beq_iff_eq] at hpoisoned ⊢
  cases htarget : action.2.lane with
  | some target => exact (touches_perform htarget).poisoned hpoisoned
  | none =>
      rcases perform_of_no_lane htarget with hsame | ⟨sid, herase, herased⟩ | ⟨hclear, -⟩
      · rwa [hsame]
      · have hne : lane.sid ≠ sid := by
          rintro rfl
          simp [herase, Operation.drops] at hdrops
        have hsid : isValidSessionId sid = true := hvalid sid (by rw [herase]; rfl)
        rw [herased, mark_eraseSession hsid hlane, if_neg hne]
        exact hpoisoned
      · simp [hclear, Operation.drops] at hdrops

theorem isPoisoned_run (hlane : lane.IsValid) (actions : List Action)
    (hvalid : ∀ action ∈ actions, action.2.IsValid)
    (hdrops : ∀ action ∈ actions, action.2.drops lane.sid = false)
    (hpoisoned : registry.isPoisoned lane = true) :
    (registry.run actions).isPoisoned lane = true := by
  induction actions generalizing registry with
  | nil => exact hpoisoned
  | cons action actions ih =>
      have hnext := isPoisoned_perform hlane (hvalid action List.mem_cons_self)
        (hdrops action List.mem_cons_self) hpoisoned
      exact ih (fun later hlater => hvalid later (List.mem_cons_of_mem _ hlater))
        (fun later hlater => hdrops later (List.mem_cons_of_mem _ hlater)) hnext

/-- Whatever calls a registry has had: a lane is told from every other, by its text and in what a
call does to it; the table keeps to its capacity; dropping a session drops what is its own and
nothing else; and a publisher without a lane is vouched for only if nothing of it is asked about
and no publisher of its scope was refused. -/
theorem receiver_lanes_isolated (capacity : ℕ) (actions : List Action)
    (hvalid : ∀ action ∈ actions, action.2.IsValid) :
    let registry := (create capacity).run actions
    (∀ lane other : LaneId, lane.IsValid → other.IsValid → lane.key = other.key → lane = other) ∧
    (∀ action : Action, ∀ lane other : LaneId, action.2.IsValid → action.2.lane = some lane →
      other.IsValid → other ≠ lane →
      (registry.perform action).registry.find other = registry.find other) ∧
    registry.size ≤ capacity ∧
    (∀ sid, isValidSessionId sid = true →
      (∀ lane : LaneId, lane.IsValid →
        (registry.eraseSession sid).find lane =
          (if lane.sid = sid then none else registry.find lane) ∧
        (registry.eraseSession sid).isPoisoned lane =
          (!decide (lane.sid = sid) && registry.isPoisoned lane)) ∧
      (∀ key state, registry.lanes.find key = some state →
        ∃ lane : LaneId, lane.IsValid ∧ key = lane.key) ∧
      (∀ key mark, registry.poisonedScopes.find key = some mark →
        ∃ lane : LaneId, lane.IsValid ∧ key = lane.scope)) ∧
    (∀ lane : LaneId, registry.find lane = none → ∀ durability throughSequence,
      (registry.evaluate lane durability throughSequence).status = .ok ↔
        throughSequence = 0 ∧ registry.isPoisoned lane = false) ∧
    (∀ action : Action, ∀ lane : LaneId, action.2.IsValid → registry.Refuses action lane →
      ∀ later : List Action, (∀ action ∈ later, action.2.IsValid) →
        (∀ action ∈ later, action.2.drops lane.sid = false) →
        let last := (registry.perform action).registry.run later
        last.find lane = none → ∀ durability throughSequence,
          (last.evaluate lane durability throughSequence).status ≠ .ok) := by
  intro registry
  have hkept : Kept capacity registry := (kept_create capacity).run actions hvalid
  refine ⟨fun _ _ hlane hother => LaneId.eq_of_key hlane hother, ?_, ?_, ?_, ?_, ?_⟩
  · intro action lane other haction hlane hother hne
    refine (touches_perform hlane).lanes other.key fun hkey => hne ?_
    exact LaneId.eq_of_key hother (lane_isValid haction hlane) hkey
  · rw [← hkept.capacity]
    exact hkept.size
  · intro sid hsid
    refine ⟨fun lane hlane => ⟨find_eraseSession hsid hlane, ?_⟩, hkept.lanes, hkept.scopes⟩
    simp only [isPoisoned, mark_eraseSession hsid hlane]
    by_cases hsame : lane.sid = sid
    · simp [hsame]
    · simp [hsame]
  · intro lane habsent durability throughSequence
    exact evaluate_of_absent habsent durability throughSequence
  · intro action lane haction hrefuses later hlater hdrops last habsent durability through hok
    have hlane : lane.IsValid := by
      apply lane_isValid haction
      obtain ⟨allocations, operation⟩ := action
      cases operation with
      | complete target sequence failure => exact nomatch hrefuses.1
      | _ => exact hrefuses.1
    have hpoisoned : last.isPoisoned lane = true :=
      isPoisoned_run hlane later hlater hdrops (isPoisoned_of_refuses hrefuses)
    have hclean := ((evaluate_of_absent habsent durability through).mp hok).2
    exact nomatch hclean.symm.trans hpoisoned

/-- The second publisher of a table for one, which is not vouched for even for what it has not
sent. -/
theorem receiver_lanes_isolated_refused :
    let uuid : FenceUuid := ⟨List.replicate 16 0, rfl⟩
    let first : LaneId := ⟨ascii "s", uuid, .durable, uuid⟩
    let second : LaneId := ⟨ascii "s", uuid, .durable, ⟨List.replicate 16 1, rfl⟩⟩
    let registry := (create 1).run [(.available, .record first 1 none)]
    let last := (registry.perform (.available, .overflow second 1)).registry
    (last.evaluate first .applied 1).status = .ok ∧
      (last.evaluate second .applied 0).status ≠ .ok := by
  intro uuid first second registry last
  have hsid : isValidSessionId (ascii "s") = true := by decide +kernel
  have hisolated := receiver_lanes_isolated 1 [(.available, .record first 1 none)] (by
    intro action haction sid hcall
    obtain rfl := List.mem_singleton.mp haction
    obtain rfl := Option.some.inj hcall
    exact hsid)
  obtain ⟨-, -, -, -, -, hrefused⟩ := hisolated
  refine ⟨by decide +kernel, hrefused (.available, .overflow second 1) second ?_ ?_ [] nofun nofun
    (by decide +kernel) .applied 0⟩
  · intro sid hcall
    obtain rfl := Option.some.inj hcall
    exact hsid
  · exact ⟨rfl, by decide +kernel, by decide +kernel, by decide +kernel⟩

end Runs

end Sitos.Receiver

import Sitos.Core.Segments
import Sitos.Core.SortedMap
import Sitos.Fence.LaneState
import Sitos.Wire.Fence

/-!
# The lanes of a receiver

A receiver keeps one lane for each publisher of each buffer class of each session generation, up
to a capacity.  A publisher that finds no place leaves its mark on the whole scope instead.

A lane is found by a text in which the parts of its key are separated by bars.  No part contains
a bar, so the text starts with the session id and a bar exactly for the lanes of that session.
-/

namespace Sitos.Receiver

open Sitos.AckResult
open Sitos.Bytes
open Sitos.Core
open Sitos.Diagnostic
open Sitos.FenceWire
open Sitos.Key
open Sitos.LaneState
open Sitos.Machine
open Sitos.Segments

def bar : UInt8 := 124

def laneKey (sid : ByteString) (sessionGeneration : FenceUuid) (bufferClass : BufferClass)
    (publisherUuid : FenceUuid) : ByteString :=
  sid ++ bar :: formatFenceUuid sessionGeneration ++ bar :: bufferClassName bufferClass ++
    bar :: formatFenceUuid publisherUuid

def scopeKey (sid : ByteString) (sessionGeneration : FenceUuid) (bufferClass : BufferClass) :
    ByteString :=
  sid ++ bar :: formatFenceUuid sessionGeneration ++ bar :: bufferClassName bufferClass

structure FenceReceiverRegistry where
  capacity : ℕ
  lanes : SortedMap ByteString FenceLaneState
  poisonedScopes : SortedMap ByteString Bool

/-- `FenceLaneMalformed`: what could be read of a malformed attachment. -/
structure FenceLaneMalformed where
  publisherUuid : Option FenceUuid
  sequence : Option UInt64
  deriving DecidableEq

/-- Which allocations of a call succeed: the texts and the table entries, and the diagnostic of a
first failure. -/
structure Allocations where
  entry : Memory
  diagnostic : Memory

def Allocations.available : Allocations := ⟨.available, .available⟩

/-- What a call leaves behind, and what it returned unless it left by exception. -/
structure Call (Value : Type) where
  registry : FenceReceiverRegistry
  returned : Option Value

inductive Found where
  | threw
  | full
  | lane (lane : FenceLaneState)

namespace FenceReceiverRegistry

variable (registry : FenceReceiverRegistry) (allocations : Allocations)
variable (sid : ByteString) (sessionGeneration : FenceUuid) (bufferClass : BufferClass)

/-- The lane of a publisher, which is made if there is a place for it. -/
def findOrEmplace (publisherUuid : FenceUuid) : FenceReceiverRegistry × Found :=
  let key := laneKey sid sessionGeneration bufferClass publisherUuid
  match allocations.entry with
  | .exhausted => (registry, .threw)
  | .available =>
      match registry.lanes.find key with
      | some lane => (registry, .lane lane)
      | none =>
          if registry.lanes.entries.length = registry.capacity then
            ({ registry with
                poisonedScopes := registry.poisonedScopes.insertOrAssign
                  (scopeKey sid sessionGeneration bufferClass) true }, .full)
          else ({ registry with lanes := registry.lanes.insertOrAssign key .empty }, .lane .empty)

/-- Tells a lane something; `refused` is returned when there is no place for the lane. -/
def tell {Value : Type} (publisherUuid : FenceUuid) (refused : Value)
    (operation : FenceLaneState → LaneState.Call Value) : Call Value :=
  match registry.findOrEmplace allocations sid sessionGeneration bufferClass publisherUuid with
  | (registry, .threw) => ⟨registry, none⟩
  | (registry, .full) => ⟨registry, some refused⟩
  | (registry, .lane lane) =>
      let key := laneKey sid sessionGeneration bufferClass publisherUuid
      let call := operation lane
      ⟨{ registry with lanes := registry.lanes.insertOrAssign key call.lane }, call.returned⟩

def admitBufferObservation (publisherUuid : FenceUuid) (sequence : UInt64) : Call Bool :=
  registry.tell allocations sid sessionGeneration bufferClass publisherUuid false
    fun lane => admitSequence allocations.diagnostic lane sequence

def completeBufferObservation (publisherUuid : FenceUuid) (sequence : UInt64)
    (failure : Option Status) : Call Unit :=
  let key := laneKey sid sessionGeneration bufferClass publisherUuid
  match allocations.entry with
  | .exhausted => ⟨registry, none⟩
  | .available =>
      match registry.lanes.find key with
      | none => ⟨registry, some ()⟩
      | some lane =>
          let call := complete allocations.diagnostic lane sequence failure
          ⟨{ registry with lanes := registry.lanes.insertOrAssign key call.lane }, call.returned⟩

/-- Admits the observation and, under a second lock, completes it. -/
def recordBufferObservation (publisherUuid : FenceUuid) (sequence : UInt64)
    (failure : Option Status) : Call Bool :=
  match registry.admitBufferObservation allocations sid sessionGeneration bufferClass publisherUuid
      sequence with
  | ⟨registry, some true⟩ =>
      let call := registry.completeBufferObservation allocations sid sessionGeneration bufferClass
        publisherUuid sequence failure
      ⟨call.registry, call.returned.map fun _ => true⟩
  | refused => refused

def recordMalformedBuffer (malformed : FenceLaneMalformed) : Call Bool :=
  match malformed.publisherUuid with
  | none => ⟨registry, some false⟩
  | some publisherUuid =>
      registry.tell allocations sid sessionGeneration bufferClass publisherUuid false fun lane =>
        let call := recordMalformed allocations.diagnostic lane malformed.sequence
        ⟨call.lane, call.returned.map fun _ => true⟩

def recordBufferOverflow (publisherUuid : FenceUuid) (sequence : UInt64) : Call Bool :=
  registry.tell allocations sid sessionGeneration bufferClass publisherUuid false fun lane =>
    let call := recordOverflow allocations.diagnostic lane sequence
    ⟨call.lane, call.returned.map fun _ => true⟩

def evaluateBuffer (publisherUuid : FenceUuid) (durability : AckDurability)
    (throughSequence : UInt64) : AckResultV1 :=
  let result := fenceResult .ok durability throughSequence
  let exceeded := sanitizeFenceDiagnostic (ascii "buffer receiver lane capacity exceeded")
  let poisoned :=
    registry.poisonedScopes.find (scopeKey sid sessionGeneration bufferClass) = some true
  match registry.lanes.find (laneKey sid sessionGeneration bufferClass publisherUuid) with
  | some lane => evaluate lane throughSequence durability
  | none =>
      if throughSequence > 0 then
        { result with
          status := .outcomeUnknown
          failedSequence := 1
          message :=
            if poisoned then exceeded
            else sanitizeFenceDiagnostic (ascii "covered buffer sequence was not observed") }
      else if poisoned then { result with status := .outcomeUnknown, message := exceeded }
      else result

/-- Whether a text is a session id and a bar, and something after them or not. -/
def belongsToSession (key : ByteString) : Bool :=
  key.length > sid.length && key.take sid.length == sid && key[sid.length]? == some bar

def eraseSession : FenceReceiverRegistry :=
  { registry with
    lanes := registry.lanes.eraseIf (belongsToSession sid)
    poisonedScopes := registry.poisonedScopes.eraseIf (belongsToSession sid) }

def clear : FenceReceiverRegistry :=
  { registry with lanes := .empty, poisonedScopes := .empty }

def create (capacity : ℕ) : FenceReceiverRegistry := ⟨capacity, .empty, .empty⟩

end FenceReceiverRegistry

/-! ## What a call changes -/

section Frame

variable {registry next later : FenceReceiverRegistry} {sid : ByteString}

open FenceReceiverRegistry

theorem belongsToSession_append (sid rest : ByteString) :
    belongsToSession sid (sid ++ bar :: rest) = true := by
  simp [belongsToSession]

theorem belongsToSession_laneKey (sid : ByteString) (sessionGeneration : FenceUuid)
    (bufferClass : BufferClass) (publisherUuid : FenceUuid) :
    belongsToSession sid (laneKey sid sessionGeneration bufferClass publisherUuid) = true := by
  rw [laneKey, List.append_assoc, List.append_assoc, List.cons_append]
  exact belongsToSession_append sid _

theorem belongsToSession_scopeKey (sid : ByteString) (sessionGeneration : FenceUuid)
    (bufferClass : BufferClass) :
    belongsToSession sid (scopeKey sid sessionGeneration bufferClass) = true := by
  rw [scopeKey, List.append_assoc, List.cons_append]
  exact belongsToSession_append sid _

theorem bar_not_mem_of_isValidSessionId (hsid : isValidSessionId sid = true) : bar ∉ sid := by
  intro hbar
  have hall : sid.all isValidIdChar = true := by
    simp only [isValidSessionId, isValidId, Bool.and_eq_true] at hsid
    exact hsid.2
  have hchar := List.all_eq_true.mp hall bar hbar
  revert hchar
  decide

/-- A lane belongs to no other session. -/
theorem not_belongsToSession_append {other rest : ByteString}
    (hsid : isValidSessionId sid = true) (hother : isValidSessionId other = true)
    (hne : other ≠ sid) : belongsToSession sid (other ++ bar :: rest) = false := by
  by_contra hbelongs
  simp only [belongsToSession, Bool.not_eq_false, Bool.and_eq_true, decide_eq_true_eq,
    beq_iff_eq] at hbelongs
  obtain ⟨⟨-, htake⟩, hbar⟩ := hbelongs
  obtain ⟨rest', hrest'⟩ : ∃ rest', other ++ bar :: rest = sid ++ bar :: rest' := by
    refine ⟨(other ++ bar :: rest).drop (sid.length + 1), ?_⟩
    have hsplit := List.take_append_drop sid.length (other ++ bar :: rest)
    rw [htake, List.drop_eq_getElem?_toList_append, hbar] at hsplit
    simpa using hsplit.symm
  exact hne (append_cons_inj (bar_not_mem_of_isValidSessionId hother)
    (bar_not_mem_of_isValidSessionId hsid) hrest').1

/-- Nothing changed but lanes and scopes of one session. -/
structure SameElsewhere (sid : ByteString) (registry next : FenceReceiverRegistry) : Prop where
  capacity : next.capacity = registry.capacity
  lanes : ∀ key, belongsToSession sid key = false → next.lanes.find key = registry.lanes.find key
  poisonedScopes : ∀ key, belongsToSession sid key = false →
    next.poisonedScopes.find key = registry.poisonedScopes.find key

theorem sameElsewhere_refl (sid : ByteString) (registry : FenceReceiverRegistry) :
    SameElsewhere sid registry registry :=
  ⟨rfl, fun _ _ => rfl, fun _ _ => rfl⟩

theorem SameElsewhere.trans (hfirst : SameElsewhere sid registry next)
    (hsecond : SameElsewhere sid next later) : SameElsewhere sid registry later where
  capacity := hsecond.capacity.trans hfirst.capacity
  lanes key hkey := (hsecond.lanes key hkey).trans (hfirst.lanes key hkey)
  poisonedScopes key hkey :=
    (hsecond.poisonedScopes key hkey).trans (hfirst.poisonedScopes key hkey)

theorem sameElsewhere_insertLane {key : ByteString} (hkey : belongsToSession sid key = true)
    (lane : FenceLaneState) : SameElsewhere sid registry
      { registry with lanes := registry.lanes.insertOrAssign key lane } where
  capacity := rfl
  lanes other hother := by
    have hne : other ≠ key := by
      rintro rfl
      rw [hkey] at hother
      cases hother
    rw [SortedMap.find_insertOrAssign, if_neg hne]
  poisonedScopes _ _ := rfl

theorem sameElsewhere_insertScope {key : ByteString} (hkey : belongsToSession sid key = true) :
    SameElsewhere sid registry
      { registry with poisonedScopes := registry.poisonedScopes.insertOrAssign key true } where
  capacity := rfl
  lanes _ _ := rfl
  poisonedScopes other hother := by
    have hne : other ≠ key := by
      rintro rfl
      rw [hkey] at hother
      cases hother
    rw [SortedMap.find_insertOrAssign, if_neg hne]

section Calls

variable (allocations : Allocations) (sessionGeneration : FenceUuid) (bufferClass : BufferClass)

theorem sameElsewhere_tell {Value : Type} (publisherUuid : FenceUuid) (refused : Value)
    (operation : FenceLaneState → LaneState.Call Value) : SameElsewhere sid registry
      (registry.tell allocations sid sessionGeneration bufferClass publisherUuid refused
        operation).registry := by
  have hlane := belongsToSession_laneKey sid sessionGeneration bufferClass publisherUuid
  simp only [FenceReceiverRegistry.tell, findOrEmplace]
  cases allocations.entry with
  | exhausted => exact sameElsewhere_refl sid registry
  | available =>
      cases registry.lanes.find (laneKey sid sessionGeneration bufferClass publisherUuid) with
      | some lane => exact sameElsewhere_insertLane hlane _
      | none =>
          simp only
          split_ifs
          · exact sameElsewhere_insertScope (belongsToSession_scopeKey sid _ _)
          · exact (sameElsewhere_insertLane hlane _).trans (sameElsewhere_insertLane hlane _)

theorem sameElsewhere_completeBufferObservation (publisherUuid : FenceUuid) (sequence : UInt64)
    (failure : Option Status) : SameElsewhere sid registry
      (registry.completeBufferObservation allocations sid sessionGeneration bufferClass
        publisherUuid sequence failure).registry := by
  simp only [completeBufferObservation]
  cases allocations.entry with
  | exhausted => exact sameElsewhere_refl sid registry
  | available =>
      cases registry.lanes.find (laneKey sid sessionGeneration bufferClass publisherUuid) with
      | none => exact sameElsewhere_refl sid registry
      | some lane =>
          exact sameElsewhere_insertLane (belongsToSession_laneKey sid _ _ publisherUuid) _

theorem sameElsewhere_recordMalformedBuffer (malformed : FenceLaneMalformed) :
    SameElsewhere sid registry (registry.recordMalformedBuffer allocations sid sessionGeneration
      bufferClass malformed).registry := by
  unfold recordMalformedBuffer
  cases malformed.publisherUuid with
  | none => exact sameElsewhere_refl sid registry
  | some publisherUuid => exact sameElsewhere_tell ..

end Calls

theorem SameElsewhere.eraseSession (hsame : SameElsewhere sid registry next) :
    next.eraseSession sid = registry.eraseSession sid := by
  have hlanes : next.lanes.eraseIf (belongsToSession sid) =
      registry.lanes.eraseIf (belongsToSession sid) := by
    apply SortedMap.ext_find
    intro key
    rw [SortedMap.find_eraseIf, SortedMap.find_eraseIf]
    split_ifs with hkey
    · rfl
    · exact hsame.lanes key (by simpa using hkey)
  have hscopes : next.poisonedScopes.eraseIf (belongsToSession sid) =
      registry.poisonedScopes.eraseIf (belongsToSession sid) := by
    apply SortedMap.ext_find
    intro key
    rw [SortedMap.find_eraseIf, SortedMap.find_eraseIf]
    split_ifs with hkey
    · rfl
    · exact hsame.poisonedScopes key (by simpa using hkey)
  rw [FenceReceiverRegistry.eraseSession, hlanes, hscopes, hsame.capacity]
  rfl

end Frame

end Sitos.Receiver

import Sitos.Client.BufferPublisherFence
import Sitos.Wire.KeySpace

/-!
# Runs of a buffer publisher

Any number of calls one after the other, from a publisher that was just opened.  What the transport
is sent follows one lane: data carries consecutive sequences, and a marker covers the data before
it.  A receipt is for exactly the data before its marker, and a marker without a receipt, or a
generation seen replaced, is the end of the publisher.
-/

namespace Sitos.BufferPublisher

open Sitos.AckClient
open Sitos.AckCodec
open Sitos.AckResult
open Sitos.Bytes
open Sitos.FenceWire
open Sitos.Key
open Sitos.Token
open FencePublisher

variable {Cause : Type} {binding : Binding}

/-! ## What is sent -/

/-- The lane fields of the data among what was sent. -/
def dataLanes (sent : List Sent) : List FenceLaneMetadata :=
  sent.filterMap fun
    | .put _ _ _ options => options.fenceLane
    | .polled _ => none

/-- The next data of a lane that has had `count`. -/
def IsData (binding : Binding) (count : ℕ) (key encodingId : ByteString) (options : PutOptions) :
    Prop :=
  ∃ userKey sequence, options = ⟨none, some ⟨binding.publisherUuid, sequence⟩⟩ ∧
    sequence.toNat = count + 1 ∧ encodingId = ascii "zenoh/bytes" ∧
    buildBufferKey binding.keyPrefix binding.sid binding.bufferClass userKey = some key

/-- A marker that covers all of `count` data. -/
def IsMarker (binding : Binding) (count : ℕ) (key payload encodingId : ByteString)
    (options : PutOptions) : Prop :=
  ∃ token durability through, options = ⟨some token, none⟩ ∧ through.toNat = count ∧
    payload = kFenceMarker ∧ encodingId = kSitosV1Fence ∧
    buildBufferFenceMarkerKey binding.keyPrefix binding.sid binding.receiverGeneration
      binding.bufferClass binding.publisherUuid durability through = some key

/-- What is sent continues a lane that has had `count` data. -/
def Follows (binding : Binding) : ℕ → List Sent → Prop
  | _, [] => True
  | count, .polled _ :: rest => Follows binding count rest
  | count, .put key payload encodingId options :: rest =>
      (IsData binding count key encodingId options ∧ Follows binding (count + 1) rest) ∨
        (IsMarker binding count key payload encodingId options ∧ Follows binding count rest)

section Lane

variable {count : ℕ} {first second : List Sent}

theorem dataLanes_append : dataLanes (first ++ second) = dataLanes first ++ dataLanes second :=
  List.filterMap_append

theorem Follows.append (hfirst : Follows binding count first)
    (hsecond : Follows binding (count + (dataLanes first).length) second) :
    Follows binding count (first ++ second) := by
  induction first generalizing count with
  | nil => exact hsecond
  | cons sent first ih =>
      cases sent with
      | polled event => exact ih hfirst hsecond
      | put key payload encodingId options =>
          rcases hfirst with ⟨hdata, hrest⟩ | ⟨hmarker, hrest⟩
          · refine .inl ⟨hdata, ih hrest ?_⟩
            obtain ⟨userKey, sequence, rfl, -⟩ := hdata
            have hlength : count + (dataLanes (.put key payload encodingId
                ⟨none, some ⟨binding.publisherUuid, sequence⟩⟩ :: first)).length =
                count + 1 + (dataLanes first).length := by
              simp only [dataLanes, List.filterMap_cons, List.length_cons]
              omega
            rwa [hlength] at hsecond
          · refine .inr ⟨hmarker, ih hrest ?_⟩
            obtain ⟨token, durability, through, rfl, -⟩ := hmarker
            exact hsecond

/-- Where a lane stands after the first part of what is sent. -/
theorem Follows.of_append (hall : Follows binding count (first ++ second)) :
    Follows binding (count + (dataLanes first).length) second := by
  induction first generalizing count with
  | nil => exact hall
  | cons sent first ih =>
      cases sent with
      | polled event => exact ih hall
      | put key payload encodingId options =>
          rcases hall with ⟨hdata, hrest⟩ | ⟨hmarker, hrest⟩
          · have hlater := ih hrest
            obtain ⟨userKey, sequence, rfl, -⟩ := hdata
            have hlength : count + (dataLanes (.put key payload encodingId
                ⟨none, some ⟨binding.publisherUuid, sequence⟩⟩ :: first)).length =
                count + 1 + (dataLanes first).length := by
              simp only [dataLanes, List.filterMap_cons, List.length_cons]
              omega
            rwa [hlength]
          · have hlater := ih hrest
            obtain ⟨token, durability, through, rfl, -⟩ := hmarker
            exact hlater

theorem follows_polled (count : ℕ) (events : List AckClient.Event) :
    Follows binding count (events.map .polled) := by
  induction events with
  | nil => trivial
  | cons event events ih => exact ih

theorem dataLanes_polled (events : List AckClient.Event) :
    dataLanes (events.map .polled) = [] := by
  induction events with
  | nil => rfl
  | cons event events ih => exact ih

end Lane

/-! ## What a call does -/

/-- What a call leaves of the publisher. -/
structure Advances (binding : Binding) (publisher next : FencePublisher Cause)
    (sent : List Sent) : Prop where
  ready : Ready next
  follows : Follows binding publisher.lastSequence.toNat sent
  last : next.lastSequence.toNat = publisher.lastSequence.toNat + (dataLanes sent).length

theorem Advances.quiet {publisher next : FencePublisher Cause} (hready : Ready next)
    (hlast : next.lastSequence = publisher.lastSequence) : Advances binding publisher next [] where
  ready := hready
  follows := trivial
  last := by simp [dataLanes, hlast]

section Calls

variable {publisher next : FencePublisher Cause} {entry : Entry Cause} {call : Call Cause}

theorem push_closed (key value : ByteString) (lane : Lane Cause)
    (hclosed : publisher.acceptingOperations = false) :
    push binding publisher key value lane = (publisher, ⟨[], .error kDisconnected⟩) := by
  simp [push, hclosed]

theorem fence_closed (durability : FenceDurability) (timeout : ℤ) (link : FenceLink Cause)
    (hclosed : publisher.acceptingOperations = false) :
    fence binding publisher durability timeout link =
      (publisher, ⟨[], some (.error kDisconnected)⟩) := by
  simp [fence, hclosed]

theorem push_advances (hready : Ready publisher) (key value : ByteString) (lane : Lane Cause) :
    Advances binding publisher (push binding publisher key value lane).1
      (push binding publisher key value lane).2.sent := by
  cases hopen : publisher.acceptingOperations with
  | false =>
      rw [push_closed key value lane hopen]
      exact .quiet hready rfl
  | true =>
      cases hkey : buildBufferKey binding.keyPrefix binding.sid binding.bufferClass key with
      | none =>
          simp only [push, hopen, Bool.not_true, Bool.false_eq_true, if_false, hkey]
          exact .quiet hready rfl
      | some fullKey =>
          simp only [push, hopen, Bool.not_true, Bool.false_eq_true, if_false, hkey]
          have hsubmits := @submitData_submits _ binding publisher fullKey value
            (ascii "zenoh/bytes") lane hready
          generalize publisher.submitData binding fullKey value (ascii "zenoh/bytes") lane = done
            at hsubmits
          obtain ⟨next, done⟩ := done
          have hdata : publisher.lastSequence ≠ 0xFFFFFFFFFFFFFFFF →
              Follows binding publisher.lastSequence.toNat
                [.put fullKey value (ascii "zenoh/bytes")
                  ⟨none, some ⟨binding.publisherUuid, publisher.lastSequence + 1⟩⟩] := by
            intro hroom
            exact .inl ⟨⟨key, _, rfl, toNat_succ hroom, rfl, hkey⟩, trivial⟩
          cases hsubmits with
          | closed hclosed => exact .quiet hready rfl
          | lost _ hbefore =>
              exact .quiet (ready_disconnect hready _) (disconnect_lastSequence _ _)
          | refused message _ => exact .quiet hready rfl
          | put _ hbefore hroom hafter =>
              refine ⟨ready_submitted hready hroom, hdata hroom, ?_⟩
              have hlast : (publisher.submitted lane.put).lastSequence =
                  publisher.lastSequence + 1 := submitted_lastSequence _
              change (publisher.submitted lane.put).lastSequence.toNat = _
              rw [hlast, toNat_succ hroom]
              rfl
          | replaced _ hroom hafter =>
              have hsubmitted := @ready_submitted _ publisher lane hready hroom
              refine ⟨?_, hdata hroom, ?_⟩
              · exact hsubmitted.closed (disconnect_pending _ _)
                  (disconnect_acceptingOperations _ _) (disconnect_syncedAllowed _ _)
                  (disconnect_exhausted _ _) (disconnect_lastSequence _ _)
              · have hlast : ((publisher.submitted lane.put).disconnect
                    lane.after.now).lastSequence = publisher.lastSequence + 1 := by simp
                change
                  ((publisher.submitted lane.put).disconnect lane.after.now).lastSequence.toNat = _
                rw [hlast, toNat_succ hroom]
                rfl

theorem follows_marker {durability : FenceDurability} {timeout : ℤ} {link : FenceLink Cause}
    {key : ByteString} (hbegins : Begins binding publisher durability timeout link key)
    (events : List AckClient.Event) :
    Follows binding publisher.lastSequence.toNat (link.marker key :: events.map .polled) ∧
      dataLanes (link.marker key :: events.map .polled) = [] :=
  ⟨.inr ⟨⟨_, _, _, rfl, rfl, rfl, rfl, hbegins.key⟩, follows_polled _ _⟩, dataLanes_polled events⟩

theorem fence_advances (hready : Ready publisher) {durability : FenceDurability} {timeout : ℤ}
    {link : FenceLink Cause}
    (hreturned : (fence binding publisher durability timeout link).2.returned ≠ none) :
    Advances binding publisher (fence binding publisher durability timeout link).1
      (fence binding publisher durability timeout link).2.sent := by
  have hfences := @fences _ binding publisher durability timeout link hready
  generalize fence binding publisher durability timeout link = fenced at hfences hreturned
  obtain ⟨next, fenced⟩ := fenced
  cases hfences with
  | closed hclosed => exact .quiet hready rfl
  | rejected next message hopen hnext =>
      obtain ⟨last, rfl⟩ := hnext
      exact .quiet (ready_setDurability hready last) rfl
  | lost next hopen hreplaced hlane hidle hclosed =>
      exact .quiet (hready.closed hidle hclosed hlane.syncedAllowed hlane.exhausted
        hlane.lastSequence) hlane.lastSequence
  | ended next key events failure hbegins hlane hidle hclosed =>
      obtain ⟨hfollows, hdata⟩ := follows_marker hbegins events
      refine ⟨hready.closed hidle hclosed hlane.syncedAllowed hlane.exhausted
        hlane.lastSequence, hfollows, ?_⟩
      rw [hdata, hlane.lastSequence]
      rfl
  | receipted next key events hbegins hafter hsample hacknowledged hlane hnext haccepting hclean =>
      obtain ⟨hfollows, hdata⟩ := follows_marker hbegins events
      refine ⟨hnext, hfollows, ?_⟩
      rw [hdata, hlane.lastSequence]
      rfl
  | waiting next key events hbegins => exact absurd rfl hreturned

theorem step_fence {durability : FenceDurability} {timeout : ℤ} {link : FenceLink Cause}
    (hstep : step binding publisher (.fence durability timeout link) = some (next, entry)) :
    ∃ returned, fence binding publisher durability timeout link =
        (next, ⟨entry.sent, some returned⟩) ∧
      entry = ⟨.fence durability timeout link, entry.sent, .fenced returned⟩ := by
  simp only [step, Option.map_eq_some_iff] at hstep
  obtain ⟨returned, hreturned, hentry⟩ := hstep
  obtain ⟨rfl, rfl⟩ := Prod.mk.inj hentry
  exact ⟨returned, by rw [← hreturned], rfl⟩

theorem step_push {key value : ByteString} {lane : Lane Cause}
    (hstep : step binding publisher (.push key value lane) = some (next, entry)) :
    (push binding publisher key value lane).1 = next ∧
      entry = ⟨.push key value lane, (push binding publisher key value lane).2.sent,
        .pushed (push binding publisher key value lane).2.returned⟩ := by
  obtain ⟨rfl, rfl⟩ := Prod.mk.inj (Option.some.inj hstep)
  exact ⟨rfl, rfl⟩

/-- A call that returns keeps to the lane. -/
theorem step_advances (hready : Ready publisher)
    (hstep : step binding publisher call = some (next, entry)) :
    Advances binding publisher next entry.sent := by
  cases call with
  | push key value lane =>
      obtain ⟨rfl, rfl⟩ := step_push hstep
      exact push_advances hready key value lane
  | fence durability timeout link =>
      obtain ⟨returned, hfence, -⟩ := step_fence hstep
      have hadvances := @fence_advances _ binding publisher hready durability timeout link
        (by rw [hfence]; exact Option.some_ne_none _)
      rw [hfence] at hadvances
      exact hadvances

end Calls

/-! ## Runs -/

section Runs

variable {publisher final : FencePublisher Cause} {calls : List (Call Cause)}
  {entries : List (Entry Cause)}

def sentIn (entries : List (Entry Cause)) : List Sent := entries.flatMap (·.sent)

theorem run_cons {call : Call Cause}
    (hrun : run binding publisher (call :: calls) = some (final, entries)) :
    ∃ next entry rest, step binding publisher call = some (next, entry) ∧
      run binding next calls = some (final, rest) ∧ entries = entry :: rest := by
  simp only [run, Option.bind_eq_bind, Option.bind_eq_some_iff] at hrun
  obtain ⟨⟨next, entry⟩, hstep, ⟨last, rest⟩, hrest, hentries⟩ := hrun
  obtain ⟨rfl, rfl⟩ := Prod.mk.inj (Option.some.inj hentries)
  exact ⟨next, entry, rest, hstep, hrest, rfl⟩

/-- A run keeps to the lane. -/
theorem run_advances (hready : Ready publisher)
    (hrun : run binding publisher calls = some (final, entries)) :
    Advances binding publisher final (sentIn entries) := by
  induction calls generalizing publisher entries with
  | nil =>
      obtain ⟨rfl, rfl⟩ := Prod.mk.inj (Option.some.inj hrun)
      exact .quiet hready rfl
  | cons call calls ih =>
      obtain ⟨next, entry, rest, hstep, hrest, rfl⟩ := run_cons hrun
      have hfirst := step_advances hready hstep
      have hsecond := ih hfirst.ready hrest
      have hsent : sentIn (entry :: rest) = entry.sent ++ sentIn rest := List.flatMap_cons
      rw [hsent]
      refine ⟨hsecond.ready, hfirst.follows.append ?_, ?_⟩
      · rw [← hfirst.last]
        exact hsecond.follows
      · rw [hsecond.last, hfirst.last, dataLanes_append, List.length_append, Nat.add_assoc]

/-- The run up to one of its entries. -/
theorem run_split {earlier later : List (Entry Cause)} {entry : Entry Cause}
    (hrun : run binding publisher calls = some (final, earlier ++ entry :: later)) :
    ∃ before middle after next, run binding publisher before = some (middle, earlier) ∧
      step binding middle entry.call = some (next, entry) ∧
      run binding next after = some (final, later) := by
  induction earlier generalizing publisher calls with
  | nil =>
      cases calls with
      | nil => cases hrun
      | cons call calls =>
          obtain ⟨next, first, rest, hstep, hrest, hentries⟩ := run_cons hrun
          obtain ⟨rfl, rfl⟩ := List.cons.inj hentries
          refine ⟨[], publisher, calls, next, rfl, ?_, hrest⟩
          have hcall : entry.call = call := by
            cases call with
            | push key value lane =>
                obtain ⟨-, hentry⟩ := step_push hstep
                rw [hentry]
            | fence durability timeout link =>
                obtain ⟨returned, -, hentry⟩ := step_fence hstep
                rw [hentry]
          rw [hcall]
          exact hstep
  | cons first earlier ih =>
      cases calls with
      | nil => cases hrun
      | cons call calls =>
          obtain ⟨next, head, rest, hstep, hrest, hentries⟩ := run_cons hrun
          obtain ⟨rfl, rfl⟩ := List.cons.inj hentries
          obtain ⟨before, middle, after, last, hbefore, hmiddle, hafter⟩ := ih hrest
          refine ⟨call :: before, middle, after, last, ?_, hmiddle, hafter⟩
          simp only [run, hstep, hbefore, Option.bind_eq_bind, Option.bind_some]
          rfl

/-! ## The lane of a run -/

/-- A key of data is read as a key of the publisher's buffer. -/
theorem parseKey_of_isData {count : ℕ} {key encodingId : ByteString} {options : PutOptions}
    (hdata : IsData binding count key encodingId options) :
    ∃ userKey, parseKey binding.keyPrefix key =
      some ⟨.buffer, binding.sid, [], userKey, false, some binding.bufferClass⟩ := by
  obtain ⟨userKey, sequence, -, -, -, hkey⟩ := hdata
  have hroute : (Route.buffer binding.sid binding.bufferClass userKey).build binding.keyPrefix =
      some key := hkey
  exact ⟨userKey, (parseKey_of_build hroute).1⟩

/-- A key of a marker is read as the publisher's lane. -/
theorem parseFenceMarkerRoute_of_build {durability : AckDurability} {through : UInt64}
    {key : ByteString}
    (hkey : buildBufferFenceMarkerKey binding.keyPrefix binding.sid binding.receiverGeneration
      binding.bufferClass binding.publisherUuid durability through = some key) :
    parseFenceMarkerRoute binding.keyPrefix key =
      some ⟨.buffer, binding.sid, binding.receiverGeneration, some binding.bufferClass,
        binding.publisherUuid, durability, through⟩ := by
  let route : FenceMarkerRoute := ⟨.buffer, binding.sid, binding.receiverGeneration,
    some binding.bufferClass, binding.publisherUuid, durability, through⟩
  have hbuild : buildFenceMarkerKey binding.keyPrefix route = some key := hkey
  unfold buildBufferFenceMarkerKey at hkey
  split_ifs at hkey with hinvalid hforbidden
  simp only [not_or, Bool.not_eq_true, Bool.not_eq_false'] at hinvalid
  obtain ⟨hpre, hsid, hreceiver, hpublisher⟩ := hinvalid
  have htarget : HasTarget isSynchronizable route := by
    have hallowed : isSynchronizable binding.bufferClass durability = true := by
      cases hclass : binding.bufferClass <;> cases durability <;> simp_all [isSynchronizable]
    exact hallowed
  have hroute : IsValidRoute isSynchronizable route := ⟨hsid, hreceiver, hpublisher, htarget⟩
  rw [buildFenceMarkerKey_eq hpre hroute] at hbuild
  exact (parseFenceMarkerRoute_eq_some_iff hpre).mpr ⟨hroute, (Option.some.inj hbuild).symm⟩

theorem parseFenceMarkerRoute_of_isMarker {count : ℕ} {key payload encodingId : ByteString}
    {options : PutOptions} (hmarker : IsMarker binding count key payload encodingId options) :
    ∃ durability through, through.toNat = count ∧
      parseFenceMarkerRoute binding.keyPrefix key =
        some ⟨.buffer, binding.sid, binding.receiverGeneration, some binding.bufferClass,
          binding.publisherUuid, durability, through⟩ := by
  obtain ⟨token, durability, through, -, hthrough, -, -, hkey⟩ := hmarker
  exact ⟨durability, through, hthrough, parseFenceMarkerRoute_of_build hkey⟩

/-- In every run, each `Put` is either data under a key of the publisher's buffer, with the next
sequence of its lane, or a marker that covers exactly the data before it. -/
theorem sent_follows_lane
    (hrun : run binding (FencePublisher.start true) calls = some (final, entries))
    {index : ℕ} {key payload encodingId : ByteString} {options : PutOptions}
    (hput : (sentIn entries)[index]? = some (.put key payload encodingId options)) :
    let before := dataLanes ((sentIn entries).take index)
    (∃ userKey sequence, options = ⟨none, some ⟨binding.publisherUuid, sequence⟩⟩ ∧
      sequence.toNat = before.length + 1 ∧ encodingId = ascii "zenoh/bytes" ∧
      parseKey binding.keyPrefix key =
        some ⟨.buffer, binding.sid, [], userKey, false, some binding.bufferClass⟩) ∨
    ∃ token durability through, options = ⟨some token, none⟩ ∧
      through.toNat = before.length ∧ payload = kFenceMarker ∧
      encodingId = kSitosV1Fence ∧
      parseFenceMarkerRoute binding.keyPrefix key =
        some ⟨.buffer, binding.sid, binding.receiverGeneration, some binding.bufferClass,
          binding.publisherUuid, durability, through⟩ := by
  intro before
  obtain ⟨hindex, hput⟩ := List.getElem?_eq_some_iff.mp hput
  have hsent : sentIn entries = (sentIn entries).take index ++
      .put key payload encodingId options :: (sentIn entries).drop (index + 1) := by
    rw [← hput, List.getElem_cons_drop, List.take_append_drop]
  have hfollows := (run_advances ready_start hrun).follows
  rw [hsent] at hfollows
  have hstart : (FencePublisher.start true : FencePublisher Cause).lastSequence.toNat = 0 := rfl
  rw [hstart] at hfollows
  have hhere := hfollows.of_append
  rw [Nat.zero_add] at hhere
  rcases hhere with ⟨hdata, -⟩ | ⟨hmarker, -⟩
  · obtain ⟨userKey, hparsed⟩ := parseKey_of_isData hdata
    obtain ⟨-, sequence, hoptions, hsequence, hencoding, -⟩ := hdata
    exact .inl ⟨userKey, sequence, hoptions, hsequence, hencoding, hparsed⟩
  · obtain ⟨durability, through, hthrough, hparsed⟩ := parseFenceMarkerRoute_of_isMarker hmarker
    obtain ⟨token, -, -, hoptions, -, hpayload, hencoding, -⟩ := hmarker
    exact .inr ⟨token, durability, through, hoptions, hthrough, hpayload, hencoding, hparsed⟩

/-- A UUID of version 4. -/
def uuidOf (last : UInt8) : FenceUuid :=
  generateAckToken ⟨List.replicate 15 0 ++ [last], rfl⟩

/-- A publisher of the durable buffer of a session. -/
def durableBinding : Binding where
  keyPrefix := ascii "sitos"
  sid := ascii "run"
  receiverGeneration := uuidOf 1
  publisherUuid := uuidOf 2
  bufferClass := .durable
  transportGeneration := 7

/-- A call on the bound generation whose `Put` goes so. -/
def steadyLane (put : Option (ErrorInfo Unit)) : Lane Unit :=
  ⟨⟨7, 0⟩, true, put, ⟨7, 0⟩⟩

/-- A Fence that starts at once and has these rounds. -/
def steadyLink (rounds : List (WaitRound Unit)) : FenceLink Unit :=
  ⟨steadyLane none, uuidOf 0, 0, ⟨⟨7, 0⟩, rounds, 0, 0⟩, 0⟩

def pushTwice (second : Option (ErrorInfo Unit)) : List (Call Unit) :=
  [.push (ascii "first") [1] (steadyLane none), .push (ascii "second") [2] (steadyLane second)]

/-- What a run from a new publisher comes to. -/
def ran (calls : List (Call Unit)) : FencePublisher Unit × List (Entry Unit) :=
  (run durableBinding (start true) calls).getD (start true, [])

theorem run_eq_ran {calls : List (Call Unit)}
    (hruns : (run durableBinding (start true) calls).isSome = true) :
    run durableBinding (start true) calls = some ((ran calls).1, (ran calls).2) := by
  obtain ⟨last, hlast⟩ := Option.isSome_iff_exists.mp hruns
  rw [ran, hlast]
  rfl

def secondKey : ByteString := ascii "sitos/buffers/run/durable/second"

theorem sent_follows_lane_push :
    let before := dataLanes ((sentIn (ran (pushTwice none)).2).take 1)
    let options : PutOptions := ⟨none, some ⟨uuidOf 2, 2⟩⟩
    (∃ userKey sequence,
      options = ⟨none, some ⟨durableBinding.publisherUuid, sequence⟩⟩ ∧
        sequence.toNat = before.length + 1 ∧
        ascii "zenoh/bytes" = ascii "zenoh/bytes" ∧
        parseKey durableBinding.keyPrefix secondKey =
          some ⟨.buffer, durableBinding.sid, [], userKey, false, some durableBinding.bufferClass⟩) ∨
      ∃ token durability through, options = ⟨some token, none⟩ ∧
        through.toNat = before.length ∧ [2] = kFenceMarker ∧
        ascii "zenoh/bytes" = kSitosV1Fence ∧
        parseFenceMarkerRoute durableBinding.keyPrefix secondKey =
          some ⟨.buffer, durableBinding.sid, durableBinding.receiverGeneration,
            some durableBinding.bufferClass, durableBinding.publisherUuid, durability,
            through⟩ := by
  have hruns := @run_eq_ran (pushTwice none) rfl
  have hput : (sentIn (ran (pushTwice none)).2)[1]? =
      some (.put secondKey [2] (ascii "zenoh/bytes") ⟨none, some ⟨uuidOf 2, 2⟩⟩) := rfl
  exact sent_follows_lane hruns hput

/-! ## Receipts -/

/-- After every run, the next Fence returns a receipt exactly when the publisher is still open, the
call is valid, the generation is the bound one at every look, and the first round that is not silent
delivers in time an Ok acknowledgement of all the data that was ever put.  The receipt is for that
data, and at the durability that was asked for. -/
theorem receipt_iff_after_run
    (hrun : run binding (FencePublisher.start true) calls = some (publisher, entries))
    (durability : FenceDurability) (timeout : ℤ) (link : FenceLink Cause)
    (receipt : FenceReceipt) :
    (fence binding publisher durability timeout link).2.returned = some (.ok receipt) ↔
      ∃ through : UInt64, through.toNat = (dataLanes (sentIn entries)).length ∧
        receipt = ⟨through, durability⟩ ∧
        publisher.acceptingOperations = true ∧
        (durability = kApplied ∨ durability = kSynced) ∧
        ¬(durability = kSynced ∧ binding.bufferClass = .ephemeral) ∧
        0 < timeout ∧
        link.lane.supported = true ∧
        (∃ key, buildBufferFenceMarkerKey binding.keyPrefix binding.sid
          binding.receiverGeneration binding.bufferClass binding.publisherUuid
          (toAckDurability durability) through = some key) ∧
        link.lane.before.generation = binding.transportGeneration ∧
        link.lane.after.generation = binding.transportGeneration ∧
        link.wait.sample.generation = binding.transportGeneration ∧
        Acknowledged binding durability timeout link through := by
  have hadvances := run_advances ready_start hrun
  have hlast : publisher.lastSequence.toNat = (dataLanes (sentIn entries)).length := by
    rw [hadvances.last]
    exact Nat.zero_add _
  rw [fence_returned_receipt_iff hadvances.ready]
  constructor
  · rintro ⟨hreceipt, ⟨key, hbegins⟩, hafter, hsample, hacknowledged⟩
    exact ⟨publisher.lastSequence, hlast, hreceipt, hbegins.accepting, hbegins.known,
      hbegins.allowed, hbegins.positive, hbegins.supported, ⟨key, hbegins.key⟩, hbegins.current,
      hafter, hsample, hacknowledged⟩
  · rintro ⟨through, hthrough, hreceipt, hopen, hknown, hallowed, hpositive, hsupported,
      ⟨key, hkey⟩, hbefore, hafter, hsample, hacknowledged⟩
    obtain rfl : through = publisher.lastSequence := UInt64.toNat_inj.mp (hthrough.trans hlast.symm)
    exact ⟨hreceipt, ⟨key, hopen, hknown, hallowed, hpositive, hbefore, hsupported, hkey⟩, hafter,
      hsample, hacknowledged⟩

/-- A round that delivers the acknowledgement of two sequences. -/
def acknowledgingRound : WaitRound Unit where
  before := 0
  after := 0
  replies :=
    [⟨joinKey (ascii "sitos") (ascii "meta/ack") (formatAckToken (uuidOf 0)), kSitosV1Ack,
      render (raw (fenceResult .ok .synced 2))⟩]
  get := none
  sampled := 7
  validated := 7
  completedAt := 1

/-- A round after the deadline. -/
def lateRound : WaitRound Unit :=
  { acknowledgingRound with before := 2000000, replies := [] }

theorem receipt_iff_after_run_two :
    (fence durableBinding (ran (pushTwice none)).1 kSynced 5
      (steadyLink [acknowledgingRound])).2.returned = some (.ok ⟨2, kSynced⟩) := by
  have hruns := @run_eq_ran (pushTwice none) rfl
  refine (receipt_iff_after_run hruns _ _ _ _).mpr
    ⟨2, rfl, rfl, rfl, .inr rfl, by decide, by decide, rfl, ⟨_, rfl⟩, rfl, rfl, rfl, ?_⟩
  have hdecoded : decodeAckResult (render (raw (fenceResult .ok .synced 2))) =
      .ok (raw (fenceResult .ok .synced 2)) := rfl
  exact ⟨_, acknowledgingRound, raw (fenceResult .ok .synced 2), rfl,
    ⟨[], [], rfl, by simp, by simp [WaitRound.Silent, acknowledgingRound]⟩,
    ⟨by decide, _, [], rfl, rfl, rfl, hdecoded⟩, by decide, rfl, rfl, rfl, rfl, rfl, rfl⟩

end Runs

/-! ## The end of a publisher -/

/-- The call ended the publisher: it saw its generation replaced on the lane, or it submitted a
marker and got no receipt. -/
def Entry.Ends (binding : Binding) (entry : Entry Cause) : Prop :=
  match entry.call, entry.returned with
  | .push _ _ lane, .pushed (.error failure) =>
      failure.status = statusCode .disconnected ∧
        (lane.before.generation ≠ binding.transportGeneration ∨
          lane.after.generation ≠ binding.transportGeneration)
  | .fence _ _ link, .fenced (.error failure) =>
      entry.sent ≠ [] ∨ (failure.status = statusCode .disconnected ∧
        link.lane.before.generation ≠ binding.transportGeneration)
  | _, _ => False

/-- The call was turned away as by a closed publisher. -/
def Entry.Refused (entry : Entry Cause) : Prop :=
  entry.sent = [] ∧ (entry.returned = .pushed (.error kDisconnected) ∨
    entry.returned = .fenced (.error kDisconnected))

section Ends

variable {publisher next final : FencePublisher Cause} {call : Call Cause}
  {calls : List (Call Cause)} {entry : Entry Cause} {entries : List (Entry Cause)}

theorem invalidArgument_ne (message : ByteString) :
    (invalidArgument message : PublisherError Cause).status ≠ statusCode .disconnected := by
  intro hstatus
  have hsame : Status.invalidArgument = Status.disconnected := (statusCode_eq_iff _ _).mp hstatus
  cases hsame

/-- A closed publisher turns every call away. -/
theorem step_closed (hclosed : publisher.acceptingOperations = false)
    (hstep : step binding publisher call = some (next, entry)) :
    next = publisher ∧ entry.Refused := by
  cases call with
  | push key value lane =>
      obtain ⟨hnext, hentry⟩ := step_push hstep
      rw [push_closed key value lane hclosed] at hnext hentry
      subst hentry
      exact ⟨hnext.symm, rfl, .inl rfl⟩
  | fence durability timeout link =>
      obtain ⟨returned, hfence, hentry⟩ := step_fence hstep
      rw [fence_closed durability timeout link hclosed] at hfence
      obtain ⟨rfl, hfenced⟩ := Prod.mk.inj hfence
      obtain ⟨hsent, hreturned⟩ := Fenced.mk.inj hfenced
      obtain rfl := Option.some.inj hreturned
      rw [hentry]
      exact ⟨rfl, hsent.symm, .inr rfl⟩

/-- What the end of a call says about the publisher it leaves. -/
structure Closes (binding : Binding) (next : FencePublisher Cause) (entry : Entry Cause) :
    Prop where
  ends : entry.Ends binding ↔ next.acceptingOperations = false
  refused : entry.Refused → entry.Ends binding

theorem push_closes (hready : Ready publisher) (hopen : publisher.acceptingOperations = true)
    (key value : ByteString) (lane : Lane Cause) :
    Closes binding (push binding publisher key value lane).1
      ⟨.push key value lane, (push binding publisher key value lane).2.sent,
        .pushed (push binding publisher key value lane).2.returned⟩ := by
  cases hkey : buildBufferKey binding.keyPrefix binding.sid binding.bufferClass key with
  | none =>
      have hstatus : statusCode .invalidKey ≠ statusCode .disconnected := by
        intro h
        have hsame : Status.invalidKey = Status.disconnected := (statusCode_eq_iff _ _).mp h
        cases hsame
      simp only [push, hopen, Bool.not_true, Bool.false_eq_true, if_false, hkey]
      refine ⟨⟨fun h => absurd h.1 hstatus, fun h => by simp [hopen] at h⟩, ?_⟩
      rintro ⟨-, h | h⟩
      · exact absurd (congrArg PublisherError.status (Except.error.inj (Returned.pushed.inj h)))
          hstatus
      · cases h
  | some fullKey =>
      simp only [push, hopen, Bool.not_true, Bool.false_eq_true, if_false, hkey]
      have hsubmits := @submitData_submits _ binding publisher fullKey value
        (ascii "zenoh/bytes") lane hready
      generalize publisher.submitData binding fullKey value (ascii "zenoh/bytes") lane = done
        at hsubmits
      obtain ⟨next, done⟩ := done
      cases hsubmits with
      | closed hclosed => cases hopen.symm.trans hclosed
      | lost _ hbefore =>
          exact ⟨⟨fun _ => disconnect_acceptingOperations _ _, fun _ => ⟨rfl, .inl hbefore⟩⟩,
            fun _ => ⟨rfl, .inl hbefore⟩⟩
      | refused message _ =>
          refine ⟨⟨fun h => absurd h.1 (invalidArgument_ne message), fun h => ?_⟩, ?_⟩
          · rw [hopen] at h
            cases h
          · rintro ⟨-, h | h⟩
            · exact absurd
                (congrArg PublisherError.status (Except.error.inj (Returned.pushed.inj h)))
                (invalidArgument_ne message)
            · cases h
      | put _ hbefore hroom hafter =>
          have haccepting : (publisher.submitted lane.put).acceptingOperations = true :=
            (submitted_acceptingOperations _).trans hopen
          refine ⟨⟨fun h => ?_, fun h => ?_⟩, fun h => ?_⟩
          · cases hput : lane.put with
            | none =>
                rw [hput] at h
                exact h.elim
            | some error =>
                rw [hput] at h
                rcases h.2 with h | h
                · exact absurd hbefore h
                · exact absurd hafter h
          · cases haccepting.symm.trans h
          · cases h.1
      | replaced _ hroom hafter =>
          refine ⟨⟨fun _ => ?_, fun _ => ⟨rfl, .inr hafter⟩⟩, fun _ => ⟨rfl, .inr hafter⟩⟩
          exact disconnect_acceptingOperations _ _

theorem fence_closes (hready : Ready publisher) (hopen : publisher.acceptingOperations = true)
    {durability : FenceDurability} {timeout : ℤ} {link : FenceLink Cause} {sent : List Sent}
    {returned : Except (PublisherError Cause) FenceReceipt}
    (hfence : fence binding publisher durability timeout link = (next, ⟨sent, some returned⟩)) :
    Closes binding next ⟨.fence durability timeout link, sent, .fenced returned⟩ := by
  have hfences := @fences _ binding publisher durability timeout link hready
  rw [hfence] at hfences
  cases hfences with
  | closed hclosed => cases hopen.symm.trans hclosed
  | rejected next message _ hnext =>
      obtain ⟨last, rfl⟩ := hnext
      have hnot : ¬(⟨.fence durability timeout link, [],
          .fenced (.error (invalidArgument message))⟩ : Entry Cause).Ends binding := by
        rintro (h | h)
        · exact h rfl
        · exact absurd h.1 (invalidArgument_ne message)
      refine ⟨⟨fun h => absurd h hnot, fun h => ?_⟩, ?_⟩
      · rw [show (publisher.setDurability last).acceptingOperations = true from hopen] at h
        cases h
      · rintro ⟨-, h | h⟩
        · cases h
        · exact absurd (congrArg PublisherError.status (Except.error.inj (Returned.fenced.inj h)))
            (invalidArgument_ne message)
  | lost next _ hreplaced hlane hidle hclosed =>
      exact ⟨⟨fun _ => hclosed, fun _ => .inr ⟨rfl, hreplaced⟩⟩, fun _ => .inr ⟨rfl, hreplaced⟩⟩
  | ended next key events failure hbegins hlane hidle hclosed =>
      exact ⟨⟨fun _ => hclosed, fun _ => .inl (List.cons_ne_nil _ _)⟩,
        fun _ => .inl (List.cons_ne_nil _ _)⟩
  | receipted next key events hbegins hafter hsample hacknowledged hlane hnext haccepting hclean =>
      refine ⟨⟨fun h => h.elim, fun h => ?_⟩, fun h => ?_⟩
      · rw [haccepting] at h
        cases h
      · cases h.1

/-- A call of an open publisher closes it exactly when it ends it. -/
theorem step_closes (hready : Ready publisher) (hopen : publisher.acceptingOperations = true)
    (hstep : step binding publisher call = some (next, entry)) : Closes binding next entry := by
  cases call with
  | push key value lane =>
      obtain ⟨rfl, rfl⟩ := step_push hstep
      exact push_closes hready hopen key value lane
  | fence durability timeout link =>
      obtain ⟨returned, hfence, hentry⟩ := step_fence hstep
      rw [hentry]
      exact fence_closes hready hopen hfence

/-- A closed publisher stays as it is. -/
theorem run_of_closed (hclosed : publisher.acceptingOperations = false)
    (hrun : run binding publisher calls = some (final, entries)) : final = publisher := by
  induction calls generalizing entries with
  | nil =>
      obtain ⟨rfl, -⟩ := Prod.mk.inj (Option.some.inj hrun)
      rfl
  | cons call calls ih =>
      obtain ⟨next, entry, rest, hstep, hrest, -⟩ := run_cons hrun
      obtain ⟨rfl, -⟩ := step_closed hclosed hstep
      exact ih hrest

/-- A publisher is closed after a run exactly when one of its calls ended it. -/
theorem run_closed_iff (hready : Ready publisher) (hopen : publisher.acceptingOperations = true)
    (hrun : run binding publisher calls = some (final, entries)) :
    final.acceptingOperations = false ↔ ∃ entry ∈ entries, entry.Ends binding := by
  induction calls generalizing publisher entries with
  | nil =>
      obtain ⟨rfl, rfl⟩ := Prod.mk.inj (Option.some.inj hrun)
      simp [hopen]
  | cons call calls ih =>
      obtain ⟨next, entry, rest, hstep, hrest, rfl⟩ := run_cons hrun
      have hcloses := step_closes hready hopen hstep
      cases hnext : next.acceptingOperations with
      | false =>
          have hends : entry.Ends binding := hcloses.ends.mpr hnext
          rw [run_of_closed hnext hrest, hnext]
          simp [hends]
      | true =>
          have hgoes : ¬entry.Ends binding := by
            rw [hcloses.ends, hnext]
            simp
          exact (ih (step_advances hready hstep).ready hnext hrest).trans (by simp [hgoes])

/-- In every run, a call that ends the publisher is followed by calls that are turned away and send
nothing; and as long as no call has ended it, a call is turned away only when it is the end itself,
having seen its generation replaced. -/
theorem publisher_ends_for_good {earlier later : List (Entry Cause)}
    (hrun : run binding (FencePublisher.start true) calls =
      some (final, earlier ++ entry :: later)) :
    ((∃ ended ∈ earlier, ended.Ends binding) → entry.Refused) ∧
      ((∀ other ∈ earlier, ¬other.Ends binding) → entry.Refused → entry.Ends binding) := by
  obtain ⟨before, middle, after, next, hbefore, hstep, -⟩ := run_split hrun
  have hclosed := run_closed_iff ready_start rfl hbefore
  constructor
  · intro hended
    exact (step_closed (hclosed.mpr hended) hstep).2
  · intro hnone
    have hopen : middle.acceptingOperations = true := by
      rw [← Bool.not_eq_false, hclosed]
      rintro ⟨other, hother, hends⟩
      exact hnone other hother hends
    exact (step_closes (run_advances ready_start hbefore).ready hopen hstep).refused

/-- A Fence that times out, and a call after it. -/
def endedCalls : List (Call Unit) :=
  [.fence kApplied 1 (steadyLink [lateRound]), .push (ascii "first") [1] (steadyLane none)]

theorem publisher_ends_for_good_timeout :
    ∃ earlier entry, (ran endedCalls).2 = earlier ++ [entry] ∧ entry.Refused := by
  have hruns := @run_eq_ran endedCalls rfl
  let ended := (ran endedCalls).2.headD ⟨.push [] [] (steadyLane none), [], .pushed (.ok ())⟩
  let entry := (ran endedCalls).2.getLastD ended
  have hsplit : (ran endedCalls).2 = [ended] ++ entry :: [] := rfl
  rw [hsplit] at hruns
  refine ⟨[ended], entry, hsplit, (publisher_ends_for_good hruns).1 ?_⟩
  exact ⟨ended, List.mem_singleton_self _, .inl (List.cons_ne_nil _ _)⟩

end Ends

/-! ## Calls that leave no trace -/

section Traceless

variable {publisher next final : FencePublisher Cause} {call : Call Cause}
  {calls : List (Call Cause)} {entry : Entry Cause} {entries : List (Entry Cause)}
  {durability : AckDurability}

/-- Without a pending Fence nothing looks at the durability. -/
theorem disconnect_setDurability (hidle : publisher.pending = none) (now : ℤ) :
    (publisher.setDurability durability).disconnect now =
      (publisher.disconnect now).setDurability durability := by
  simp only [disconnect, cancelPendingWaiter, setDurability, hidle]

theorem checkGeneration_setDurability (hidle : publisher.pending = none) (sample : Sample) :
    (publisher.setDurability durability).checkGeneration binding sample =
      ((publisher.checkGeneration binding sample).1.setDurability durability,
        (publisher.checkGeneration binding sample).2) := by
  have hdisconnected : (publisher.setDurability durability).disconnected =
      publisher.disconnected := rfl
  have hmismatch : (publisher.setDurability durability).generationMismatch =
      publisher.generationMismatch := rfl
  simp only [checkGeneration, hdisconnected, hmismatch, disconnect_setDurability hidle]
  split_ifs <;> rfl

theorem submitted_setDurability (put : Option (ErrorInfo Cause)) :
    (publisher.setDurability durability).submitted put =
      (publisher.submitted put).setDurability durability := by
  cases put <;> rfl

theorem checkGeneration_pending (hidle : publisher.pending = none) (sample : Sample) :
    (publisher.checkGeneration binding sample).1.pending = none := by
  unfold checkGeneration
  split_ifs
  · exact hidle
  · exact hidle
  · exact disconnect_pending _ _

theorem submitData_setDurability (hidle : publisher.pending = none)
    (key payload encodingId : ByteString) (lane : Lane Cause) :
    (publisher.setDurability durability).submitData binding key payload encodingId lane =
      ((publisher.submitData binding key payload encodingId lane).1.setDurability durability,
        (publisher.submitData binding key payload encodingId lane).2) := by
  have haccepting : (publisher.setDurability durability).acceptingOperations =
      publisher.acceptingOperations := rfl
  have hchecked := @checkGeneration_pending _ binding publisher hidle lane.before
  simp only [submitData, haccepting, checkGeneration_setDurability hidle]
  generalize publisher.checkGeneration binding lane.before = checked at hchecked
  obtain ⟨checked, goes⟩ := checked
  have hexhausted : (checked.setDurability durability).exhausted = checked.exhausted := rfl
  have hlast : (checked.setDurability durability).lastSequence = checked.lastSequence := rfl
  have hsubmitted : (checked.submitted lane.put).pending = none :=
    (submitted_pending lane.put).trans hchecked
  cases goes with
  | false => split_ifs <;> rfl
  | true =>
      simp only [submitted_setDurability, checkGeneration_setDurability hsubmitted, hexhausted,
        hlast]
      generalize (checked.submitted lane.put).checkGeneration binding lane.after = rechecked
      obtain ⟨rechecked, stays⟩ := rechecked
      cases stays <;> split_ifs <;> rfl

theorem push_setDurability (hidle : publisher.pending = none) (key value : ByteString)
    (lane : Lane Cause) :
    push binding (publisher.setDurability durability) key value lane =
      ((push binding publisher key value lane).1.setDurability durability,
        (push binding publisher key value lane).2) := by
  have haccepting : (publisher.setDurability durability).acceptingOperations =
      publisher.acceptingOperations := rfl
  simp only [push, haccepting]
  split_ifs
  · rfl
  · cases buildBufferKey binding.keyPrefix binding.sid binding.bufferClass key with
    | none => rfl
    | some fullKey => exact submitData_setDurability hidle fullKey value _ lane

/-- A Fence sets the durability before it looks at it. -/
theorem fence_setDurability (asked : FenceDurability) (timeout : ℤ) (link : FenceLink Cause) :
    (fence binding (publisher.setDurability durability) asked timeout link).2 =
        (fence binding publisher asked timeout link).2 ∧
      ∃ last, (fence binding (publisher.setDurability durability) asked timeout link).1 =
        (fence binding publisher asked timeout link).1.setDurability last := by
  have haccepting : (publisher.setDurability durability).acceptingOperations =
      publisher.acceptingOperations := rfl
  have hagain : (publisher.setDurability durability).setDurability (toAckDurability asked) =
      publisher.setDurability (toAckDurability asked) := rfl
  simp only [fence, haccepting, hagain]
  split_ifs
  · exact ⟨rfl, durability, rfl⟩
  · exact ⟨rfl, durability, rfl⟩
  · exact ⟨rfl, durability, rfl⟩
  · exact ⟨rfl, _, rfl⟩

theorem step_setDurability (hready : Ready publisher) (durability : AckDurability)
    (call : Call Cause) :
    (step binding publisher call = none →
      step binding (publisher.setDurability durability) call = none) ∧
    ∀ next entry, step binding publisher call = some (next, entry) →
      ∃ last, step binding (publisher.setDurability durability) call =
        some (next.setDurability last, entry) := by
  cases call with
  | push key value lane =>
      refine ⟨by simp [step], fun next entry hstep => ⟨durability, ?_⟩⟩
      obtain ⟨rfl, rfl⟩ := step_push hstep
      simp only [step, push_setDurability hready.idle]
  | fence asked timeout link =>
      obtain ⟨hfenced, last, hnext⟩ := @fence_setDurability _ binding publisher durability asked
        timeout link
      simp only [step, hfenced, hnext]
      constructor
      · intro hnone
        rw [Option.map_eq_none_iff] at hnone ⊢
        exact hnone
      · intro next entry hstep
        obtain ⟨returned, hreturned, hentry⟩ := Option.map_eq_some_iff.mp hstep
        obtain ⟨rfl, rfl⟩ := Prod.mk.inj hentry
        exact ⟨last, by rw [hreturned]; rfl⟩

/-- Runs differ in nothing that shows when their publishers differ in the durability. -/
theorem run_setDurability (hready : Ready publisher) (durability : AckDurability)
    (calls : List (Call Cause)) :
    (run binding (publisher.setDurability durability) calls).map Prod.snd =
      (run binding publisher calls).map Prod.snd := by
  induction calls generalizing publisher durability with
  | nil => rfl
  | cons call calls ih =>
      obtain ⟨hnone, hsome⟩ := @step_setDurability _ binding publisher hready durability call
      cases hstep : step binding publisher call with
      | none => simp only [run, hstep, hnone hstep, Option.bind_eq_bind, Option.bind_none]
      | some stepped =>
          obtain ⟨next, entry⟩ := stepped
          obtain ⟨last, hother⟩ := hsome next entry hstep
          have hrest := ih (step_advances hready hstep).ready last
          simp only [run, hstep, hother, Option.bind_eq_bind, Option.bind_some]
          cases hrun : run binding next calls with
          | none =>
              rw [hrun, Option.map_none, Option.map_eq_none_iff] at hrest
              rw [hrest]
          | some ran =>
              rw [hrun, Option.map_some, Option.map_eq_some_iff] at hrest
              obtain ⟨other, hrest, hentries⟩ := hrest
              rw [hrest]
              simp [hentries]

/-- A call that sends nothing and does not end the publisher changes the durability at most. -/
theorem exists_setDurability_of_traceless (hready : Ready publisher)
    (hstep : step binding publisher call = some (next, entry)) (hsent : entry.sent = [])
    (hgoes : ¬entry.Ends binding) : ∃ last, next = publisher.setDurability last := by
  cases hopen : publisher.acceptingOperations with
  | false => exact ⟨publisher.durability, (step_closed hopen hstep).1⟩
  | true =>
      have hcloses := step_closes hready hopen hstep
      have hstays : next.acceptingOperations = true := by
        rw [← Bool.not_eq_false, ← hcloses.ends]
        exact hgoes
      cases call with
      | push key value lane =>
          obtain ⟨rfl, rfl⟩ := step_push hstep
          cases hkey : buildBufferKey binding.keyPrefix binding.sid binding.bufferClass key with
          | none =>
              simp only [push, hopen, Bool.not_true, Bool.false_eq_true, if_false, hkey]
              exact ⟨publisher.durability, rfl⟩
          | some fullKey =>
              simp only [push, hopen, Bool.not_true, Bool.false_eq_true, if_false, hkey]
                at hstays hsent ⊢
              have hsubmits := @submitData_submits _ binding publisher fullKey value
                (ascii "zenoh/bytes") lane hready
              generalize publisher.submitData binding fullKey value (ascii "zenoh/bytes") lane =
                done at hsubmits hstays hsent ⊢
              obtain ⟨next, done⟩ := done
              cases hsubmits with
              | closed hclosed => exact ⟨next.durability, rfl⟩
              | lost _ hbefore =>
                  cases (disconnect_acceptingOperations publisher lane.before.now).symm.trans hstays
              | refused message _ => exact ⟨next.durability, rfl⟩
              | put _ hbefore hroom hafter => cases hsent
              | replaced _ hroom hafter => cases hsent
      | fence durability timeout link =>
          obtain ⟨returned, hfence, -⟩ := step_fence hstep
          have hfences := @fences _ binding publisher durability timeout link hready
          rw [hfence, hsent] at hfences
          cases hfences with
          | closed hclosed => exact ⟨next.durability, rfl⟩
          | rejected next message _ hnext => exact hnext
          | lost next _ hreplaced hlane hidle hclosed => cases hclosed.symm.trans hstays

/-- What a Fence checks before it looks at the transport. -/
theorem fence_invalid {asked : FenceDurability} {timeout : ℤ} {link : FenceLink Cause}
    (hopen : publisher.acceptingOperations = true)
    (hinvalid : ¬(asked = kApplied ∨ asked = kSynced) ∨
      (asked = kSynced ∧ binding.bufferClass = .ephemeral) ∨ timeout ≤ 0) :
    ∃ next message, fence binding publisher asked timeout link =
      (next, ⟨[], some (.error (invalidArgument message))⟩) := by
  simp only [fence, hopen, Bool.not_true, Bool.false_eq_true, if_false]
  split_ifs with hunknown hforbidden
  · exact ⟨_, _, rfl⟩
  · exact ⟨_, _, rfl⟩
  · have hknown : asked = kApplied ∨ asked = kSynced := by
      rwa [not_and_or, not_not, not_not] at hunknown
    have hlate : timeout ≤ 0 := (hinvalid.resolve_left (not_not.mpr hknown)).resolve_left hforbidden
    have haccepting :
        (publisher.setDurability (toAckDurability asked)).acceptingOperations = true := hopen
    simp only [beginFence, hlate, if_true, haccepting, Bool.not_true, Bool.false_eq_true, if_false]
    exact ⟨_, _, rfl⟩

/-- After every run: a call that sends nothing and does not end the publisher might as well not
have been made, since every later run goes the same without it; and a Fence with an unknown
durability, a synchronized one of an ephemeral buffer, and one without time are such calls of an
open publisher. -/
theorem traceless_calls
    (hrun : run binding (FencePublisher.start true) calls = some (publisher, entries)) :
    (∀ call next entry, step binding publisher call = some (next, entry) → entry.sent = [] →
      ¬entry.Ends binding → ∀ later,
        (run binding next later).map Prod.snd = (run binding publisher later).map Prod.snd) ∧
    ∀ (durability : FenceDurability) (timeout : ℤ) (link : FenceLink Cause),
      publisher.acceptingOperations = true →
      (¬(durability = kApplied ∨ durability = kSynced) ∨
        (durability = kSynced ∧ binding.bufferClass = .ephemeral) ∨
        timeout ≤ 0) →
      ∃ next message,
        let entry : Entry Cause := ⟨.fence durability timeout link, [],
          .fenced (.error (invalidArgument message))⟩
        step binding publisher (.fence durability timeout link) = some (next, entry) ∧
          ¬entry.Ends binding := by
  have hready := (run_advances ready_start hrun).ready
  constructor
  · intro call next entry hstep hsent hgoes later
    obtain ⟨last, rfl⟩ := exists_setDurability_of_traceless hready hstep hsent hgoes
    exact run_setDurability hready last later
  · intro durability timeout link hopen hinvalid
    obtain ⟨next, message, hfence⟩ := @fence_invalid _ binding publisher durability timeout link
      hopen hinvalid
    refine ⟨next, message, by simp only [step, hfence, Option.map_some], ?_⟩
    rintro (h | h)
    · exact h rfl
    · exact invalidArgument_ne message h.1

theorem traceless_calls_unknown :
    ∃ next message,
      let entry : Entry Unit := ⟨.fence 2 5 (steadyLink []), [],
        .fenced (.error (invalidArgument message))⟩
      step durableBinding (ran (pushTwice none)).1 (.fence 2 5 (steadyLink [])) =
        some (next, entry) ∧ ¬entry.Ends durableBinding := by
  have hruns := @run_eq_ran (pushTwice none) rfl
  exact (traceless_calls hruns).2 2 5 (steadyLink []) rfl (.inl (by decide))

end Traceless

/-! ## What a timeout tells -/

section Timeouts

variable {publisher next final : FencePublisher Cause} {call : Call Cause}
  {calls : List (Call Cause)} {entry : Entry Cause} {entries : List (Entry Cause)}

end Timeouts

end Sitos.BufferPublisher

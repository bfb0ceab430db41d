import Sitos.Client.BufferPublisherRuns
import Sitos.Client.SessionDiscovery
import Sitos.Node.BufferFenceRuns

/-!
# What a receipt means at the node

A publisher and the node of its session, with a transport between them that may lose, delay, repeat
and reorder samples but makes none up.  A receipt of the publisher then tells that the node had
applied just the data that the publisher put, in the order in which it was put.
-/

namespace Sitos.BufferReceipt

open Sitos.AckClient
open Sitos.AckCodec
open Sitos.AckResult
open Sitos.BufferFence
open Sitos.BufferPublisher
open Sitos.Bytes
open Sitos.FenceWire
open Sitos.Key
open Sitos.LaneHistory
open Sitos.Machine
open Sitos.Receiver
open Sitos.Registry
open Sitos.SessionDiscovery (MetaNode replyMetaQuery)
open Sitos.Token

/-! ## Lists with the same keys -/

/-- Of two lists of pairs with the same keys, all different, neither has more than the other. -/
theorem eq_of_map_fst_eq {Index Value : Type*} {first second : List (Index × Value)}
    (hkeys : first.map Prod.fst = second.map Prod.fst) (hnodup : (second.map Prod.fst).Nodup)
    (hmem : ∀ pair ∈ first, pair ∈ second) : first = second := by
  have hlength : first.length = second.length := by
    simpa using congrArg List.length hkeys
  refine List.ext_getElem hlength fun index hfirst hsecond => ?_
  have hindex : first[index].1 = second[index].1 := by
    simpa [hfirst, hsecond] using congrArg (·[index]?) hkeys
  exact List.inj_on_of_nodup_map hnodup (hmem _ (List.getElem_mem hfirst))
    (List.getElem_mem hsecond) hindex

/-! ## The data that was put -/

/-- A datum as both sides know it: its sequence, its key and its payload. -/
abbrev Numbered := UInt64 × ByteString × ByteString

def dataPuts (sent : List Sent) : List Numbered :=
  sent.filterMap fun
    | .put key payload _ options => options.fenceLane.map fun lane => (lane.sequence, key, payload)
    | .polled _ => none

def numbered (datum : Datum) : Numbered := (datum.1, datum.2.key, datum.2.payload)

theorem length_dataPuts (sent : List Sent) : (dataPuts sent).length = (dataLanes sent).length := by
  induction sent with
  | nil => rfl
  | cons first rest ih =>
      cases first with
      | polled event => exact ih
      | put key payload encodingId options =>
          obtain ⟨token, lane⟩ := options
          cases lane with
          | none => exact ih
          | some lane => exact congrArg Nat.succ ih

variable {Cause : Type} {binding : Binding}

/-- Data that continues a lane has the sequences that follow. -/
theorem map_dataPuts_of_follows {count : ℕ} {sent : List Sent}
    (hfollows : Follows binding count sent) :
    (dataPuts sent).map (·.1.toNat) = List.range' (count + 1) (dataPuts sent).length := by
  induction sent generalizing count with
  | nil => rfl
  | cons first rest ih =>
      cases first with
      | polled event => exact ih hfollows
      | put key payload encodingId options =>
          rcases hfollows with ⟨⟨userKey, sequence, rfl, hsequence, -, -⟩, hrest⟩ |
            ⟨⟨token, durability, through, rfl, -⟩, hrest⟩
          · have hputs : dataPuts (.put key payload encodingId
                ⟨none, some ⟨binding.publisherUuid, sequence⟩⟩ :: rest) =
                  (sequence, key, payload) :: dataPuts rest := rfl
            rw [hputs, List.map_cons, List.length_cons, List.range'_succ, ih hrest, hsequence]
          · exact ih hrest

theorem nodup_map_fst_dataPuts {count : ℕ} {sent : List Sent}
    (hfollows : Follows binding count sent) : ((dataPuts sent).map Prod.fst).Nodup := by
  have hnumbers : (((dataPuts sent).map Prod.fst).map UInt64.toNat).Nodup := by
    rw [List.map_map]
    exact (map_dataPuts_of_follows hfollows).symm ▸ List.nodup_range'
  exact hnumbers.of_map _

theorem map_fst_dataPuts {sent : List Sent} (hfollows : Follows binding 0 sent)
    {through : UInt64} (hthrough : through.toNat = (dataLanes sent).length) :
    (dataPuts sent).map Prod.fst = sequencesThrough through := by
  have hnumbers := map_dataPuts_of_follows hfollows
  rw [length_dataPuts, ← hthrough] at hnumbers
  have hback : (dataPuts sent).map Prod.fst =
      ((dataPuts sent).map (·.1.toNat)).map UInt64.ofNat := by
    rw [List.map_map]
    exact List.map_congr_left fun datum _ => UInt64.ofNat_toNat.symm
  rw [hback, hnumbers, sequencesThrough, List.range'_eq_map_range, List.map_map]
  exact List.map_congr_left fun index _ => by simp [Nat.add_comm]

/-! ## A receipt -/

section Publisher

variable {publisher : FencePublisher Cause} {durability : FenceDurability} {timeout : ℤ}
  {link : FenceLink Cause}

/-- A Fence that returns a receipt put its marker and was acknowledged. -/
theorem marker_of_receipt (hready : Ready publisher) {receipt : FenceReceipt}
    (hreturned : (fence binding publisher durability timeout link).2.returned =
      some (.ok receipt)) :
    ∃ (key : ByteString) (events : List AckClient.Event),
      Begins binding publisher durability timeout link key ∧
      (fence binding publisher durability timeout link).2.sent =
        link.marker key :: events.map .polled ∧
      Acknowledged binding durability timeout link publisher.lastSequence := by
  have hfences := @fences _ binding publisher durability timeout link hready
  generalize fence binding publisher durability timeout link = fenced at hfences hreturned
  obtain ⟨next, fenced⟩ := fenced
  cases hfences with
  | receipted next key events hbegins hafter hsample hacknowledged hlane hnext haccepting hclean =>
      exact ⟨key, events, hbegins, rfl, hacknowledged⟩
  | _ => cases hreturned

theorem eq_of_marker_mem {key other : ByteString} {events : List AckClient.Event}
    (hmem : link.marker other ∈ link.marker key :: events.map .polled) : other = key := by
  rcases List.mem_cons.mp hmem with hsame | hpolled
  · injection hsame
  · obtain ⟨event, -, hevent⟩ := List.mem_map.mp hpolled
    cases hevent

end Publisher

/-! ## Across the transport -/

/-- The lane of a publisher at its node. -/
def laneOf (binding : Binding) : LaneId :=
  ⟨binding.sid, binding.receiverGeneration, binding.bufferClass, binding.publisherUuid⟩

variable {Fingerprint : Type} {node : Node Fingerprint}

/-- What the node's metadata queries see of the acknowledgements. -/
def metaNode (node : Node Fingerprint) (others : MetaNode)
    (acks : AckRegistry AckToken Fingerprint) : MetaNode :=
  { others with
    keyPrefix := node.keyPrefix
    results := fun token => (find acks token).map raw }

/-- At a moment of the node's run its reply to a query is this. -/
def RepliedIn [DecidableEq Fingerprint] (node : Node Fingerprint) (others : MetaNode)
    (first : State Fingerprint) (actions : List BufferFence.Action) (queryKey : ByteString)
    (reply : Query.Reply) : Prop :=
  Once (step node) first actions fun state =>
    reply ∈ replyMetaQuery (metaNode node others state.shared.acks) queryKey

/-- What the transport brings to the node of what a publisher put, and to the publisher of what the
node replies.  Nothing is made up, and the token of the Fence is on its marker alone. -/
structure Carries (node : Node Fingerprint) (binding : Binding) (link : FenceLink Cause)
    (puts fenced : List Sent) (Brought : Delivered → Prop)
    (Replied : ByteString → Query.Reply → Prop) : Prop where
  keyPrefix : node.keyPrefix = binding.keyPrefix
  data : ∀ delivered sequence, Brought delivered →
    delivered.observations.lane = .metadata binding.publisherUuid sequence →
    (sequence.val, delivered.sample.key, delivered.sample.payload) ∈ dataPuts puts
  marker : ∀ delivered, Brought delivered → delivered.observations.ack = .token link.token →
    link.marker delivered.sample.key ∈ fenced
  replies : ∀ queryKey, buildMetaAckKey binding.keyPrefix (formatAckToken link.token) =
      some queryKey →
    ∀ round ∈ link.wait.rounds, ∀ reply ∈ round.replies,
      Replied queryKey ⟨reply.key, reply.bytes, reply.encodingId⟩

/-- The live session of the publisher's generation has applied just these data for its lane, in
this order, and a durable class has stored them, lastingly if asked. -/
def HasApplied (node : Node Fingerprint) (steady : Prop) (binding : Binding)
    (durability : FenceDurability) (data : List Numbered) (state : State Fingerprint) : Prop :=
  ∃ record, state.shared.IsLive record ∧
    state.shared.lane record binding.bufferClass binding.publisherUuid = laneOf binding ∧
    (state.shared.applied (laneOf binding)).map numbered = data ∧
    (steady → binding.bufferClass = .durable →
      ∀ datum ∈ state.shared.applied (laneOf binding), ∃ engine : Engine,
        (state.shared.records record).engine = some engine ∧
        Keeps node engine.contents datum.2 ∧
        (durability = kSynced →
          engine.powerLossDurable = true ∧ Keeps node engine.lasting datum.2))

section Transport

variable {others : MetaNode} {acks : AckRegistry AckToken Fingerprint}

/-- The node replies to the query for a token with the result that it retains. -/
theorem replyMetaQuery_token {token : AckToken} {queryKey : ByteString}
    (hvalid : isValidAckToken token = true)
    (hkey : buildMetaAckKey node.keyPrefix (formatAckToken token) = some queryKey) :
    replyMetaQuery (metaNode node others acks) queryKey =
      ((find acks token).bind fun result => (encodeAckResult (raw result)).toOption).toList.map
        fun encoded => ⟨queryKey, encoded, SessionDiscovery.kSitosV1Ack⟩ := by
  have hroute : (Route.metaAck (formatAckToken token)).build node.keyPrefix = some queryKey := hkey
  have hparsed : parseKey (metaNode node others acks).keyPrefix queryKey =
      some ⟨.metaAck, [], formatAckToken token, [], false, none⟩ := (parseKey_of_build hroute).1
  have hresults : (parseAckToken (formatAckToken token)).bind (metaNode node others acks).results =
      (find acks token).map raw := by
    rw [parseAckToken_formatAckToken hvalid, Option.bind_some]
    rfl
  rw [replyMetaQuery, hparsed]
  cases hfind : find acks token with
  | none => simp [hresults, hfind]
  | some result =>
      cases hencoded : encodeAckResult (raw result) with
      | error message => simp [hresults, hfind, hencoded, Except.toOption]
      | ok encoded => simp [hresults, hfind, hencoded, Except.toOption]

theorem result_of_reply {token : AckToken} {queryKey : ByteString} {reply : Query.Reply}
    (hvalid : isValidAckToken token = true)
    (hkey : buildMetaAckKey node.keyPrefix (formatAckToken token) = some queryKey)
    (hreply : reply ∈ replyMetaQuery (metaNode node others acks) queryKey) :
    ∃ result, find acks token = some result ∧
      decodeAckResult reply.payload = .ok (raw result) := by
  rw [replyMetaQuery_token hvalid hkey] at hreply
  obtain ⟨encoded, hmem, rfl⟩ := List.mem_map.mp hreply
  obtain ⟨result, hfind, hoption⟩ := Option.bind_eq_some_iff.mp (Option.mem_toList.mp hmem)
  cases hencoded : encodeAckResult (raw result) with
  | error message => simp [hencoded, Except.toOption] at hoption
  | ok written =>
      rw [hencoded] at hoption
      obtain rfl : written = encoded := Option.some.inj hoption
      exact ⟨result, hfind, decode_of_encode hencoded⟩

variable {steady : Prop} {Brought : Delivered → Prop} {Replied : ByteString → Query.Reply → Prop}
  {state : State Fingerprint} {publisher : FencePublisher Cause} {durability : FenceDurability}
  {timeout : ℤ} {link : FenceLink Cause} {puts : List Sent} {key : ByteString}
  {events : List AckClient.Event} {result : AckResultV1}

/-- The marker that was answered is the one of the Fence. -/
theorem route_of_marker (hbegins : Begins binding publisher durability timeout link key)
    (hcarries : Carries node binding link puts (link.marker key :: events.map .polled) Brought
      Replied) {marker : MarkerCall} (htoken : marker.token = link.token)
    (hfacts : MarkerFacts node Brought marker) :
    marker.route = ⟨.buffer, binding.sid, binding.receiverGeneration, some binding.bufferClass,
      binding.publisherUuid, toAckDurability durability, publisher.lastSequence⟩ := by
  obtain ⟨delivered, hsent, hsample, hack⟩ := hfacts.sent
  have hkey : marker.sample.key = key := by
    rw [← hsample]
    exact eq_of_marker_mem (hcarries.marker delivered hsent (by rw [hack, htoken]))
  have hroute := hfacts.route
  rw [hkey, hcarries.keyPrefix, markerRoute, parseFenceMarkerRoute_of_build hbegins.key] at hroute
  exact (Prod.mk.inj (Option.some.inj hroute)).1.symm

/-- What has the sequences of the data, and came from the publisher, is the data. -/
theorem map_numbered_eq (hfollows : Follows binding 0 puts) {through : UInt64}
    (hthrough : through.toNat = (dataLanes puts).length) {applied : List Datum}
    (hsequences : applied.map Prod.fst = sequencesThrough through)
    (hcarries : Carries node binding link puts (link.marker key :: events.map .polled) Brought
      Replied) (hcame : ∀ datum ∈ applied, Came node Brought (laneOf binding) datum) :
    applied.map numbered = dataPuts puts := by
  have hkeys : (applied.map numbered).map Prod.fst = (dataPuts puts).map Prod.fst := by
    rw [List.map_map, map_fst_dataPuts hfollows hthrough, ← hsequences]
    rfl
  refine eq_of_map_fst_eq hkeys (nodup_map_fst_dataPuts hfollows) fun pair hpair => ?_
  obtain ⟨datum, hdatum, rfl⟩ := List.mem_map.mp hpair
  obtain ⟨delivered, sequence, hsent, hsample, hlane, hsequence, -⟩ := hcame datum hdatum
  have hmem := hcarries.data delivered sequence hsent hlane
  rwa [hsample, hsequence] at hmem

theorem hasApplied_of_answered (hfollows : Follows binding 0 puts)
    (hlast : publisher.lastSequence.toNat = (dataLanes puts).length)
    (hbegins : Begins binding publisher durability timeout link key)
    (hcarries : Carries node binding link puts (link.marker key :: events.map .polled) Brought
      Replied) (hanswered : Answered node steady Brought link.token result state) :
    HasApplied node steady binding durability (dataPuts puts) state := by
  obtain ⟨call, marker, record, bufferClass, -, htoken, hfacts, hvouched⟩ := hanswered
  have hroute := route_of_marker hbegins hcarries htoken hfacts
  rw [hroute] at hvouched
  have hclass : binding.bufferClass = bufferClass := Option.some.inj hvouched.asked
  subst hclass
  refine ⟨record, hvouched.live, hvouched.lane, ?_, fun hsteady hdurable datum hdatum => ?_⟩
  · exact map_numbered_eq hfollows hlast hvouched.applied hcarries hvouched.came
  · obtain ⟨engine, hengine, hkeeps, hlasting⟩ := hvouched.stored hsteady hdurable datum hdatum
    exact ⟨engine, hengine, hkeeps, fun hsynced => hlasting (if_pos hsynced)⟩

end Transport

/-! ## From receipt to node -/

section Runs

variable [DecidableEq Fingerprint] {publisher : FencePublisher Cause}
  {calls : List (BufferPublisher.Call Cause)} {entries : List (BufferPublisher.Entry Cause)}
  {actions : List BufferFence.Action} {laneCapacity ackCapacity : ℕ} {others : MetaNode}

/-- A Fence returns a receipt only if the node had applied just the data that the publisher ever
put, each datum once and in order, to the live session of its generation; durable data was stored,
lastingly if that was asked for. -/
theorem receipt_tells_applied
    (hpublished : BufferPublisher.run binding (FencePublisher.start true) calls =
      some (publisher, entries))
    {durability : FenceDurability} {timeout : ℤ} {link : FenceLink Cause}
    (hcarries : Carries node binding link (sentIn entries)
      (fence binding publisher durability timeout link).2.sent (DeliveredIn actions)
      (RepliedIn node others (start laneCapacity ackCapacity) actions))
    {receipt : FenceReceipt}
    (hreturned : (fence binding publisher durability timeout link).2.returned =
      some (.ok receipt)) :
    Once (step node) (start laneCapacity ackCapacity) actions
      (HasApplied node (ReadsServed actions) binding durability (dataPuts (sentIn entries))) := by
  have hadvances := run_advances ready_start hpublished
  have hlast : publisher.lastSequence.toNat = (dataLanes (sentIn entries)).length :=
    hadvances.last.trans (Nat.zero_add _)
  obtain ⟨key, events, hbegins, hsent, hacknowledged⟩ :=
    marker_of_receipt hadvances.ready hreturned
  rw [hsent] at hcarries
  obtain ⟨queryKey, round, acknowledgement, hquery, ⟨silent, rest, hrounds, -⟩,
    ⟨-, reply, later, hreplies, -, -, hdecoded⟩, -, -, -, hkind, hstatus, -⟩ := hacknowledged
  obtain ⟨asked, state, hasked, hserved, hreply⟩ :=
    hcarries.replies queryKey hquery round (by simp [hrounds]) reply (by simp [hreplies])
  rw [← hcarries.keyPrefix] at hquery
  obtain ⟨result, hfind, hresult⟩ :=
    result_of_reply (isValidAckToken_generateAckToken _) hquery hreply
  obtain rfl : acknowledgement = raw result := Except.ok.inj (hdecoded.symm.trans hresult)
  have htold := told_run (fun action hmem => brings_of_mem (hasked.subset hmem)) hserved
  obtain ⟨earlier, before, hearlier, hran, hanswered⟩ := htold.retained _ _ hfind
    ((kindCode_eq_iff _ _).mp hkind) ((statusCode_eq_iff _ _).mp hstatus)
  exact ⟨earlier, before, hearlier.trans hasked, hran,
    hasApplied_of_answered hadvances.follows hlast hbegins hcarries hanswered⟩

end Runs

/-! ## Two data and their Fence -/

def deliveredPut (name : ByteString) (sequence : Sequence) (payload : ByteString) : Delivered where
  sample := ⟨.put, ascii "sitos/buffers/run/durable/" ++ name, ascii "zenoh/bytes", payload⟩
  observations := { lane := .metadata (uuidOf 2) sequence }

def deliveredMarker : Delivered where
  sample :=
    ⟨.put, (buildBufferFenceMarkerKey (ascii "sitos") (ascii "run") (uuidOf 1) .durable (uuidOf 2)
      .synced 2).getD [], kSitosV1Fence, [kFenceSchemaVersion]⟩
  observations := { ack := .token (uuidOf 0) }

theorem two_ne_zero_sequence : (2 : UInt64) ≠ 0 := by decide

def firstPut : Delivered := deliveredPut (ascii "first") ⟨1, one_ne_zero_sequence⟩ [1]

def secondPut : Delivered := deliveredPut (ascii "second") ⟨2, two_ne_zero_sequence⟩ [2]

/-- The node takes one sample after the other. -/
def receiptRun : List BufferFence.Action :=
  [.publish (ascii "run") (uuidOf 1) true false,
    .activate 0 (some ⟨fun _ => none, fun _ => none, true⟩) true,
    .deliver 0 firstPut] ++ List.replicate 6 (.block 0 {}) ++
    [.deliver 1 secondPut] ++ List.replicate 6 (.block 1 {}) ++
    [.deliver 2 deliveredMarker] ++ List.replicate 6 (.block 2 {})

theorem receiptRun_ok :
    ((run (step plainNode) (start 1 1) receiptRun).bind fun state =>
      find state.shared.acks (uuidOf 0)) = some (fenceResult .ok .synced 2) := by
  decide +kernel

theorem deliveredIn_receiptRun {delivered : Delivered}
    (hdelivered : DeliveredIn receiptRun delivered) :
    delivered = firstPut ∨ delivered = secondPut ∨ delivered = deliveredMarker := by
  obtain ⟨call, hmem⟩ := hdelivered
  simp only [receiptRun, List.mem_append, List.mem_cons, List.mem_replicate, List.not_mem_nil,
    reduceCtorEq, BufferFence.Action.deliver.injEq, and_false, or_false, false_or] at hmem
  rcases hmem with (⟨-, hfirst⟩ | ⟨-, hsecond⟩) | ⟨-, hmarker⟩
  · exact .inl hfirst
  · exact .inr (.inl hsecond)
  · exact .inr (.inr hmarker)

theorem dataPuts_pushTwice :
    dataPuts (sentIn (ran (pushTwice none)).2) =
      [(1, firstPut.sample.key, [1]), (2, secondPut.sample.key, [2])] := rfl

def noSessions : MetaNode := ⟨[], fun _ => none, fun _ => none, fun _ => none⟩

/-- A transport that brings all of it. -/
theorem carries_receiptRun {state : State Unit}
    (hserved : run (step plainNode) (start 1 1) receiptRun = some state)
    (hfind : find state.shared.acks (uuidOf 0) = some (fenceResult .ok .synced 2)) :
    Carries plainNode durableBinding (steadyLink [acknowledgingRound])
      (sentIn (ran (pushTwice none)).2)
      (fence durableBinding (ran (pushTwice none)).1 kSynced 5
        (steadyLink [acknowledgingRound])).2.sent (DeliveredIn receiptRun)
      (RepliedIn plainNode noSessions (start 1 1) receiptRun) where
  keyPrefix := rfl
  data := by
    intro delivered sequence hdelivered hlane
    rw [dataPuts_pushTwice]
    rcases deliveredIn_receiptRun hdelivered with rfl | rfl | rfl
    · cases hlane
      exact List.mem_cons_self
    · cases hlane
      exact List.mem_cons_of_mem _ List.mem_cons_self
    · cases hlane
  marker := by
    intro delivered hdelivered hack
    rcases deliveredIn_receiptRun hdelivered with rfl | rfl | rfl
    · cases hack
    · cases hack
    · exact List.Mem.head _
  replies := by
    intro queryKey hquery round hround reply hreply
    obtain rfl := List.mem_singleton.mp hround
    obtain rfl := List.mem_singleton.mp hreply
    have hvalid : isValidAckToken (uuidOf 0) = true := isValidAckToken_generateAckToken _
    have hquery : buildMetaAckKey plainNode.keyPrefix (formatAckToken (uuidOf 0)) =
        some queryKey := hquery
    have hencoded : encodeAckResult (raw (fenceResult .ok .synced 2)) =
        .ok (render (raw (fenceResult .ok .synced 2))) := rfl
    have hkey : joinKey (ascii "sitos") (ascii "meta/ack") (formatAckToken (uuidOf 0)) =
        queryKey := Option.some.inj hquery
    have hreplies :=
      @replyMetaQuery_token _ plainNode noSessions state.shared.acks _ _ hvalid hquery
    rw [hfind, Option.bind_some, hencoded] at hreplies
    refine once_now hserved ?_
    rw [hkey, hreplies]
    exact List.mem_map.mpr ⟨_, Option.mem_toList.mpr rfl, rfl⟩

theorem receipt_tells_applied_two :
    Once (step plainNode) (start 1 1) receiptRun
      (HasApplied plainNode (ReadsServed receiptRun) durableBinding kSynced
        (dataPuts (sentIn (ran (pushTwice none)).2))) := by
  obtain ⟨state, hserved, hfind⟩ := Option.bind_eq_some_iff.mp receiptRun_ok
  have hpublished := @run_eq_ran (pushTwice none) rfl
  have hreturned : (fence durableBinding (ran (pushTwice none)).1 kSynced 5
      (steadyLink [acknowledgingRound])).2.returned = some (.ok ⟨2, kSynced⟩) := rfl
  exact receipt_tells_applied hpublished (carries_receiptRun hserved hfind) hreturned

end Sitos.BufferReceipt

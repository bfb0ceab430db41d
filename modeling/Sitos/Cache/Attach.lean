import Sitos.Core.Machine
import Sitos.Cache.Agreement

/-!
# Attaching a cache

A cache joins a running session: it declares its subscriber, reads the snapshot
and the overlay, replays what it buffered meanwhile and goes live.  The node and
the subscriber receive the same samples in the same order but each at its own
pace, and the node writes a batch entry by entry, so the overlay may be read in
the middle of a sample.
-/

namespace Sitos.Attach

open Sitos.Bytes
open Sitos.Agreement
open Sitos.Assignments
open Sitos.Machine
open Sitos.Mutations
open Sitos.Sample
open Sitos.Value

/-- The session a cache attaches to, and the samples published to it. -/
structure Session where
  keyPrefix : ByteString
  sid : ByteString
  snapshot : ByteMap
  overlay : ByteMap
  samples : List TransportSample

inductive Phase where
  | undeclared
  | buffering
  | live
  deriving DecidableEq, Repr

/-- The node on one side, the attaching cache on the other.  The samples that
each side has finished, missed or received are kept for the proofs and for the
condition on the overlay read. -/
structure AttachState where
  store : ByteMap
  finished : List TransportSample
  pending : Option (List (Change ByteString))
  nodeQueue : List TransportSample
  phase : Phase
  missed : List TransportSample
  received : List TransportSample
  cacheQueue : List TransportSample
  snapshotReply : Option ValueMap
  overlayReply : Option ValueMap
  buffered : List Mutation
  baseline : ValueMap
  effective : ValueMap

inductive Action where
  | nodeBegin
  | nodeWrite
  | nodeEnd
  | deliver
  | declare
  | getSnapshot
  | getOverlay
  | drain
  deriving DecidableEq, Repr

def start (session : Session) : AttachState :=
  { store := session.overlay, finished := [], pending := none,
    nodeQueue := session.samples, phase := .undeclared, missed := [], received := [],
    cacheQueue := session.samples, snapshotReply := none, overlayReply := none,
    buffered := [], baseline := fun _ => none, effective := fun _ => none }

/-- The effective map built from the two replies. -/
def overlaid (baseline overlay : ValueMap) : ValueMap := fun key =>
  match overlay key with
  | some value => some value
  | none => baseline key

/-- One delivery to the subscriber: missed before the declaration, then buffered,
then applied. -/
def onSample (session : Session) (state : AttachState) (sample : TransportSample) :
    AttachState :=
  let mutations := cacheMutations session.keyPrefix session.sid sample
  match state.phase with
  | .undeclared => { state with missed := state.missed ++ [sample] }
  | .buffering =>
      { state with
        received := state.received ++ [sample]
        buffered := state.buffered ++ mutations }
  | .live =>
      { state with
        received := state.received ++ [sample]
        effective := applyMutations state.baseline state.effective mutations }

def step (session : Session) (state : AttachState) : Action → Option AttachState
  | .nodeBegin =>
      match state.pending, state.nodeQueue with
      | none, sample :: _ =>
          some { state with
            pending := some (nodeChanges session.keyPrefix session.sid sample) }
      | _, _ => none
  | .nodeWrite =>
      match state.pending with
      | some (change :: changes) =>
          some { state with
            store := Function.update state.store (assignment change).1 (assignment change).2
            pending := some changes }
      | _ => none
  | .nodeEnd =>
      match state.pending, state.nodeQueue with
      | some [], sample :: queue =>
          some { state with
            pending := none, finished := state.finished ++ [sample], nodeQueue := queue }
      | _, _ => none
  | .deliver =>
      match state.cacheQueue with
      | [] => none
      | sample :: queue => some (onSample session { state with cacheQueue := queue } sample)
  | .declare =>
      if state.phase = .undeclared then some { state with phase := .buffering } else none
  | .getSnapshot =>
      if state.phase = .buffering ∧ state.snapshotReply.isNone then
        some { state with snapshotReply := some (loadedValues session.snapshot) }
      else none
  | .getOverlay =>
      -- the assumption on the transport: what the subscriber missed is at the node
      if state.snapshotReply.isSome ∧ state.overlayReply.isNone ∧
          state.missed.length ≤ state.finished.length then
        some { state with overlayReply := some (loadedValues state.store) }
      else none
  | .drain =>
      match state.phase, state.snapshotReply, state.overlayReply with
      | .buffering, some snapshot, some overlay =>
          some { state with
            baseline := snapshot
            effective := applyMutations snapshot (overlaid snapshot overlay) state.buffered
            buffered := []
            phase := .live }
      | _, _, _ => none

/-- Both sides have taken every sample. -/
def Settled (state : AttachState) : Prop :=
  state.pending = none ∧ state.nodeQueue = [] ∧ state.cacheQueue = []

/-! ## The invariant -/

section Invariant

variable (session : Session)

/-- The changes of a list of samples at the node, in order. -/
def changesOf (samples : List TransportSample) : List (Change ByteString) :=
  samples.flatMap (nodeChanges session.keyPrefix session.sid)

def mutationsOf (samples : List TransportSample) : List Mutation :=
  samples.flatMap (cacheMutations session.keyPrefix session.sid)

/-- The overlay after some changes. -/
def storeAfter (changes : List (Change ByteString)) : ByteMap :=
  assignAll session.overlay (changes.map assignment)

/-- The node has made some changes of its samples: those of the finished ones
and a part of the next. -/
structure NodeProgress (state : AttachState) (made : List (Change ByteString)) : Prop where
  samples_eq : session.samples = state.finished ++ state.nodeQueue
  store_eq : state.store = storeAfter session made
  pending_none : state.pending = none → made = changesOf session state.finished
  pending_some : ∀ rest, state.pending = some rest →
    ∃ sample queue part, state.nodeQueue = sample :: queue ∧
      nodeChanges session.keyPrefix session.sid sample = part ++ rest ∧
      made = changesOf session state.finished ++ part

/-- An overlay reply shows at least what the subscriber missed and at most what
was published. -/
def Reply (state : AttachState) (reply : ValueMap) : Prop :=
  ∃ seen unseen, reply = loadedValues (storeAfter session (changesOf session state.missed ++ seen)) ∧
    changesOf session session.samples = changesOf session state.missed ++ seen ++ unseen

structure Invariant (state : AttachState) : Prop where
  node : ∃ made, NodeProgress session state made
  cache : session.samples = state.missed ++ state.received ++ state.cacheQueue
  undeclared : state.phase = .undeclared → state.received = [] ∧
    state.snapshotReply = none ∧ state.overlayReply = none ∧ state.buffered = []
  snapshot : ∀ reply, state.snapshotReply = some reply → reply = loadedValues session.snapshot
  overlay : ∀ reply, state.overlayReply = some reply → Reply session state reply
  buffering : state.phase = .buffering → state.buffered = mutationsOf session state.received
  live : state.phase = .live → ∃ reply, Reply session state reply ∧
    state.baseline = loadedValues session.snapshot ∧
    state.effective = applyMutations state.baseline (overlaid state.baseline reply)
      (mutationsOf session state.received)

end Invariant

theorem invariant_start (session : Session) : Invariant session (start session) where
  node := ⟨[], rfl, rfl, fun _ => rfl, by simp [start]⟩
  cache := rfl
  undeclared := fun _ => ⟨rfl, rfl, rfl, rfl⟩
  snapshot := by simp [start]
  overlay := by simp [start]
  buffering := by simp [start]
  live := by simp [start]

@[simp]
theorem changesOf_append (session : Session) (first second : List TransportSample) :
    changesOf session (first ++ second) =
      changesOf session first ++ changesOf session second :=
  List.flatMap_append

@[simp]
theorem mutationsOf_append (session : Session) (first second : List TransportSample) :
    mutationsOf session (first ++ second) =
      mutationsOf session first ++ mutationsOf session second :=
  List.flatMap_append

theorem changesOf_singleton (session : Session) (sample : TransportSample) :
    changesOf session [sample] = nodeChanges session.keyPrefix session.sid sample := by
  simp [changesOf]

theorem mutationsOf_singleton (session : Session) (sample : TransportSample) :
    mutationsOf session [sample] = cacheMutations session.keyPrefix session.sid sample := by
  simp [mutationsOf]

/-! ## Node steps -/

theorem NodeProgress.begin {session : Session} {state : AttachState}
    {made : List (Change ByteString)} (hnode : NodeProgress session state made)
    (hpending : state.pending = none) {sample : TransportSample}
    {queue : List TransportSample} (hqueue : state.nodeQueue = sample :: queue) :
    NodeProgress session
      { state with pending := some (nodeChanges session.keyPrefix session.sid sample) }
      made where
  samples_eq := hnode.samples_eq
  store_eq := hnode.store_eq
  pending_none := by simp
  pending_some := by
    rintro rest hrest
    obtain rfl := Option.some.inj hrest
    exact ⟨sample, queue, [], hqueue, rfl, by simpa using hnode.pending_none hpending⟩

theorem NodeProgress.write {session : Session} {state : AttachState}
    {made : List (Change ByteString)} (hnode : NodeProgress session state made)
    {change : Change ByteString} {changes : List (Change ByteString)}
    (hpending : state.pending = some (change :: changes)) :
    NodeProgress session
      { state with
        store := Function.update state.store (assignment change).1 (assignment change).2
        pending := some changes }
      (made ++ [change]) where
  samples_eq := hnode.samples_eq
  store_eq := by
    simp only [hnode.store_eq, storeAfter, List.map_append, List.map_cons, List.map_nil]
    exact (assignAll_append_singleton _ _ _ _).symm
  pending_none := by simp
  pending_some := by
    rintro rest hrest
    obtain rfl := Option.some.inj hrest
    obtain ⟨sample, queue, part, hqueue, hsample, hmade⟩ := hnode.pending_some _ hpending
    exact ⟨sample, queue, part ++ [change], hqueue, by simp [hsample], by simp [hmade]⟩

theorem NodeProgress.finish {session : Session} {state : AttachState}
    {made : List (Change ByteString)} (hnode : NodeProgress session state made)
    (hpending : state.pending = some []) {sample : TransportSample}
    {queue : List TransportSample} (hqueue : state.nodeQueue = sample :: queue) :
    NodeProgress session
      { state with
        pending := none, finished := state.finished ++ [sample], nodeQueue := queue }
      made where
  samples_eq := by simpa [hqueue] using hnode.samples_eq
  store_eq := hnode.store_eq
  pending_none := by
    obtain ⟨next, rest, part, hnext, hchanges, hmade⟩ := hnode.pending_some _ hpending
    obtain ⟨rfl, rfl⟩ := List.cons.inj (hqueue.symm.trans hnext)
    intro _
    rw [changesOf_append, changesOf_singleton, hchanges, List.append_nil, hmade]
  pending_some := by simp

/-- What the node has made is the beginning of what it will make, and contains
the changes of every finished sample. -/
theorem NodeProgress.made_split {session : Session} {state : AttachState}
    {made : List (Change ByteString)} (hnode : NodeProgress session state made) :
    ∃ part unseen, made = changesOf session state.finished ++ part ∧
      changesOf session session.samples = made ++ unseen := by
  rw [hnode.samples_eq, changesOf_append]
  cases hpending : state.pending with
  | none =>
      exact ⟨[], changesOf session state.nodeQueue, by simp [hnode.pending_none hpending],
        by rw [hnode.pending_none hpending]⟩
  | some rest =>
      obtain ⟨sample, queue, part, hqueue, hsample, hmade⟩ := hnode.pending_some rest hpending
      refine ⟨part, rest ++ changesOf session queue, hmade, ?_⟩
      rw [hqueue, ← List.singleton_append, changesOf_append, changesOf_singleton, hsample,
        hmade]
      simp

/-- The overlay read after everything missed is finished. -/
theorem reply_of_node {session : Session} {state : AttachState}
    {made : List (Change ByteString)} (hnode : NodeProgress session state made)
    (hcache : session.samples = state.missed ++ state.received ++ state.cacheQueue)
    (hmissed : state.missed.length ≤ state.finished.length) :
    Reply session state (loadedValues state.store) := by
  obtain ⟨part, unseen, hmade, hall⟩ := hnode.made_split
  have hleft : state.missed <+: session.samples :=
    ⟨state.received ++ state.cacheQueue, by rw [hcache, List.append_assoc]⟩
  have hright : state.finished <+: session.samples :=
    ⟨state.nodeQueue, hnode.samples_eq.symm⟩
  obtain ⟨more, hfinished⟩ := List.prefix_of_prefix_length_le hleft hright hmissed
  have hseen : made = changesOf session state.missed ++ (changesOf session more ++ part) := by
    rw [hmade, ← hfinished, changesOf_append, List.append_assoc]
  refine ⟨changesOf session more ++ part, unseen, ?_, ?_⟩
  · rw [← hseen, hnode.store_eq]
  · rw [hall, hseen]

/-! ## Every step keeps the invariant -/

theorem Invariant.deliver {session : Session} {state : AttachState}
    (hinv : Invariant session state) {sample : TransportSample}
    {queue : List TransportSample} (hqueue : state.cacheQueue = sample :: queue) :
    Invariant session (onSample session { state with cacheQueue := queue } sample) := by
  obtain ⟨made, hnode⟩ := hinv.node
  have hcache : session.samples = state.missed ++ state.received ++ sample :: queue := by
    rw [hinv.cache, hqueue]
  cases hphase : state.phase with
  | undeclared =>
      obtain ⟨hreceived, hsnapshot, hoverlay, hbuffered⟩ := hinv.undeclared hphase
      simp only [onSample]
      refine ⟨⟨made, hnode.samples_eq, hnode.store_eq, hnode.pending_none,
        hnode.pending_some⟩, ?_, fun _ => ⟨hreceived, hsnapshot, hoverlay, hbuffered⟩,
        hinv.snapshot, by simp [hoverlay], by simp, by simp⟩
      simpa [hreceived] using hcache
  | buffering =>
      simp only [onSample]
      refine ⟨⟨made, hnode.samples_eq, hnode.store_eq, hnode.pending_none,
        hnode.pending_some⟩, by simpa using hcache, by simp, hinv.snapshot,
        hinv.overlay, ?_, by simp⟩
      intro _
      rw [mutationsOf_append, mutationsOf_singleton, hinv.buffering hphase]
  | live =>
      obtain ⟨reply, hreply, hbaseline, heffective⟩ := hinv.live hphase
      simp only [onSample]
      refine ⟨⟨made, hnode.samples_eq, hnode.store_eq, hnode.pending_none,
        hnode.pending_some⟩, by simpa using hcache, by simp, hinv.snapshot,
        hinv.overlay, by simp, ?_⟩
      intro _
      refine ⟨reply, hreply, hbaseline, ?_⟩
      rw [heffective, mutationsOf_append, mutationsOf_singleton, applyMutations,
        applyMutations, applyMutations, List.foldl_append]

theorem invariant_step {session : Session} {state next : AttachState} {action : Action}
    (hinv : Invariant session state) (hstep : step session state action = some next) :
    Invariant session next := by
  obtain ⟨made, hnode⟩ := hinv.node
  cases action with
  | nodeBegin =>
      simp only [step] at hstep
      split at hstep
      · next hpending hqueue =>
          obtain rfl := Option.some.inj hstep
          exact ⟨⟨made, hnode.begin hpending hqueue⟩, hinv.cache, hinv.undeclared,
            hinv.snapshot, hinv.overlay, hinv.buffering, hinv.live⟩
      · simp at hstep
  | nodeWrite =>
      simp only [step] at hstep
      split at hstep
      · next hpending =>
          obtain rfl := Option.some.inj hstep
          exact ⟨⟨_, hnode.write hpending⟩, hinv.cache, hinv.undeclared,
            hinv.snapshot, hinv.overlay, hinv.buffering, hinv.live⟩
      · simp at hstep
  | nodeEnd =>
      simp only [step] at hstep
      split at hstep
      · next hpending hqueue =>
          obtain rfl := Option.some.inj hstep
          exact ⟨⟨made, hnode.finish hpending hqueue⟩, hinv.cache, hinv.undeclared,
            hinv.snapshot, hinv.overlay, hinv.buffering, hinv.live⟩
      · simp at hstep
  | deliver =>
      simp only [step] at hstep
      split at hstep
      · simp at hstep
      · next hqueue =>
          obtain rfl := Option.some.inj hstep
          exact hinv.deliver hqueue
  | declare =>
      simp only [step] at hstep
      split_ifs at hstep with hphase
      obtain rfl := Option.some.inj hstep
      obtain ⟨hreceived, hsnapshot, hoverlay, hbuffered⟩ := hinv.undeclared hphase
      exact ⟨⟨made, hnode.samples_eq, hnode.store_eq, hnode.pending_none,
        hnode.pending_some⟩, hinv.cache, by simp, hinv.snapshot, hinv.overlay,
        fun _ => by simp [hbuffered, hreceived, mutationsOf], by simp⟩
  | getSnapshot =>
      simp only [step] at hstep
      split_ifs at hstep with hguard
      obtain rfl := Option.some.inj hstep
      exact ⟨⟨made, hnode.samples_eq, hnode.store_eq, hnode.pending_none,
        hnode.pending_some⟩, hinv.cache, by simp [hguard.1],
        fun reply hreply => (Option.some.inj hreply).symm, hinv.overlay, hinv.buffering,
        hinv.live⟩
  | getOverlay =>
      simp only [step] at hstep
      split_ifs at hstep with hguard
      obtain rfl := Option.some.inj hstep
      have hreply := reply_of_node hnode hinv.cache hguard.2.2
      refine ⟨⟨made, hnode.samples_eq, hnode.store_eq, hnode.pending_none,
        hnode.pending_some⟩, hinv.cache, ?_, hinv.snapshot, ?_, hinv.buffering, hinv.live⟩
      · intro hphase
        simp [(hinv.undeclared hphase).2.1] at hguard
      · rintro reply hsome
        obtain rfl := Option.some.inj hsome
        exact hreply
  | drain =>
      simp only [step] at hstep
      split at hstep
      · next hphase hsnapshot hoverlay =>
          obtain rfl := Option.some.inj hstep
          refine ⟨⟨made, hnode.samples_eq, hnode.store_eq, hnode.pending_none,
            hnode.pending_some⟩, hinv.cache, by simp, hinv.snapshot, hinv.overlay, by simp,
            ?_⟩
          intro _
          refine ⟨_, hinv.overlay _ hoverlay, hinv.snapshot _ hsnapshot, ?_⟩
          rw [hinv.buffering hphase]
      · simp at hstep

/-! ## Convergence -/

/-- Samples on which the node and the cache agree: puts of decodable values,
deletes and batches. -/
def WellFormed (session : Session) (sample : TransportSample) : Prop :=
  Addressed session.keyPrefix session.sid sample ∧
    ¬ Misencoded session.keyPrefix sample ∧ ¬ Undecodable session.keyPrefix sample

theorem changesOf_agree {session : Session} {samples : List TransportSample}
    (hsamples : ∀ sample ∈ samples, WellFormed session sample) :
    (changesOf session samples).map (Change.map decodeValue) =
      (mutationsOf session samples).map
        (Change.map fun value => some (canonical value)) := by
  induction samples with
  | nil => rfl
  | cons sample samples ih =>
      obtain ⟨haddressed, hencoded, hdecodable⟩ := hsamples sample List.mem_cons_self
      have hsample : NodeAgrees session.keyPrefix session.sid sample :=
        nodeAgrees haddressed hencoded hdecodable
      have hrest := ih fun other hother => hsamples other (List.mem_cons_of_mem _ hother)
      rw [← List.singleton_append, changesOf_append, mutationsOf_append, changesOf_singleton,
        mutationsOf_singleton, List.map_append, List.map_append, hrest, hsample]

/-- A change that decodes keeps the store decodable. -/
theorem decodable_assignAll {store : ByteMap} (hstore : Decodable store)
    {changes : List (Change ByteString)}
    (hchanges : ∀ change ∈ changes, ∀ key value, change = .put key value →
      (decode value).isSome) :
    Decodable (assignAll store (changes.map assignment)) := by
  induction changes using List.reverseRecOn with
  | nil => exact hstore
  | append_singleton changes change ih =>
      have hbefore := ih fun other hother => hchanges other (List.mem_append_left _ hother)
      rw [List.map_append, List.map_singleton, assignAll_append_singleton]
      intro key value hvalue
      by_cases hkey : key = (assignment change).1
      · rw [hkey, Function.update_self] at hvalue
        cases change with
        | put written stored =>
            obtain rfl : stored = value := by simpa [assignment] using hvalue
            exact hchanges _ (by simp) written stored rfl
        | delete written => simp [assignment] at hvalue
      · rw [Function.update_of_ne hkey] at hvalue
        exact hbefore key value hvalue

theorem decode_of_agree {changes : List (Change ByteString)} {mutations : List Mutation}
    (hagree : changes.map (Change.map decodeValue) =
      mutations.map (Change.map fun value => some (canonical value))) :
    ∀ change ∈ changes, ∀ key value, change = .put key value → (decode value).isSome := by
  rintro change hchange key value rfl
  have hmem : Change.map decodeValue (.put key value) ∈
      mutations.map (Change.map fun value => some (canonical value)) := by
    rw [← hagree]
    exact List.mem_map_of_mem hchange
  obtain ⟨mutation, _, hmutation⟩ := List.mem_map.mp hmem
  cases mutation with
  | delete other => simp [Change.map] at hmutation
  | put other meant =>
      have hdecoded : some (canonical meant) = decodeValue value := by
        have hpair : key = other ∧ decodeValue value = some (canonical meant) := by
          simpa [Change.map, eq_comm] using hmutation
        exact hpair.2.symm
      cases hvalue : decode value with
      | none => simp [decodeValue, hvalue] at hdecoded
      | some decoded => rfl

theorem storeAfter_append (session : Session) (first second : List (Change ByteString)) :
    storeAfter session (first ++ second) =
      assignAll (storeAfter session first) (second.map assignment) := by
  rw [storeAfter, storeAfter, List.map_append, assignAll_append]

/-- The subscriber repeats what the overlay reply already showed. -/
theorem storeAfter_replay (session : Session)
    (missed seen unseen : List (Change ByteString)) :
    assignAll (storeAfter session (missed ++ seen)) ((seen ++ unseen).map assignment) =
      storeAfter session (missed ++ seen ++ unseen) := by
  calc assignAll (storeAfter session (missed ++ seen)) ((seen ++ unseen).map assignment)
      = assignAll (assignAll (storeAfter session missed) (seen.map assignment))
          (seen.map assignment ++ unseen.map assignment) := by
        rw [storeAfter_append, List.map_append]
    _ = assignAll (storeAfter session missed)
          (seen.map assignment ++ unseen.map assignment) := assignAll_replay _ _ _
    _ = storeAfter session (missed ++ seen ++ unseen) := by
        rw [← List.map_append, ← storeAfter_append, List.append_assoc]

/-- The map built from the replies is what a reader of both would see. -/
theorem overlaid_loadedValues {overlay snapshot : ByteMap} (hoverlay : Decodable overlay) :
    overlaid (loadedValues snapshot) (loadedValues overlay) =
      loadedValues (readThrough overlay snapshot) := by
  funext key
  cases hstored : overlay key with
  | none => simp [overlaid, loadedValues, readThrough, hstored]
  | some stored =>
      obtain ⟨value, hvalue⟩ := Option.isSome_iff_exists.mp (hoverlay key stored hstored)
      simp [overlaid, loadedValues, readThrough, hstored, hvalue]

/-- Attaching leaves no gap: however the steps of the attachment fall between
the deliveries and the node's writes, the live cache ends with the snapshot
overridden by the node's overlay. -/
theorem attach_gap_free (session : Session) (hsnapshot : Decodable session.snapshot)
    (hoverlay : Decodable session.overlay)
    (hsamples : ∀ sample ∈ session.samples, WellFormed session sample)
    (actions : List Action) (state : AttachState)
    (hrun : run (step session) (start session) actions = some state)
    (hlive : state.phase = .live) (hsettled : Settled state) (key : ByteString) :
    (state.effective key).map (fun value => some (canonical value)) =
      (readThrough state.store session.snapshot key).map decodeValue := by
  have hinv : Invariant session state :=
    run_invariant (fun _ _ _ hinv hstep => invariant_step hinv hstep)
      (invariant_start session) hrun
  obtain ⟨hpending, hnodeQueue, hcacheQueue⟩ := hsettled
  obtain ⟨made, hnode⟩ := hinv.node
  obtain ⟨reply, ⟨seen, unseen, hreply, hall⟩, hbaseline, heffective⟩ := hinv.live hlive
  have hcache : session.samples = state.missed ++ state.received := by
    rw [hinv.cache, hcacheQueue, List.append_nil]
  -- the node has made every change
  have hstore : state.store = storeAfter session (changesOf session session.samples) := by
    rw [hnode.store_eq, hnode.pending_none hpending, hnode.samples_eq, hnodeQueue,
      List.append_nil]
  -- what was received is what the reply showed beyond the missed samples, and the rest
  have hreceived : changesOf session state.received = seen ++ unseen := by
    rw [hcache, changesOf_append, List.append_assoc] at hall
    exact List.append_cancel_left hall
  have hagree : (changesOf session state.received).map (Change.map decodeValue) =
      (mutationsOf session state.received).map
        (Change.map fun value => some (canonical value)) :=
    changesOf_agree fun sample hmem => hsamples sample (by rw [hcache]; exact List.mem_append_right _ hmem)
  have hall_agree := changesOf_agree hsamples
  have hdecodes := decode_of_agree hall_agree
  have hreplyDecodable :
      Decodable (storeAfter session (changesOf session state.missed ++ seen)) := by
    apply decodable_assignAll hoverlay
    intro change hchange
    exact hdecodes change (by rw [hall]; exact List.mem_append_left _ hchange)
  let reply : Overlay := ⟨storeAfter session (changesOf session state.missed ++ seen), []⟩
  have hloaded : Follows reply.store (loadedValues session.snapshot)
      (loadedValues (readThrough reply.store session.snapshot)) :=
    follows_loaded hreplyDecodable
  have hfollows := hloaded.applyAll hagree
  rw [applyAll_store, hreceived] at hfollows
  -- replaying the part the reply already showed changes nothing
  rw [storeAfter_replay, ← hall, ← hstore] at hfollows
  rw [heffective, hbaseline, hreply, overlaid_loadedValues hreplyDecodable]
  exact (hfollows.readThrough hsnapshot key).symm

/-- A key with a snapshot value that is put and then deleted. -/
def putThenDelete : Session where
  keyPrefix := ascii "sitos"
  sid := ascii "s"
  snapshot := fun key => if key = ascii "k" then some [0, 1] else none
  overlay := fun _ => none
  samples := [⟨.put, ascii "sitos/session/s/k", kSitosV1, [0, 0]⟩,
    ⟨.delete, ascii "sitos/session/s/k", [], []⟩]

/-- The put is missed and the delete is buffered before the overlay read. -/
theorem attach_gap_free_putThenDelete :
    ∃ state, run (step putThenDelete) (start putThenDelete)
        [.nodeBegin, .nodeWrite, .deliver, .nodeEnd, .declare, .getSnapshot, .deliver,
          .getOverlay, .drain, .nodeBegin, .nodeWrite, .nodeEnd] = some state ∧
      (state.effective (ascii "k")).map (fun value => some (canonical value)) =
        (readThrough state.store putThenDelete.snapshot (ascii "k")).map decodeValue := by
  have hparsed : Key.parseKey (ascii "sitos") (ascii "sitos/session/s/k") =
      some ⟨.session, ascii "s", [], ascii "k", false, none⟩ := by decide
  refine ⟨_, rfl, attach_gap_free putThenDelete ?_ ?_ ?_
    [.nodeBegin, .nodeWrite, .deliver, .nodeEnd, .declare, .getSnapshot, .deliver,
      .getOverlay, .drain, .nodeBegin, .nodeWrite, .nodeEnd] _ rfl rfl ⟨rfl, rfl, rfl⟩ _⟩
  · intro key value hvalue
    simp only [putThenDelete] at hvalue
    split_ifs at hvalue
    obtain rfl := Option.some.inj hvalue
    rfl
  · intro key value hvalue
    simp [putThenDelete] at hvalue
  · intro sample hsample
    have hcases : sample = ⟨.put, ascii "sitos/session/s/k", kSitosV1, [0, 0]⟩ ∨
        sample = ⟨.delete, ascii "sitos/session/s/k", [], []⟩ := by
      simpa [putThenDelete] using hsample
    rcases hcases with rfl | rfl
    · refine ⟨⟨_, hparsed, rfl, rfl⟩, ?_, ?_⟩
      · simp [Misencoded]
      · simp [Undecodable, decode, decodeBody]
    · exact ⟨⟨_, hparsed, rfl, rfl⟩, by simp [Misencoded], by simp [Undecodable]⟩

end Sitos.Attach

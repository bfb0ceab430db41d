import Sitos.Node.AckHistory
import Sitos.Node.Apply

/-!
# Acknowledged application at the node

A tokenized sample claims its token, is applied once and leaves a result that
queries are answered from.  While an engine call runs, the same thread may
deliver further samples; they are rejected without touching an engine.  The
script says how each engine call ends and what is delivered inside it.

Beside the node the model keeps, for each token, the sample that last created
its entry and every engine call made for the token since then.
-/

namespace Sitos.AckApply

open Sitos.Bytes
open Sitos.AckHistory
open Sitos.AckResult
open Sitos.Apply
open Sitos.Batch
open Sitos.Key
open Sitos.Machine
open Sitos.Registry
open Sitos.Sample
open Sitos.Value

variable {Token Fingerprint : Type} [DecidableEq Token]

def kParameterLane : UInt64 := 0

inductive AckObservation (Token : Type) where
  | absent
  | token (token : Token)
  | malformed

/-- A write that an operation stands for. -/
abbrev Write := Target × Change ByteString

structure Attempt where
  write : Write
  callEnd : CallEnd
  deriving DecidableEq

/-- One engine call: the samples delivered inside it and how it ends. -/
structure EngineCall (Token : Type) where
  reentrant : List (AckObservation Token × TransportSample)
  callEnd : CallEnd

/-- One delivery on the application lane, with what its surroundings do: the
sessions it finds and the allocations that fail. -/
structure Delivery (Token : Type) where
  ack : AckObservation Token
  sample : TransportSample
  access : ByteString → SessionAccess
  claimMemory : Memory
  applyMemory : Memory

structure NodeState (Token Fingerprint : Type) where
  registry : AckRegistry Token Fingerprint
  script : List (EngineCall Token)
  current : Option Token
  history : Token → Option (TransportSample × List Attempt)

/-- The node's fixed surroundings. -/
structure Node (Fingerprint : Type) where
  keyPrefix : ByteString
  fingerprintOf : AckOperationKind → TransportSample → Fingerprint

def laneBusyResult (kind : AckOperationKind) : AckResultV1 :=
  makeAckResult kind .error 0 (if kind = .batch then kAckNoFailedIndex else 0)

def operationKind (keyPrefix : ByteString) (sample : TransportSample) : AckOperationKind :=
  match parseKey keyPrefix sample.key with
  | none => .put
  | some parsed => if parsed.isBatch then .batch else .put

def start (capacity : ℕ) (script : List (EngineCall Token)) :
    NodeState Token Fingerprint :=
  { registry := create capacity, script, current := none, history := fun _ => none }

/-- Forgets what was known of a token: its entry is new. -/
def renew (state : NodeState Token Fingerprint) (token : Token) (sample : TransportSample) :
    Token → Option (TransportSample × List Attempt) :=
  Function.update state.history token (some (sample, []))

variable (node : Node Fingerprint)

/-- A sample delivered from inside an engine call. -/
def onReentrantSample (state : NodeState Token Fingerprint)
    (delivered : AckObservation Token × TransportSample) : NodeState Token Fingerprint :=
  match delivered with
  | (.token token, sample) =>
      let kind := operationKind node.keyPrefix sample
      let (registry, retained) := recordRejected state.registry token
        (node.fingerprintOf kind sample) (laneBusyResult kind)
      { state with
        registry
        history := if retained then renew state token sample else state.history }
  | _ => state

/-- Notes an engine call under the token being applied. -/
def note (state : NodeState Token Fingerprint) (attempt : Attempt) :
    NodeState Token Fingerprint :=
  match state.current with
  | none => state
  | some token =>
      { state with
        history := Function.update state.history token
          ((state.history token).map fun (sample, attempts) =>
            (sample, attempts ++ [attempt])) }

/-- A call beyond the script succeeds quietly. -/
def engineCall (state : NodeState Token Fingerprint) (write : Write) :
    NodeState Token Fingerprint × CallEnd :=
  match state.script with
  | [] => (note state ⟨write, .returned true⟩, .returned true)
  | call :: script =>
      let state := note { state with script } ⟨write, call.callEnd⟩
      (call.reentrant.foldl (onReentrantSample node) state, call.callEnd)

def nodeEngines : Engines (NodeState Token Fingerprint) where
  put state target key value := engineCall node state (target, .put key value)
  delete state target key := engineCall node state (target, .delete key)

/-- The result an unwinding guard publishes. -/
def guardResult (progress : AckApplyProgress) : AckResultV1 :=
  if !progress.engineInvoked then
    makeAckResult progress.kind .error 0
      (if progress.kind = .batch then kAckNoFailedIndex else 0)
  else
    makeAckResult progress.kind .outcomeUnknown progress.appliedCount
      (if progress.kind = .batch then progress.currentIndex else 0)

def applyParameters (state : NodeState Token Fingerprint) (delivery : Delivery Token)
    (progress : Option AckApplyProgress) : Applied (NodeState Token Fingerprint) :=
  match delivery.applyMemory with
  | .available =>
      applyParameterSample (nodeEngines node) delivery.access
        (fun state _ _ => ⟨state, none, [], none⟩) node.keyPrefix state delivery.sample
        progress
  | .exhausted => ⟨state, progress, [], none⟩

/-- The result that reaches the registry: the returned one, or the guard's. -/
def published (applied : Applied (NodeState Token Fingerprint)) (kind : AckOperationKind) :
    AckResultV1 :=
  applied.result.getD (guardResult (applied.progress.getD ⟨kind, false, 0, 0⟩))

variable [DecidableEq Fingerprint]

def applyAcknowledgedSample (state : NodeState Token Fingerprint) (token : Token)
    (delivery : Delivery Token) : NodeState Token Fingerprint :=
  let kind := operationKind node.keyPrefix delivery.sample
  let fingerprint := node.fingerprintOf kind delivery.sample
  match claimOrReject delivery.claimMemory state.registry token fingerprint kParameterLane
      (laneBusyResult kind) with
  | (registry, some .admitted) =>
      let claimed : NodeState Token Fingerprint :=
        { state with
          registry, current := some token, history := renew state token delivery.sample }
      let applied := applyParameters node claimed delivery (some ⟨kind, false, 0, 0⟩)
      { applied.state with
        registry := (complete applied.state.registry token (published applied kind)).1
        current := none }
  | (registry, some .laneBusy) =>
      { state with registry, history := renew state token delivery.sample }
  | (registry, _) => { state with registry }

def onSample (state : NodeState Token Fingerprint) (delivery : Delivery Token) :
    NodeState Token Fingerprint :=
  match delivery.ack with
  | .malformed => state
  | .token token => applyAcknowledgedSample node state token delivery
  | .absent => (applyParameters node state delivery none).state

def operationTarget (parsed : ParsedKey) : Target :=
  if parsed.kind = .session then .overlay parsed.sid else .base

/-- The writes a tokenized sample stands for, in order. -/
def operationWrites (keyPrefix : ByteString) (sample : TransportSample) : List Write :=
  match parseKey keyPrefix sample.key with
  | none => []
  | some parsed =>
      if parsed.isBatch then
        ((decodeBatch sample.payload).getD []).map fun entry =>
          (operationTarget parsed, .put entry.key (encode entry.value))
      else
        [(operationTarget parsed, .put parsed.relativeKey
          (if sample.encodingId ≠ kSitosV1 then encode (.bytes sample.payload)
            else sample.payload))]

/-- What a result says about the engine calls made for its operation. -/
structure Honest (keyPrefix : ByteString) (sample : TransportSample)
    (attempts : List Attempt) (result : AckResultV1) : Prop where
  once : attempts.map Attempt.write <+: operationWrites keyPrefix sample
  confirmed : ∀ attempt ∈ attempts.dropLast, attempt.callEnd = .returned true
  ok : result.status = .ok → attempts.map Attempt.write = operationWrites keyPrefix sample ∧
    ∀ attempt ∈ attempts, attempt.callEnd = .returned true
  definite : result.status ≠ .ok → result.status ≠ .outcomeUnknown → attempts = []
  unknown : result.operationKind = .batch → result.status = .outcomeUnknown →
    result.appliedCount = result.failedIndex ∧
      attempts.length = result.failedIndex.toNat + 1
  valid : validateAckResult result = .ok ()

omit [DecidableEq Token] [DecidableEq Fingerprint] in
theorem honest_of_rejection (keyPrefix : ByteString) (sample : TransportSample)
    {result : AckResultV1} (hok : result.status ≠ .ok)
    (hunknown : result.status ≠ .outcomeUnknown)
    (hvalid : validateAckResult result = .ok ()) : Honest keyPrefix sample [] result where
  once := List.nil_prefix
  confirmed := by simp
  ok := fun h => absurd h hok
  definite := fun _ _ => rfl
  unknown := fun _ h => absurd h hunknown
  valid := hvalid

theorem isValidUtf8_nil : isValidUtf8 [] = true := rfl

theorem validate_putFailure {status : Status} (hwire : isWireStatus status = true)
    (hok : status ≠ .ok) : validateAckResult (putFailure status) = .ok () := by
  simp [validateAckResult, putFailure, makeAckResult, hwire, hok, isValidUtf8_nil]

theorem validate_put_ok :
    validateAckResult (makeAckResult .put .ok 1 kAckNoFailedIndex) = .ok () := by decide

theorem validate_batch_ok (count : UInt32) :
    validateAckResult (makeAckResult .batch .ok count kAckNoFailedIndex) = .ok () := by
  simp [validateAckResult, makeAckResult, isWireStatus, isValidUtf8_nil]

theorem validate_batch_rejection {status : Status} (hwire : isWireStatus status = true)
    (hok : status ≠ .ok) (hunknown : status ≠ .outcomeUnknown) (index : UInt32) :
    validateAckResult (makeAckResult .batch status 0 index) = .ok () := by
  simp [validateAckResult, makeAckResult, hwire, hok, hunknown, isValidUtf8_nil]

theorem validate_batch_unknown {index : UInt32} (hindex : index ≠ kAckNoFailedIndex) :
    validateAckResult (makeAckResult .batch .outcomeUnknown index index) = .ok () := by
  simp [validateAckResult, makeAckResult, isWireStatus, hindex, isValidUtf8_nil]

theorem validate_laneBusyResult (kind : AckOperationKind) (hkind : kind ≠ .fence) :
    validateAckResult (laneBusyResult kind) = .ok () := by
  cases kind with
  | put => decide
  | batch => decide
  | fence => exact absurd rfl hkind

theorem honest_putFailure (keyPrefix : ByteString) (sample : TransportSample)
    {status : Status} (hwire : isWireStatus status = true) (hok : status ≠ .ok)
    (hunknown : status ≠ .outcomeUnknown) :
    Honest keyPrefix sample [] (putFailure status) :=
  honest_of_rejection keyPrefix sample hok hunknown (validate_putFailure hwire hok)

theorem honest_batchRejection (keyPrefix : ByteString) (sample : TransportSample)
    {status : Status} (hwire : isWireStatus status = true) (hok : status ≠ .ok)
    (hunknown : status ≠ .outcomeUnknown) (index : UInt32) :
    Honest keyPrefix sample [] (makeAckResult .batch status 0 index) :=
  honest_of_rejection keyPrefix sample hok hunknown
    (validate_batch_rejection hwire hok hunknown index)

theorem operationKind_ne_fence (keyPrefix : ByteString) (sample : TransportSample) :
    operationKind keyPrefix sample ≠ .fence := by
  unfold operationKind
  split
  · simp
  · split_ifs <;> simp

/-! ## The invariant -/

/-- Only the token being applied is Processing, and every retained result is
honest about the calls noted for its token. -/
structure Sound (keyPrefix : ByteString) (state : NodeState Token Fingerprint) : Prop where
  consistent : ∃ log, Consistent ⟨state.registry, log⟩
  processing : ∀ token entry, state.registry.entries token = some entry →
    entry.result = none → state.current = some token
  current_open : ∀ token, state.current = some token →
    ∃ entry, state.registry.entries token = some entry ∧ entry.result = none
  honest : ∀ token entry result, state.registry.entries token = some entry →
    entry.result = some result →
    ∃ sample attempts, state.history token = some (sample, attempts) ∧
      Honest keyPrefix sample attempts result

/-- A sound state that applies a token, with the calls made so far. -/
structure Processing (keyPrefix : ByteString) (token : Token) (sample : TransportSample)
    (attempts : List Attempt) (state : NodeState Token Fingerprint) : Prop where
  sound : Sound keyPrefix state
  current : state.current = some token
  history : state.history token = some (sample, attempts)

omit [DecidableEq Fingerprint] in
theorem sound_start (keyPrefix : ByteString) (capacity : ℕ) (script : List (EngineCall Token)) :
    Sound keyPrefix (start capacity script : NodeState Token Fingerprint) where
  consistent := ⟨[], consistent_create capacity⟩
  processing := by simp [start, create]
  current_open := by simp [start]
  honest := by simp [start, create]

omit [DecidableEq Fingerprint] in
theorem Sound.note {keyPrefix : ByteString} {state : NodeState Token Fingerprint}
    (hstate : Sound keyPrefix state) (attempt : Attempt) :
    Sound keyPrefix (note state attempt) := by
  cases hcurrent : state.current with
  | none => simpa [AckApply.note, hcurrent] using hstate
  | some token =>
      simp only [AckApply.note, hcurrent]
      refine ⟨hstate.consistent, hcurrent ▸ hstate.processing,
        hcurrent ▸ hstate.current_open, ?_⟩
      intro other entry result hentry hresult
      obtain ⟨openEntry, hopenEntry, hopen⟩ := hstate.current_open token hcurrent
      have hother : other ≠ token := by
        rintro rfl
        obtain rfl := Option.some.inj (hentry.symm.trans hopenEntry)
        simp [hopen] at hresult
      simpa [hother] using hstate.honest other entry result hentry hresult

omit [DecidableEq Fingerprint] in
theorem Processing.note {keyPrefix : ByteString} {token : Token} {sample : TransportSample}
    {attempts : List Attempt} {state : NodeState Token Fingerprint}
    (hstate : Processing keyPrefix token sample attempts state) (attempt : Attempt) :
    Processing keyPrefix token sample (attempts ++ [attempt]) (note state attempt) where
  sound := hstate.sound.note attempt
  current := by simp [AckApply.note, hstate.current]
  history := by simp [AckApply.note, hstate.current, hstate.history]

omit [DecidableEq Fingerprint] in
/-- Replacing the entry of a token that is not being applied by an honest result
keeps the node sound. -/
theorem Sound.retained {keyPrefix : ByteString} {state : NodeState Token Fingerprint}
    (hstate : Sound keyPrefix state) {registry : AckRegistry Token Fingerprint}
    (hconsistent : ∃ log, Consistent ⟨registry, log⟩) {token : Token}
    (htoken : state.current ≠ some token) {sample : TransportSample}
    (hkeeps : KeepsOthers state.registry registry token)
    (hentry : ∀ entry, registry.entries token = some entry →
      ∃ result, entry.result = some result ∧ Honest keyPrefix sample [] result) :
    Sound keyPrefix { state with registry, history := renew state token sample } where
  consistent := hconsistent
  processing := by
    intro other entry hother hopen
    by_cases hsame : other = token
    · subst hsame
      obtain ⟨result, hresult, _⟩ := hentry entry hother
      simp [hresult] at hopen
    · rcases hkeeps other hsame with hkept | ⟨hgone, _⟩
      · exact hstate.processing other entry (hkept ▸ hother) hopen
      · simp [hgone] at hother
  current_open := by
    intro other hcurrent
    obtain ⟨entry, hother, hopen⟩ := hstate.current_open other hcurrent
    have hsame : other ≠ token := by
      rintro rfl
      exact htoken hcurrent
    rcases hkeeps other hsame with hkept | ⟨_, completed, hcompleted, hsome⟩
    · exact ⟨entry, hkept.trans hother, hopen⟩
    · obtain rfl := Option.some.inj (hcompleted.symm.trans hother)
      simp [hopen] at hsome
  honest := by
    intro other entry result hother hresult
    by_cases hsame : other = token
    · subst hsame
      obtain ⟨retained, hretained, hhonest⟩ := hentry entry hother
      obtain rfl := Option.some.inj (hretained.symm.trans hresult)
      exact ⟨sample, [], by simp [renew], hhonest⟩
    · rcases hkeeps other hsame with hkept | ⟨hgone, _⟩
      · simpa [renew, hsame] using hstate.honest other entry result (hkept ▸ hother) hresult
      · simp [hgone] at hother

theorem honest_laneBusy (keyPrefix : ByteString) (sample : TransportSample) :
    Honest keyPrefix sample [] (laneBusyResult (operationKind keyPrefix sample)) :=
  honest_of_rejection keyPrefix sample (by simp [laneBusyResult, makeAckResult])
    (by simp [laneBusyResult, makeAckResult])
    (validate_laneBusyResult _ (operationKind_ne_fence keyPrefix sample))

/-- A re-entrant delivery leaves the token being applied alone. -/
theorem onReentrantSample_spec {state : NodeState Token Fingerprint}
    (hstate : Sound node.keyPrefix state)
    (delivered : AckObservation Token × TransportSample) :
    Sound node.keyPrefix (onReentrantSample node state delivered) ∧
      (onReentrantSample node state delivered).current = state.current ∧
      ∀ token, state.current = some token →
        (onReentrantSample node state delivered).history token = state.history token := by
  obtain ⟨ack, sample⟩ := delivered
  cases ack with
  | absent => exact ⟨hstate, rfl, fun _ _ => rfl⟩
  | malformed => exact ⟨hstate, rfl, fun _ _ => rfl⟩
  | token token =>
      obtain ⟨log, hconsistent⟩ := hstate.consistent
      have hnext := hconsistent.recordRejected token
        (node.fingerprintOf (operationKind node.keyPrefix sample) sample)
        (laneBusyResult (operationKind node.keyPrefix sample))
      rcases hconsistent.recordRejected_cases token
          (node.fingerprintOf (operationKind node.keyPrefix sample) sample)
          (laneBusyResult (operationKind node.keyPrefix sample)) with
        hknown | ⟨registry, hretained, habsent, hentry, hkeeps⟩
      · have hsame : onReentrantSample node state (.token token, sample) = state := by
          simp [onReentrantSample, hknown]
        rw [hsame]
        exact ⟨hstate, rfl, fun _ _ => rfl⟩
      · have hnew : onReentrantSample node state (.token token, sample) =
            { state with registry, history := renew state token sample } := by
          simp [onReentrantSample, hretained]
        rw [hnew]
        rw [AckHistory.apply, hretained] at hnext
        have hcurrent : state.current ≠ some token := by
          intro hcurrent
          obtain ⟨entry, hopen, _⟩ := hstate.current_open token hcurrent
          exact absurd (habsent.symm.trans hopen) (by simp)
        refine ⟨?_, rfl, ?_⟩
        · refine hstate.retained ⟨_, hnext⟩ hcurrent hkeeps ?_
          intro entry hother
          obtain rfl := Option.some.inj (hentry.symm.trans hother)
          exact ⟨_, rfl, honest_laneBusy node.keyPrefix sample⟩
        · intro other hother
          have hne : other ≠ token := by
            rintro rfl
            exact hcurrent hother
          simp [renew, hne]

theorem reentrant_spec {state : NodeState Token Fingerprint}
    (hstate : Sound node.keyPrefix state)
    (delivered : List (AckObservation Token × TransportSample)) :
    Sound node.keyPrefix (delivered.foldl (onReentrantSample node) state) ∧
      (delivered.foldl (onReentrantSample node) state).current = state.current ∧
      ∀ token, state.current = some token →
        (delivered.foldl (onReentrantSample node) state).history token =
          state.history token := by
  induction delivered generalizing state with
  | nil => exact ⟨hstate, rfl, fun _ _ => rfl⟩
  | cons delivery delivered ih =>
      obtain ⟨hsound, hcurrent, hhistory⟩ := onReentrantSample_spec node hstate delivery
      obtain ⟨hrest, hrestCurrent, hrestHistory⟩ := ih hsound
      refine ⟨hrest, hrestCurrent.trans hcurrent, fun token htoken => ?_⟩
      exact (hrestHistory token (hcurrent.trans htoken)).trans (hhistory token htoken)

theorem sound_engineCall {state : NodeState Token Fingerprint}
    (hstate : Sound node.keyPrefix state) (write : Write) :
    Sound node.keyPrefix (engineCall node state write).1 := by
  unfold engineCall
  split
  · exact hstate.note _
  · next call script _ =>
      have hpopped : Sound node.keyPrefix { state with script := script } :=
        ⟨hstate.consistent, hstate.processing, hstate.current_open, hstate.honest⟩
      exact (reentrant_spec node (hpopped.note _) _).1

/-- An engine call adds itself to the calls of the token being applied. -/
theorem processing_engineCall {token : Token} {sample : TransportSample}
    {attempts : List Attempt} {state : NodeState Token Fingerprint}
    (hstate : Processing node.keyPrefix token sample attempts state) (write : Write) :
    Processing node.keyPrefix token sample
      (attempts ++ [⟨write, (engineCall node state write).2⟩])
      (engineCall node state write).1 := by
  unfold engineCall
  split
  · exact hstate.note _
  · next call script _ =>
      have hpopped : Processing node.keyPrefix token sample attempts
          { state with script := script } :=
        ⟨⟨hstate.sound.consistent, hstate.sound.processing, hstate.sound.current_open,
          hstate.sound.honest⟩, hstate.current, hstate.history⟩
      have hnoted := hpopped.note ⟨write, call.callEnd⟩
      obtain ⟨hsound, hcurrent, hhistory⟩ :=
        reentrant_spec node hnoted.sound call.reentrant
      exact ⟨hsound, hcurrent.trans hnoted.current,
        (hhistory token hnoted.current).trans hnoted.history⟩

/-! ## Batches -/

/-- The write of a materialized entry. -/
def entryWrite (target : Target) (entry : EncodedBatchEntry) : Write :=
  (target, .put entry.key entry.value)

/-- How far a batch got: through all entries, or up to the entry `k` whose call
did not succeed. -/
structure BatchEnd (target : Target) (index : ℕ) (entries : List EncodedBatchEntry)
    (attempts : List Attempt) (result : AckResultV1) : Prop where
  once : attempts.map Attempt.write <+: entries.map (entryWrite target)
  confirmed : ∀ attempt ∈ attempts.dropLast, attempt.callEnd = .returned true
  outcome :
    (attempts.length = entries.length ∧
      (∀ attempt ∈ attempts, attempt.callEnd = .returned true) ∧
      result = makeAckResult .batch .ok (UInt32.ofNat (index + entries.length))
        kAckNoFailedIndex) ∨
    ∃ k, k < entries.length ∧ attempts.length = k + 1 ∧
      result = makeAckResult .batch .outcomeUnknown (UInt32.ofNat (index + k))
        (UInt32.ofNat (index + k))

/-- A confirmed call in front of the rest of a batch. -/
theorem BatchEnd.cons {target : Target} {index : ℕ} {entry : EncodedBatchEntry}
    {entries : List EncodedBatchEntry} {attempts : List Attempt} {result : AckResultV1}
    (hrest : BatchEnd target (index + 1) entries attempts result) :
    BatchEnd target index (entry :: entries)
      (⟨entryWrite target entry, .returned true⟩ :: attempts) result where
  once := by simpa using hrest.once
  confirmed := by
    intro attempt hattempt
    cases attempts with
    | nil => simp at hattempt
    | cons first rest =>
        rw [List.dropLast_cons_cons, List.mem_cons] at hattempt
        rcases hattempt with rfl | hattempt
        · rfl
        · exact hrest.confirmed attempt hattempt
  outcome := by
    rcases hrest.outcome with ⟨hlength, hall, hresult⟩ | ⟨k, hk, hlength, hresult⟩
    · left
      refine ⟨by simp [hlength], ?_, ?_⟩
      · intro attempt hattempt
        rcases List.mem_cons.mp hattempt with rfl | hattempt
        · rfl
        · exact hall attempt hattempt
      · rw [hresult, List.length_cons, Nat.add_assoc, Nat.add_comm 1]
    · right
      refine ⟨k + 1, by simpa using hk, by simp [hlength], ?_⟩
      rw [hresult, Nat.add_assoc, Nat.add_comm 1]

theorem putEntries_spec {token : Token} {sample : TransportSample} {target : Target}
    {progress : AckApplyProgress} (hkind : progress.kind = .batch) {index : ℕ}
    (hcount : progress.appliedCount = UInt32.ofNat index)
    (entries : List EncodedBatchEntry) {attempts : List Attempt}
    {state : NodeState Token Fingerprint}
    (hstate : Processing node.keyPrefix token sample attempts state) :
    ∃ done, Processing node.keyPrefix token sample (attempts ++ done)
        (putEntries (nodeEngines node) target index entries state (some progress)).state ∧
      BatchEnd target index entries done
        (published (putEntries (nodeEngines node) target index entries state (some progress))
          .batch) := by
  induction entries generalizing index progress attempts state with
  | nil =>
      refine ⟨[], by simpa [putEntries] using hstate, ?_, by simp, .inl ⟨rfl, by simp, rfl⟩⟩
      simp
  | cons entry entries ih =>
      have hcalled := processing_engineCall node hstate (entryWrite target entry)
      cases hcall : engineCall node state (entryWrite target entry) with
      | mk next callEnd =>
      rw [hcall] at hcalled
      have hput : (nodeEngines node).put state target entry.key entry.value =
          (next, callEnd) := hcall
      -- the calls that end the batch here
      have hstop : BatchEnd target index (entry :: entries)
          [⟨entryWrite target entry, callEnd⟩]
          (makeAckResult .batch .outcomeUnknown (UInt32.ofNat index) (UInt32.ofNat index)) :=
        ⟨by simp, by simp, .inr ⟨0, by simp, by simp, by simp⟩⟩
      cases callEnd with
      | threw =>
          refine ⟨_, by simpa [putEntries, hput] using hcalled, ?_⟩
          simpa [putEntries, hput, published, guardResult, hkind, hcount] using hstop
      | returned ok =>
          cases ok with
          | false =>
              refine ⟨_, by simpa [putEntries, hput] using hcalled, ?_⟩
              simpa [putEntries, hput, published] using hstop
          | true =>
              let after : AckApplyProgress :=
                { progress with
                  currentIndex := UInt32.ofNat index, engineInvoked := true,
                  appliedCount := UInt32.ofNat (index + 1) }
              have hafter : after.kind = .batch := hkind
              obtain ⟨done, hdone, hend⟩ := ih hafter rfl hcalled
              refine ⟨⟨entryWrite target entry, .returned true⟩ :: done, ?_, ?_⟩
              · simpa [putEntries, hput, after] using hdone
              · simpa [putEntries, hput, after] using hend.cons

theorem materialize_writes {entries : List BatchEntry} {index : ℕ}
    {encoded : List EncodedBatchEntry} (hencoded : materialize index entries = .ok encoded)
    (target : Target) :
    encoded.map (entryWrite target) =
      entries.map fun entry => (target, .put entry.key (encode entry.value)) := by
  induction entries generalizing index encoded with
  | nil =>
      obtain rfl := Except.ok.inj hencoded
      rfl
  | cons entry entries ih =>
      rw [materialize] at hencoded
      split_ifs at hencoded
      cases hrest : materialize (index + 1) entries with
      | error failed => simp [hrest, Except.map] at hencoded
      | ok rest =>
          rw [hrest] at hencoded
          obtain rfl := Except.ok.inj hencoded
          rw [List.map_cons, List.map_cons, ih hrest]
          rfl

theorem BatchEnd.honest {keyPrefix : ByteString} {sample : TransportSample} {target : Target}
    {entries : List EncodedBatchEntry} {attempts : List Attempt} {result : AckResultV1}
    (hwrites : entries.map (entryWrite target) = operationWrites keyPrefix sample)
    (hlength : entries.length < 2 ^ 32) (hend : BatchEnd target 0 entries attempts result) :
    Honest keyPrefix sample attempts result := by
  have honce : attempts.map Attempt.write <+: operationWrites keyPrefix sample :=
    hwrites ▸ hend.once
  rcases hend.outcome with ⟨hcount, hall, rfl⟩ | ⟨k, hk, hcount, rfl⟩
  · refine ⟨honce, hend.confirmed, fun _ => ⟨?_, hall⟩, ?_, ?_, validate_batch_ok _⟩
    · rw [← hwrites]
      exact hend.once.eq_of_length (by simp [hcount])
    · exact fun hok => absurd rfl hok
    · exact fun _ hunknown => by simp [makeAckResult] at hunknown
  · have hindex : (UInt32.ofNat k).toNat = k := by
      rw [UInt32.toNat_ofNat']
      exact Nat.mod_eq_of_lt (by omega)
    have hreal : UInt32.ofNat k ≠ kAckNoFailedIndex := by
      intro heq
      have hmax : k = 0xFFFFFFFF := by
        rw [← hindex, heq]
        rfl
      omega
    rw [Nat.zero_add]
    refine ⟨honce, hend.confirmed, ?_, ?_, fun _ _ => ⟨rfl, ?_⟩,
      validate_batch_unknown hreal⟩
    · exact fun hok => by simp [makeAckResult] at hok
    · exact fun _ hunknown => absurd rfl hunknown
    · rw [hcount]
      exact congrArg (· + 1) hindex.symm

/-- A batch sample: rejected before the first call, or put entry by entry. -/
theorem applyBatch_spec {token : Token} {sample : TransportSample} {parsed : ParsedKey}
    (hparsed : parseKey node.keyPrefix sample.key = some parsed) (hbatch : parsed.isBatch)
    {progress : AckApplyProgress} (hkind : progress.kind = .batch)
    (hcount : progress.appliedCount = 0) {state : NodeState Token Fingerprint}
    (hstate : Processing node.keyPrefix token sample [] state) :
    ∃ attempts, Processing node.keyPrefix token sample attempts
        (applyBatch (nodeEngines node) state (operationTarget parsed) sample.payload
          (some progress)).state ∧
      Honest node.keyPrefix sample attempts
        (published (applyBatch (nodeEngines node) state (operationTarget parsed)
          sample.payload (some progress)) .batch) := by
  unfold applyBatch
  split
  · exact ⟨[], hstate, honest_batchRejection _ _ rfl (by simp) (by simp) _⟩
  · next entries hdecoded =>
      split
      · exact ⟨[], hstate, honest_batchRejection _ _ rfl (by simp) (by simp) _⟩
      · next encoded hencoded =>
          have hwrites : encoded.map (entryWrite (operationTarget parsed)) =
              operationWrites node.keyPrefix sample := by
            rw [materialize_writes hencoded, operationWrites, hparsed]
            simp [hbatch, hdecoded]
          have hlength : encoded.length < 2 ^ 32 := by
            have hsame := congrArg List.length
              (materialize_writes hencoded (operationTarget parsed))
            rw [List.length_map, List.length_map] at hsame
            rw [hsame]
            exact length_decodeBatch_lt hdecoded
          have hzero : progress.appliedCount = UInt32.ofNat 0 := hcount
          obtain ⟨attempts, hdone, hend⟩ := putEntries_spec node hkind hzero encoded hstate
          exact ⟨attempts, hdone, hend.honest hwrites hlength⟩

/-! ## Single writes -/

theorem finishWrite_spec {token : Token} {sample : TransportSample} {write : Write}
    (hwrites : operationWrites node.keyPrefix sample = [write])
    (diagnostics : SubscriberDiagnostics) (failed : String)
    {state : NodeState Token Fingerprint}
    (hstate : Processing node.keyPrefix token sample [] state) :
    ∃ attempts, Processing node.keyPrefix token sample attempts
        (finishWrite (engineCall node state write) (some ⟨.put, true, 0, 0⟩) diagnostics
          failed).state ∧
      Honest node.keyPrefix sample attempts
        (published (finishWrite (engineCall node state write) (some ⟨.put, true, 0, 0⟩)
          diagnostics failed) .put) := by
  refine ⟨[⟨write, (engineCall node state write).2⟩], ?_, ?_⟩
  · rw [finishWrite_state]
    simpa using processing_engineCall node hstate write
  · have hunknown (callEnd : CallEnd) : Honest node.keyPrefix sample [⟨write, callEnd⟩]
        (putFailure .outcomeUnknown) :=
      ⟨by simp [hwrites], by simp, by simp [putFailure, makeAckResult],
        fun _ h => absurd rfl h, by simp [putFailure, makeAckResult],
        validate_putFailure rfl (by simp)⟩
    cases hcall : engineCall node state write with
    | mk next callEnd =>
        cases callEnd with
        | threw => exact hunknown .threw
        | returned ok =>
            cases ok with
            | false => exact hunknown (.returned false)
            | true =>
                exact ⟨by simp [hwrites], by simp, fun _ => ⟨by simp [hwrites], by simp⟩,
                  fun h => absurd rfl h, by simp [finishWrite, published, makeAckResult],
                  validate_put_ok⟩

theorem applyWrite_spec {token : Token} {sample : TransportSample} {parsed : ParsedKey}
    (hparsed : parseKey node.keyPrefix sample.key = some parsed)
    (hbatch : parsed.isBatch = false) (hput : sample.kind ≠ .delete)
    {state : NodeState Token Fingerprint}
    (hstate : Processing node.keyPrefix token sample [] state) :
    ∃ attempts, Processing node.keyPrefix token sample attempts
        (applyWrite (nodeEngines node) state (operationTarget parsed) parsed.relativeKey
          sample (some ⟨.put, false, 0, 0⟩)).state ∧
      Honest node.keyPrefix sample attempts
        (published (applyWrite (nodeEngines node) state (operationTarget parsed)
          parsed.relativeKey sample (some ⟨.put, false, 0, 0⟩)) .put) := by
  have hwrites : operationWrites node.keyPrefix sample =
      [(operationTarget parsed, .put parsed.relativeKey
        (if sample.encodingId ≠ kSitosV1 then encode (.bytes sample.payload)
          else sample.payload))] := by
    simp [operationWrites, hparsed, hbatch]
  unfold applyWrite
  rw [if_neg hput]
  by_cases hencoding : sample.encodingId ≠ kSitosV1
  · rw [if_pos hencoding] at hwrites ⊢
    exact finishWrite_spec node hwrites _ _ hstate
  · rw [if_neg hencoding] at hwrites ⊢
    split_ifs with hinvalid
    · exact ⟨[], hstate, honest_putFailure _ _ rfl (by simp) (by simp)⟩
    · exact finishWrite_spec node hwrites _ _ hstate

/-! ## Whole deliveries -/

/-- Applying a claimed sample leaves an honest result behind. -/
theorem applyParameters_spec {token : Token} (delivery : Delivery Token)
    {state : NodeState Token Fingerprint}
    (hstate : Processing node.keyPrefix token delivery.sample [] state) :
    ∃ attempts, Processing node.keyPrefix token delivery.sample attempts
        (applyParameters node state delivery
          (some ⟨operationKind node.keyPrefix delivery.sample, false, 0, 0⟩)).state ∧
      Honest node.keyPrefix delivery.sample attempts
        (published (applyParameters node state delivery
          (some ⟨operationKind node.keyPrefix delivery.sample, false, 0, 0⟩))
          (operationKind node.keyPrefix delivery.sample)) := by
  unfold applyParameters
  cases delivery.applyMemory with
  | exhausted => exact ⟨[], hstate, honest_laneBusy node.keyPrefix delivery.sample⟩
  | available =>
      cases hparsed : parseKey node.keyPrefix delivery.sample.key with
      | none =>
          simp only [applyParameterSample, hparsed]
          exact ⟨[], hstate, honest_putFailure _ _ rfl (by simp) (by simp)⟩
      | some parsed =>
          cases hbatch : parsed.isBatch with
          | true =>
              have hkind : operationKind node.keyPrefix delivery.sample = .batch := by
                simp [operationKind, hparsed, hbatch]
              simp only [applyParameterSample, hparsed, hbatch, if_true, applyBatchSample, hkind,
                Option.map_some]
              split_ifs with hshape hbase
              · exact ⟨[], hstate, honest_batchRejection _ _ rfl (by simp) (by simp) _⟩
              · have htarget : operationTarget parsed = .base := by
                  simp [operationTarget, hbase]
                rw [← htarget]
                exact applyBatch_spec node hparsed hbatch rfl rfl hstate
              · have hsession : parsed.kind = .session :=
                  (parseKey_isBatch hparsed hbatch).resolve_left hbase
                have htarget : operationTarget parsed = .overlay parsed.sid := by
                  simp [operationTarget, hsession]
                split
                · exact ⟨[], hstate, honest_batchRejection _ _ rfl (by simp) (by simp) _⟩
                · exact ⟨[], hstate, honest_batchRejection _ _ rfl (by simp) (by simp) _⟩
                · rw [← htarget]
                  exact applyBatch_spec node hparsed hbatch rfl rfl hstate
          | false =>
              have hkind : operationKind node.keyPrefix delivery.sample = .put := by
                simp [operationKind, hparsed, hbatch]
              have hreject (status : Status) (hwire : isWireStatus status = true)
                  (hok : status ≠ .ok) (hunknown : status ≠ .outcomeUnknown) :=
                honest_putFailure node.keyPrefix delivery.sample hwire hok hunknown
              simp only [applyParameterSample, hparsed, hbatch, hkind, Option.isSome_some,
                true_and]
              by_cases hdelete : delivery.sample.kind = .delete
              · simp only [hdelete]
                exact ⟨[], hstate, hreject _ rfl (by simp) (by simp)⟩
              · simp only [hdelete, if_false, if_true]
                cases hpath : parsed.kind with
                | base =>
                    have htarget : operationTarget parsed = .base := by
                      simp [operationTarget, hpath]
                    simp only [← htarget]
                    exact applyWrite_spec node hparsed hbatch hdelete hstate
                | session =>
                    have htarget : operationTarget parsed = .overlay parsed.sid := by
                      simp [operationTarget, hpath]
                    cases delivery.access parsed.sid with
                    | unknown => exact ⟨[], hstate, hreject _ rfl (by simp) (by simp)⟩
                    | stateLost => exact ⟨[], hstate, hreject _ rfl (by simp) (by simp)⟩
                    | active =>
                        simp only [← htarget]
                        exact applyWrite_spec node hparsed hbatch hdelete hstate
                | snapshot => exact ⟨[], hstate, hreject _ rfl (by simp) (by simp)⟩
                | metaSession => exact ⟨[], hstate, hreject _ rfl (by simp) (by simp)⟩
                | metaAck => exact ⟨[], hstate, hreject _ rfl (by simp) (by simp)⟩
                | buffer => exact ⟨[], hstate, hreject _ rfl (by simp) (by simp)⟩

omit [DecidableEq Fingerprint] in
/-- A newly claimed token is Processing with no calls made for it. -/
theorem processing_claimed {state : NodeState Token Fingerprint}
    (hstate : Sound node.keyPrefix state) (hidle : state.current = none)
    {registry : AckRegistry Token Fingerprint}
    (hconsistent : ∃ log, Consistent ⟨registry, log⟩) {token : Token}
    {entry : Entry Fingerprint} (hopen : entry.result = none)
    (hentries : registry.entries = Function.update state.registry.entries token (some entry))
    (sample : TransportSample) :
    Processing node.keyPrefix token sample []
      { state with
        registry, current := some token, history := renew state token sample } := by
  have hentry (other : Token) : registry.entries other =
      if other = token then some entry else state.registry.entries other := by
    rw [hentries, Function.update_apply]
  refine ⟨⟨hconsistent, ?_, ?_, ?_⟩, rfl, by simp [renew]⟩
  · intro other found hfound hnone
    by_cases hsame : other = token
    · rw [hsame]
    · rw [hentry, if_neg hsame] at hfound
      have hcurrent := hstate.processing other found hfound hnone
      simp [hidle] at hcurrent
  · intro other hother
    obtain rfl := Option.some.inj hother
    exact ⟨entry, by simp [hentry], hopen⟩
  · intro other found result hfound hresult
    by_cases hsame : other = token
    · rw [hentry, if_pos hsame] at hfound
      obtain rfl := Option.some.inj hfound
      simp [hopen] at hresult
    · rw [hentry, if_neg hsame] at hfound
      simpa [renew, hsame] using hstate.honest other found result hfound hresult

/-- Publishing an honest result ends the application of a token. -/
theorem Processing.publish {keyPrefix : ByteString} {token : Token}
    {sample : TransportSample} {attempts : List Attempt}
    {state : NodeState Token Fingerprint}
    (hstate : Processing keyPrefix token sample attempts state) {result : AckResultV1}
    (hresult : Honest keyPrefix sample attempts result) :
    Sound keyPrefix { state with
      registry := (complete state.registry token result).1, current := none } := by
  obtain ⟨log, hconsistent⟩ := hstate.sound.consistent
  obtain ⟨entry, hentry, hopen⟩ := hstate.sound.current_open token hstate.current
  obtain ⟨hcompleted, hkeeps⟩ := hconsistent.complete_entries hentry hopen result
  have hnext := hconsistent.complete token result
  refine ⟨⟨_, hnext⟩, ?_, by simp, ?_⟩
  · intro other found hfound hnone
    by_cases hsame : other = token
    · subst hsame
      obtain rfl := Option.some.inj (hcompleted.symm.trans hfound)
      simp at hnone
    · rcases hkeeps other hsame with hkept | ⟨hgone, _⟩
      · have hcurrent := hstate.sound.processing other found (hkept ▸ hfound) hnone
        exact absurd (Option.some.inj (hcurrent.symm.trans hstate.current)) hsame
      · exact absurd (hgone.symm.trans hfound) (by simp)
  · intro other found otherResult hfound hother
    by_cases hsame : other = token
    · subst hsame
      obtain rfl := Option.some.inj (hcompleted.symm.trans hfound)
      obtain rfl := Option.some.inj hother
      exact ⟨sample, attempts, hstate.history, hresult⟩
    · rcases hkeeps other hsame with hkept | ⟨hgone, _⟩
      · exact hstate.sound.honest other found otherResult (hkept ▸ hfound) hother
      · exact absurd (hgone.symm.trans hfound) (by simp)

theorem applyAcknowledgedSample_spec {state : NodeState Token Fingerprint}
    (hstate : Sound node.keyPrefix state) (hidle : state.current = none) (token : Token)
    (delivery : Delivery Token) :
    Sound node.keyPrefix (applyAcknowledgedSample node state token delivery) ∧
      (applyAcknowledgedSample node state token delivery).current = none := by
  obtain ⟨log, hconsistent⟩ := hstate.consistent
  have hclaimed := hconsistent.applyClaim delivery.claimMemory token
    (node.fingerprintOf (operationKind node.keyPrefix delivery.sample) delivery.sample)
    (some kParameterLane) (some (laneBusyResult (operationKind node.keyPrefix delivery.sample)))
  rcases claimLocked_cases delivery.claimMemory state.registry token
      (node.fingerprintOf (operationKind node.keyPrefix delivery.sample) delivery.sample)
      (some kParameterLane)
      (some (laneBusyResult (operationKind node.keyPrefix delivery.sample))) with
    ⟨_, outcome, hadmitted, hbusy, hclaim⟩ | ⟨_, hnone, _⟩ | ⟨habsent, result, hresult, hclaim⟩ |
    ⟨_, hclaim⟩ | ⟨habsent, hfree, hclaim⟩
  · have hsame : applyAcknowledgedSample node state token delivery = state := by
      simp only [applyAcknowledgedSample, claimOrReject, hclaim]
      cases outcome <;> first | rfl | contradiction
    rw [hsame]
    exact ⟨hstate, hidle⟩
  · simp at hnone
  · obtain rfl := Option.some.inj hresult
    have hopen : ∀ before, state.registry.entries token = some before →
        before.result = none := by simp [habsent]
    simp only [AckHistory.applyClaim, hclaim] at hclaimed
    simp only [applyAcknowledgedSample, claimOrReject, hclaim]
    refine ⟨hstate.retained ⟨_, hclaimed⟩ (by simp [hidle])
      (hconsistent.keepsOthers_retain hopen _ _) ?_, hidle⟩
    intro entry hentry
    have hnew := retain_entries (hconsistent.fresh_of_open hopen)
      ⟨node.fingerprintOf (operationKind node.keyPrefix delivery.sample) delivery.sample,
        some kParameterLane,
        some (laneBusyResult (operationKind node.keyPrefix delivery.sample))⟩
      state.registry.processingByLane token
    rw [if_pos rfl] at hnew
    obtain rfl := Option.some.inj (hnew.symm.trans hentry)
    exact ⟨_, rfl, honest_laneBusy node.keyPrefix delivery.sample⟩
  · have hsame : applyAcknowledgedSample node state token delivery = state := by
      simp only [applyAcknowledgedSample, claimOrReject, hclaim]
    rw [hsame]
    exact ⟨hstate, hidle⟩
  · simp only [AckHistory.applyClaim, hclaim] at hclaimed
    simp only [applyAcknowledgedSample, claimOrReject, hclaim]
    have hprocessing := processing_claimed node hstate hidle ⟨_, hclaimed⟩ rfl
      rfl delivery.sample
    obtain ⟨attempts, happlied, hhonest⟩ := applyParameters_spec node delivery hprocessing
    exact ⟨happlied.publish hhonest, trivial⟩

/-- Every delivery leaves a sound, idle node. -/
theorem onSample_spec {state : NodeState Token Fingerprint}
    (hstate : Sound node.keyPrefix state) (hidle : state.current = none)
    (delivery : Delivery Token) :
    Sound node.keyPrefix (onSample node state delivery) ∧
      (onSample node state delivery).current = none := by
  cases hack : delivery.ack with
  | malformed =>
      simp only [onSample, hack]
      exact ⟨hstate, hidle⟩
  | token token =>
      simp only [onSample, hack]
      exact applyAcknowledgedSample_spec node hstate hidle token delivery
  | absent =>
      simp only [onSample, hack]
      unfold applyParameters
      cases delivery.applyMemory with
      | exhausted => exact ⟨hstate, hidle⟩
      | available =>
          have hcall (state : NodeState Token Fingerprint) (write : Write)
              (h : Sound node.keyPrefix state ∧ state.current = none) :
              Sound node.keyPrefix (engineCall node state write).1 ∧
                (engineCall node state write).1.current = none := by
            refine ⟨sound_engineCall node h.1 write, ?_⟩
            unfold engineCall
            split
            · simp [note, h.2]
            · next call script _ =>
                have hpopped : Sound node.keyPrefix { state with script := script } :=
                  ⟨h.1.consistent, h.1.processing, h.1.current_open, h.1.honest⟩
                refine (reentrant_spec node (hpopped.note _) _).2.1.trans ?_
                simp [note, h.2]
          exact applyParameterSample_preserves (fun state _ _ _ h => hcall state _ h)
            (fun state _ _ h => hcall state _ h) (fun _ _ _ h => h) delivery.access
            node.keyPrefix delivery.sample none ⟨hstate, hidle⟩

end Sitos.AckApply

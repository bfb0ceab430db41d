import Sitos.Cache.Mutations
import Sitos.Client.StoreList
import Sitos.Fence.Publisher
import Sitos.Node.StoredValue
import Sitos.Wire.BatchCodec

/-!
# Batches that are put

A store and a cache encode the entries of a batch and hand the payload to the transport.  The
lengths in memory are wider than the fields of the format, and neither caller bounds them, so what
is submitted is the batch exactly when every length fits its field.
-/

namespace Sitos.PutBatch

open Sitos.AckResult
open Sitos.Batch
open Sitos.Bytes
open Sitos.Key
open Sitos.Mutations
open Sitos.Publisher
open Sitos.Sample
open Sitos.StoreList
open Sitos.Token
open Sitos.Value

/-- What was handed to the transport. -/
structure Submission where
  key : ByteString
  payload : ByteString
  encodingId : ByteString
  ackToken : Option AckToken

/-- How the transport and the node behind it answer: the `Put`, and the poll for the result of an
acknowledged write. -/
structure Link where
  put : Except Failure Unit
  poll : Except Failure AckResultV1
  token : AckToken

def invalidArgument (message : String) : Except Failure Unit := .error (.invalidArgument, message)
def invalidKey (message : String) : Except Failure Unit := .error (.invalidKey, message)

/-! ## ParamStore -/

structure Store where
  transport : Bool
  keyPrefix : ByteString

structure WriteOptions where
  ack : Bool
  ackTimeout : ℤ

def emptyBatchResult : AckResultV1 :=
  { operationKind := .batch, status := .ok, durability := .applied, appliedCount := 0,
    failedIndex := kAckNoFailedIndex, throughSequence := 0, failedSequence := kAckNoFailedSequence,
    message := [] }

/-- The submission, if there is one, and the result. -/
def submitAcknowledgedWrite (link : Link) (keyPrefix fullKey payload encodingId : ByteString)
    (totalDeadline : ℤ) : Option Submission × Except Failure AckResultV1 :=
  if totalDeadline ≤ 0 then
    (none, .error (.invalidArgument, "acknowledgement deadline must be positive"))
  else if encodingId = kSitosV1Batch ∧ decodeBatch payload = some [] then
    (none, .ok emptyBatchResult)
  else if (buildMetaAckKey keyPrefix (formatAckToken link.token)).isNone then
    (none, .error (.invalidArgument, "acknowledgement prefix is invalid"))
  else (some ⟨fullKey, payload, encodingId, some link.token⟩, link.poll)

def mapAcknowledgement (acknowledgement : Except Failure AckResultV1)
    (expectedKind : AckOperationKind) : Except Failure Unit :=
  match acknowledgement with
  | .error failure => .error failure
  | .ok result =>
      if result.operationKind ≠ expectedKind then
        .error (.error, "acknowledgement operation kind mismatch")
      else if result.status = .ok then .ok ()
      else .error (result.status, String.ofList (result.message.map fun byte => Char.ofNat byte.toNat))

def Store.putBatch (store : Store) (link : Link) (scope : ByteString) (entries : List BatchEntry)
    (options : WriteOptions) : Option Submission × Except Failure Unit :=
  if !store.transport then (none, invalidArgument "moved-from ParamStore")
  else
    match parseScope scope with
    | none => (none, invalidKey "invalid scope")
    | some (.snap _) => (none, .error (.readOnly, "snapshot scope is read-only"))
    | some _ =>
        if options.ack ∧ options.ackTimeout ≤ 0 then
          (none, invalidArgument "acknowledgement deadline must be positive")
        else
          match buildBatchKey store.keyPrefix scope with
          | none => (none, invalidKey "invalid batch scope")
          | some key =>
              if !entries.all fun entry => isValidKey entry.key then (none, invalidKey "invalid key")
              else if entries.isEmpty then (none, .ok ())
              else
                let payload := encodeBatch entries
                if !options.ack then (some ⟨key, payload, kSitosV1Batch, none⟩, link.put)
                else
                  let (submission, acknowledgement) := submitAcknowledgedWrite link store.keyPrefix
                    key payload kSitosV1Batch options.ackTimeout
                  (submission, mapAcknowledgement acknowledgement .batch)

/-! ## ParamCache -/

/-- A cache at the time of a call: whether it has an implementation and is attached, whether the
call gets its lease, the publisher if the session has one, and whether the cache is still live when
the transport has answered. -/
structure Cache where
  present : Bool
  attached : Bool
  keyPrefix : ByteString
  sid : ByteString
  leased : Bool
  publisher : Option FencePublisher
  live : Bool
  baseline : ValueMap
  effective : ValueMap

structure CacheOutcome where
  submission : Option Submission
  result : Except Failure Unit
  effective : ValueMap

/-- `FencePublisher::SubmitData` and its result. -/
def submit (publisher : FencePublisher) (answers : FencePublisher.Answers) (link : Link) (submission : Submission) :
    Option Submission × Except Failure Unit :=
  if !publisher.acceptingOperations then (none, .error (.disconnected, ""))
  else
    match publisher.checkGeneration answers.currentBefore with
    | (_, false) => (none, .error (.disconnected, ""))
    | (publisher, true) =>
        if !answers.supported then
          (none, .error (.invalidArgument, "Transport does not support Fence"))
        else if publisher.exhausted then
          (none, .error (.invalidArgument, "Fence sequence exhausted"))
        else if !(publisher.checkGeneration answers.currentAfter).2 then
          (some submission, .error (.disconnected, ""))
        else (some submission, link.put)

/-- Through the publisher, if the session has one. -/
def Cache.send (cache : Cache) (answers : FencePublisher.Answers) (link : Link)
    (submission : Submission) : Option Submission × Except Failure Unit :=
  match cache.publisher with
  | some publisher => submit publisher answers link submission
  | none => (some submission, link.put)

def Cache.putBatch (cache : Cache) (answers : FencePublisher.Answers) (link : Link) (entries : List BatchEntry) :
    CacheOutcome :=
  let refused (result : Except Failure Unit) : CacheOutcome := ⟨none, result, cache.effective⟩
  if !cache.present then refused (invalidArgument "moved-from ParamCache")
  else if !cache.attached then refused (invalidArgument "ParamCache is detached")
  else if !entries.all fun entry => isValidKey entry.key then
    refused (invalidKey "invalid batch key")
  else if entries.isEmpty then refused (.ok ())
  else
    match buildBatchKey cache.keyPrefix (ascii "session/" ++ cache.sid) with
    | none => refused (invalidKey "invalid batch scope")
    | some key =>
        let submission : Submission := ⟨key, encodeBatch entries, kSitosV1Batch, none⟩
        if !cache.leased then refused (invalidArgument "ParamCache is detached")
        else
          match cache.send answers link submission with
          | (submitted, .error failure) => ⟨submitted, .error failure, cache.effective⟩
          | (submitted, .ok ()) =>
              if !cache.live then
                ⟨submitted, invalidArgument "ParamCache is detached", cache.effective⟩
              else
                ⟨submitted, .ok (), applyMutations cache.baseline cache.effective
                  (entries.map fun entry => .put entry.key entry.value)⟩

/-! ## What a submitted payload means -/

/-- The entries, as far as every reader sees them, are what the submitted payload decodes to.  If
nothing is submitted, the caller is told so or put nothing, and nothing is applied either. -/
def Faithful (entries : List BatchEntry) (submission : Option Submission)
    (result : Except Failure Unit) (untouched : Prop) : Prop :=
  match submission with
  | some submission => decodeBatch submission.payload = some (entries.map BatchEntry.canonical)
  | none => (result ≠ .ok () ∨ entries = []) ∧ untouched

/-- The store's own checks let the call through. -/
structure Store.Accepts (store : Store) (link : Link) (scope : ByteString)
    (entries : List BatchEntry) (options : WriteOptions) : Prop where
  transport : store.transport = true
  writable : parseScope scope ≠ none ∧ ∀ sid, parseScope scope ≠ some (.snap sid)
  timeout : options.ack = true → 0 < options.ackTimeout
  key : (buildBatchKey store.keyPrefix scope).isSome
  keys : entries.all fun entry => isValidKey entry.key
  metaAck : options.ack = true →
    (buildMetaAckKey store.keyPrefix (formatAckToken link.token)).isSome

/-- The publisher still sends. -/
structure Sends (publisher : FencePublisher) (answers : FencePublisher.Answers) : Prop where
  accepting : publisher.acceptingOperations = true
  current : (publisher.checkGeneration answers.currentBefore).2 = true
  supported : answers.supported = true
  exhausted : publisher.exhausted = false

/-- The cache's own checks let the call through. -/
structure Cache.Accepts (cache : Cache) (answers : FencePublisher.Answers)
    (entries : List BatchEntry) : Prop where
  present : cache.present = true
  attached : cache.attached = true
  keys : entries.all fun entry => isValidKey entry.key
  key : (buildBatchKey cache.keyPrefix (ascii "session/" ++ cache.sid)).isSome
  leased : cache.leased = true
  sends : ∀ publisher, cache.publisher = some publisher → Sends publisher answers

section Frames

variable {entries : List BatchEntry}

theorem length_encodeBody_canonical (value : ParamValue) :
    (encodeBody (canonical value)).length = (encodeBody value).length := by
  have hencode := congrArg List.length (StoredValue.encode_canonical value)
  simpa only [encode, List.length_cons, Nat.add_right_cancel_iff] using hencode

theorem length_normalize {payload : ByteString} (hpayload : StoredValue.IsPayload payload) :
    (StoredValue.normalize payload).length = payload.length := by
  cases hpayload with
  | bool hbody =>
      obtain ⟨byte, rfl⟩ := List.length_eq_one_iff.mp hbody
      rfl
  | @dp body hbody =>
      rw [StoredValue.normalize, List.length_cons, List.length_cons]
      split_ifs
      · rw [hbody]
        rfl
      · rfl
  | _ => rfl

theorem length_encodeBody {tag : UInt8} {body : ByteString} {value : ParamValue}
    (hvalue : decodeBody tag body = some value) : (encodeBody value).length = body.length := by
  have hdecode : decode (tag :: body) = some value := hvalue
  have hpayload := (StoredValue.isSome_decode_iff (tag :: body)).mp (by rw [hdecode]; rfl)
  have hencode := congrArg List.length (StoredValue.encode_of_decode hdecode)
  rw [length_normalize hpayload] at hencode
  simpa only [encode, List.length_cons, Nat.add_right_cancel_iff] using hencode

/-- Only lengths that fit their fields are read back. -/
theorem fits_of_decodeBatch
    (hdecoded : decodeBatch (encodeBatch entries) = some (entries.map BatchEntry.canonical)) :
    Fits entries := by
  obtain ⟨frames, hcount, hframes, -⟩ := (decodeBatch_eq_some_iff _ _).mp hdecoded
  have hholds : ∀ entry ∈ entries, ∃ frame : Frame, frame.Holds entry.canonical := by
    intro entry hentry
    rw [List.forall₂_map_right_iff] at hframes
    obtain ⟨index, hindex, rfl⟩ := List.mem_iff_getElem.mp hentry
    exact ⟨_, List.Forall₂.get hframes (hframes.length_eq ▸ hindex) hindex⟩
  refine ⟨?_, ?_, ?_⟩
  · rwa [hframes.length_eq, List.length_map] at hcount
  · intro entry hentry
    obtain ⟨frame, hframe⟩ := hholds entry hentry
    exact hframe.key ▸ hframe.key_lt
  · intro entry hentry
    obtain ⟨frame, hframe⟩ := hholds entry hentry
    rw [← length_encodeBody_canonical, show canonical entry.value = entry.canonical.value from rfl,
      length_encodeBody hframe.value]
    exact hframe.body_lt

theorem decodeBatch_ne_nil (hentries : entries ≠ []) :
    decodeBatch (encodeBatch entries) ≠ some [] := by
  intro hdecoded
  obtain ⟨frames, -, hframes, hpayload⟩ := (decodeBatch_eq_some_iff _ _).mp hdecoded
  obtain rfl := List.forall₂_nil_right_iff.mp hframes
  have hlong := nine_mul_length_le (entries.map frameOf)
  have hlength := congrArg List.length hpayload
  have hpos := List.length_pos_iff.mpr hentries
  rw [encodeBatch_eq, List.length_append, List.length_append, length_leBytes, length_leBytes,
    List.flatMap_nil, List.length_nil] at hlength
  rw [List.length_map] at hlong
  omega

end Frames

section Calls

variable {store : Store} {cache : Cache} {answers : FencePublisher.Answers} {link : Link}
  {scope : ByteString} {entries : List BatchEntry} {options : WriteOptions}

/-- What an acknowledged write of a batch that is not empty submits. -/
theorem submitAcknowledgedWrite_encodeBatch {keyPrefix fullKey : ByteString} {deadline : ℤ}
    (hentries : entries ≠ []) (hdeadline : 0 < deadline) :
    submitAcknowledgedWrite link keyPrefix fullKey (encodeBatch entries) kSitosV1Batch deadline =
      if (buildMetaAckKey keyPrefix (formatAckToken link.token)).isNone then
        (none, .error (.invalidArgument, "acknowledgement prefix is invalid"))
      else (some ⟨fullKey, encodeBatch entries, kSitosV1Batch, some link.token⟩, link.poll) := by
  rw [submitAcknowledgedWrite, if_neg (not_le.mpr hdeadline),
    if_neg fun h => decodeBatch_ne_nil hentries h.2]

/-- A store refuses, has nothing to put, or submits the payload. -/
theorem Store.putBatch_cases {outcome : Option Submission × Except Failure Unit}
    (hcall : store.putBatch link scope entries options = outcome) :
    (¬store.Accepts link scope entries options ∧ ∃ failure, outcome = (none, .error failure)) ∨
    (entries = [] ∧ outcome.1 = none) ∨
    (store.Accepts link scope entries options ∧
      ∃ submission result, outcome = (some submission, result) ∧
        submission.payload = encodeBatch entries) := by
  unfold Store.putBatch at hcall
  split at hcall
  next htransport =>
    refine .inl ⟨fun haccepts => ?_, _, hcall.symm⟩
    rw [haccepts.transport] at htransport
    cases htransport
  next htransport =>
    split at hcall
    next hscope => exact .inl ⟨fun haccepts => haccepts.writable.1 hscope, _, hcall.symm⟩
    next sid hscope => exact .inl ⟨fun haccepts => haccepts.writable.2 sid hscope, _, hcall.symm⟩
    next parsed hwritable hscope =>
      split at hcall
      next htimeout =>
        refine .inl ⟨fun haccepts => ?_, _, hcall.symm⟩
        exact absurd (haccepts.timeout htimeout.1) (not_lt.mpr htimeout.2)
      next htimeout =>
        split at hcall
        next hkey =>
          refine .inl ⟨fun haccepts => ?_, _, hcall.symm⟩
          have hsome := haccepts.key
          rw [hkey] at hsome
          cases hsome
        next key hkey =>
          split at hcall
          next hkeys =>
            refine .inl ⟨fun haccepts => ?_, _, hcall.symm⟩
            rw [haccepts.keys] at hkeys
            cases hkeys
          next hkeys =>
            split at hcall
            next hempty => exact .inr (.inl ⟨List.isEmpty_iff.mp hempty, hcall ▸ rfl⟩)
            next hempty =>
              have hentries : entries ≠ [] := fun h => hempty (List.isEmpty_iff.mpr h)
              have haccepts (hmeta : options.ack = true →
                  (buildMetaAckKey store.keyPrefix (formatAckToken link.token)).isSome) :
                  store.Accepts link scope entries options :=
                { transport := by simpa using htransport
                  writable := ⟨by rw [hscope]; exact Option.some_ne_none _,
                    fun sid h => hwritable sid (Option.some.inj (hscope.symm.trans h))⟩
                  timeout := fun hack => not_le.mp fun hle => htimeout ⟨hack, hle⟩
                  key := by rw [hkey]; rfl
                  keys := by simpa using hkeys
                  metaAck := hmeta }
              split at hcall
              next hack =>
                refine .inr (.inr ⟨haccepts fun h => ?_, _, _, hcall.symm, rfl⟩)
                rw [h] at hack
                cases hack
              next hack =>
                have hdeadline : 0 < options.ackTimeout :=
                  not_le.mp fun hle => htimeout ⟨by simpa using hack, hle⟩
                simp only [submitAcknowledgedWrite_encodeBatch hentries hdeadline] at hcall
                split at hcall
                next hmeta =>
                  refine .inl ⟨fun haccepts => ?_, _, hcall.symm⟩
                  have hsome := haccepts.metaAck (by simpa using hack)
                  rw [Option.isNone_iff_eq_none.mp hmeta] at hsome
                  cases hsome
                next hmeta =>
                  refine .inr (.inr ⟨haccepts fun _ => ?_, _, _, hcall.symm, rfl⟩)
                  simpa [Option.isSome_iff_ne_none] using hmeta

/-- A publisher refuses, or submits. -/
theorem submit_cases {publisher : FencePublisher} {submission : Submission}
    {outcome : Option Submission × Except Failure Unit}
    (hcall : submit publisher answers link submission = outcome) :
    (¬Sends publisher answers ∧ ∃ failure, outcome = (none, .error failure)) ∨
    (Sends publisher answers ∧ outcome.1 = some submission) := by
  unfold submit at hcall
  split at hcall
  next haccepting =>
    refine .inl ⟨fun hsends => ?_, _, hcall.symm⟩
    rw [hsends.accepting] at haccepting
    cases haccepting
  next haccepting =>
    split at hcall
    next checked hcheck =>
      refine .inl ⟨fun hsends => ?_, _, hcall.symm⟩
      have hcurrent := hsends.current
      rw [hcheck] at hcurrent
      cases hcurrent
    next checked hcheck =>
      obtain rfl : publisher = checked := by
        unfold FencePublisher.checkGeneration at hcheck
        split_ifs at hcheck
        · cases (Prod.mk.inj hcheck).2
        · exact (Prod.mk.inj hcheck).1
        · cases (Prod.mk.inj hcheck).2
      split at hcall
      next hsupported =>
        refine .inl ⟨fun hsends => ?_, _, hcall.symm⟩
        rw [hsends.supported] at hsupported
        cases hsupported
      next hsupported =>
        split at hcall
        next hexhausted =>
          refine .inl ⟨fun hsends => ?_, _, hcall.symm⟩
          rw [hsends.exhausted] at hexhausted
          cases hexhausted
        next hexhausted =>
          refine .inr ⟨⟨by simpa using haccepting, by rw [hcheck], by simpa using hsupported,
            by simpa using hexhausted⟩, ?_⟩
          split at hcall
          · rw [← hcall]
          · rw [← hcall]

theorem Cache.send_cases {submission : Submission}
    {outcome : Option Submission × Except Failure Unit}
    (hcall : cache.send answers link submission = outcome) :
    (¬(∀ publisher, cache.publisher = some publisher → Sends publisher answers) ∧
      ∃ failure, outcome = (none, .error failure)) ∨
    ((∀ publisher, cache.publisher = some publisher → Sends publisher answers) ∧
      outcome.1 = some submission) := by
  unfold Cache.send at hcall
  split at hcall
  next publisher hpublisher =>
    rcases submit_cases hcall with ⟨hnot, hrefused⟩ | ⟨hsends, hsubmitted⟩
    · exact .inl ⟨fun hall => hnot (hall publisher hpublisher), hrefused⟩
    · refine .inr ⟨fun other hother => ?_, hsubmitted⟩
      obtain rfl := Option.some.inj (hpublisher.symm.trans hother)
      exact hsends
  next hpublisher =>
    refine .inr ⟨fun publisher h => ?_, by rw [← hcall]⟩
    rw [hpublisher] at h
    cases h

/-- A cache refuses, has nothing to put, or submits the payload. -/
theorem Cache.putBatch_cases {outcome : CacheOutcome}
    (hcall : cache.putBatch answers link entries = outcome) :
    (¬cache.Accepts answers entries ∧
      ∃ failure, outcome = ⟨none, .error failure, cache.effective⟩) ∨
    (entries = [] ∧ outcome.submission = none ∧ outcome.effective = cache.effective) ∨
    (cache.Accepts answers entries ∧
      ∃ submission, outcome.submission = some submission ∧
        submission.payload = encodeBatch entries) := by
  unfold Cache.putBatch at hcall
  simp only at hcall
  split at hcall
  next hpresent =>
    refine .inl ⟨fun haccepts => ?_, _, hcall.symm⟩
    rw [haccepts.present] at hpresent
    cases hpresent
  next hpresent =>
    split at hcall
    next hattached =>
      refine .inl ⟨fun haccepts => ?_, _, hcall.symm⟩
      rw [haccepts.attached] at hattached
      cases hattached
    next hattached =>
      split at hcall
      next hkeys =>
        refine .inl ⟨fun haccepts => ?_, _, hcall.symm⟩
        rw [haccepts.keys] at hkeys
        cases hkeys
      next hkeys =>
        split at hcall
        next hempty => exact .inr (.inl ⟨List.isEmpty_iff.mp hempty, by rw [← hcall], by rw [← hcall]⟩)
        next hempty =>
          split at hcall
          next hkey =>
            refine .inl ⟨fun haccepts => ?_, _, hcall.symm⟩
            have hsome := haccepts.key
            rw [hkey] at hsome
            cases hsome
          next key hkey =>
            split at hcall
            next hleased =>
              refine .inl ⟨fun haccepts => ?_, _, hcall.symm⟩
              rw [haccepts.leased] at hleased
              cases hleased
            next hleased =>
              rcases Cache.send_cases rfl with ⟨hnot, failure, hrefused⟩ | ⟨hsends, hsubmitted⟩
              · rw [hrefused] at hcall
                exact .inl ⟨fun haccepts => hnot haccepts.sends, _, hcall.symm⟩
              · refine .inr (.inr ⟨⟨by simpa using hpresent, by simpa using hattached,
                  by simpa using hkeys, by rw [hkey]; rfl, by simpa using hleased, hsends⟩,
                  ⟨key, encodeBatch entries, kSitosV1Batch, none⟩, ?_, rfl⟩)
                split at hcall
                next submitted failure hsend =>
                  rw [hsend] at hsubmitted
                  rw [← hcall]
                  exact hsubmitted
                next submitted hsend =>
                  rw [hsend] at hsubmitted
                  split at hcall
                  · rw [← hcall]
                    exact hsubmitted
                  · rw [← hcall]
                    exact hsubmitted

end Calls

section Faithful

variable {entries : List BatchEntry} {submission : Submission} {failure : Failure}
  {result : Except Failure Unit} {untouched : Prop}

theorem faithful_refused (huntouched : untouched) :
    Faithful entries none (.error failure) untouched :=
  ⟨.inl nofun, huntouched⟩

theorem faithful_nil (huntouched : untouched) : Faithful [] none result untouched :=
  ⟨.inr rfl, huntouched⟩

theorem faithful_submitted_iff (hpayload : submission.payload = encodeBatch entries) :
    Faithful entries (some submission) result untouched ↔ Fits entries := by
  rw [Faithful, hpayload]
  exact ⟨fits_of_decodeBatch, decodeBatch_encodeBatch⟩

theorem fits_nil : Fits [] :=
  ⟨by decide, fun _ h => (nomatch h), fun _ h => (nomatch h)⟩

end Faithful

/-- A batch that is put is the batch that is submitted, for a store and for a cache, exactly when
every length of an accepted call fits its field. -/
theorem putBatch_faithful_iff (link : Link) (entries : List BatchEntry) :
    (∀ (store : Store) (scope : ByteString) (options : WriteOptions),
      Faithful entries (store.putBatch link scope entries options).1
          (store.putBatch link scope entries options).2 True ↔
        (store.Accepts link scope entries options → Fits entries)) ∧
    ∀ (cache : Cache) (answers : FencePublisher.Answers),
      Faithful entries (cache.putBatch answers link entries).submission
          (cache.putBatch answers link entries).result
          ((cache.putBatch answers link entries).effective = cache.effective) ↔
        (cache.Accepts answers entries → Fits entries) := by
  constructor
  · intro store scope options
    generalize hout : store.putBatch link scope entries options = outcome
    rcases Store.putBatch_cases hout with ⟨hrefused, failure, hcall⟩ | ⟨rfl, hcall⟩ |
      ⟨haccepts, submission, result, hcall, hpayload⟩
    · rw [hcall]
      exact ⟨fun _ haccepts => absurd haccepts hrefused, fun _ => faithful_refused trivial⟩
    · rw [hcall]
      exact ⟨fun _ _ => fits_nil, fun _ => faithful_nil trivial⟩
    · rw [hcall, faithful_submitted_iff hpayload]
      exact ⟨fun hfits _ => hfits, fun hfits => hfits haccepts⟩
  · intro cache answers
    generalize hout : cache.putBatch answers link entries = outcome
    rcases Cache.putBatch_cases hout with ⟨hrefused, failure, hcall⟩ | ⟨rfl, hcall, heffective⟩ |
      ⟨haccepts, submission, hcall, hpayload⟩
    · rw [hcall]
      exact ⟨fun _ haccepts => absurd haccepts hrefused, fun _ => faithful_refused rfl⟩
    · rw [hcall]
      exact ⟨fun _ _ => fits_nil, fun _ => faithful_nil heffective⟩
    · rw [hcall, faithful_submitted_iff hpayload]
      exact ⟨fun hfits _ => hfits, fun hfits => hfits haccepts⟩

/-- A value of four gibibytes is submitted with a length of zero. -/
theorem putBatch_long_value :
    let store : Store := ⟨true, ascii "sitos"⟩
    let link : Link := ⟨.ok (), .error (.timeout, ""), ⟨List.replicate 16 0, rfl⟩⟩
    let entries : List BatchEntry := [⟨ascii "a", .bytes (List.replicate (2 ^ 32) 0)⟩]
    ¬Faithful entries (store.putBatch link (ascii "base") entries ⟨false, 5000⟩).1
      (store.putBatch link (ascii "base") entries ⟨false, 5000⟩).2 True := by
  intro store link entries hfaithful
  have hscope : parseScope (ascii "base") = some .base := by decide
  have haccepts : store.Accepts link (ascii "base") entries ⟨false, 5000⟩ :=
    { transport := rfl
      writable := by
        rw [hscope]
        exact ⟨nofun, nofun⟩
      timeout := nofun
      key := by decide
      keys := by
        rw [List.all_cons, List.all_nil]
        decide
      metaAck := nofun }
  rcases Store.putBatch_cases rfl with ⟨hrefused, -⟩ | ⟨hnil, -⟩ |
    ⟨-, submission, result, hcall, hpayload⟩
  · exact hrefused haccepts
  · exact List.cons_ne_nil _ _ hnil
  · rw [hcall, faithful_submitted_iff hpayload] at hfaithful
    have hlong := hfaithful.body _ (List.mem_singleton_self _)
    rw [encodeBody, List.length_replicate] at hlong
    exact lt_irrefl _ hlong

end Sitos.PutBatch

import Sitos.Wire.AckCodec
import Sitos.Wire.AckToken
import Sitos.Wire.BatchCodec
import Sitos.Wire.Key
import Sitos.Wire.Sample

/-!
# Acknowledged writes

A client submits a write once, under a token of its own, and then asks for the result of that token
until a reply or the deadline ends the wait.  What the transport does is free in every round: how
the `Get` ends, which replies it delivers, and how much time passes.

Times are in nanoseconds of the steady clock, and spans given by callers in milliseconds.
-/

namespace Sitos.AckClient

open Sitos.AckCodec
open Sitos.AckResult
open Sitos.Batch
open Sitos.Bytes
open Sitos.Key
open Sitos.Sample
open Sitos.Token

def kAckQueryWindowMax : ℤ := 1000
def kAckQueryRetryDelay : ℤ := 100
def kSitosV1Ack : ByteString := ascii "sitos.v1.ack"

def kDeadlineNotPositive : ByteString := ascii "acknowledgement deadline must be positive"
def kInvalidPrefix : ByteString := ascii "acknowledgement prefix is invalid"
def kNoAckWithinDeadline : ByteString := ascii "no acknowledgement within the total deadline"
def kProtocolWrongKey : ByteString := ascii "ack protocol error: reply key differs from query"
def kProtocolWrongEncoding : ByteString :=
  ascii "ack protocol error: reply Encoding is not sitos.v1.ack"
def kProtocolMalformed : ByteString := ascii "ack protocol error: malformed AckResultV1"

variable {Cause : Type}

/-- `ErrorInfo`, of a transport call that failed. -/
structure ErrorInfo (Cause : Type) where
  status : Status
  message : ByteString
  cause : Cause

/-- What an unsuccessful call returns. -/
structure Failure (Cause : Type) where
  status : Status
  message : ByteString
  cause : Option Cause

structure Reply where
  key : ByteString
  encodingId : ByteString
  bytes : ByteString

/-- What a pass of the polling loop meets: the clock before and after its query, the answers of
`cancelled` at these two points, and the query. -/
structure Round (Cause : Type) where
  before : ℤ
  after : ℤ
  cancelledBefore : Option RawAckResult
  cancelledAfter : Option RawAckResult
  replies : List Reply
  get : Option (ErrorInfo Cause)

/-- Which callbacks the caller of `PollAcknowledgement` gave. -/
structure Callbacks where
  cancelled : Bool
  observed : Bool

inductive Event where
  | wait (keyExpression : ByteString) (deadlineAt : ℤ)
  | put (fullKey payload encodingId : ByteString) (ackToken : AckToken)
  | get (key : ByteString) (window : ℤ)
  | observed (result : RawAckResult)
  | sleep (milliseconds : ℤ)

/-! ## Times and texts -/

/-- `Clock::time_point::max()`. -/
def timeMax : ℤ := 2 ^ 63 - 1

/-- `std::chrono::ceil` to milliseconds. -/
def ceilMilliseconds (span : ℤ) : ℤ := -(-span / 1000000)

def saturatingDeadlineAt (now requested : ℤ) : ℤ :=
  let remaining := timeMax - now
  if requested > remaining.tdiv 1000000 then timeMax else now + requested * 1000000

def sanitizeAckDiagnostic (input : ByteString) : ByteString :=
  (input.take kAckResultMaxMessageLength).map fun byte =>
    if (0x20 ≤ byte ∧ byte ≤ 0x7E) ∨ byte = 0x09 ∨ byte = 0x0A ∨ byte = 0x0D then byte else 0x3F

def timeoutMessage (latestMessage : ByteString) : ByteString :=
  (kNoAckWithinDeadline ++
    if latestMessage.isEmpty then [] else ascii "; last transport error: " ++ latestMessage).take
      kAckResultMaxMessageLength

/-! ## The sink of a query -/

structure Seen where
  observed : Option RawAckResult
  protocolError : Option ByteString

/-- What the sink makes of a reply, and whether it asks for more. -/
def onReply (queryKey : ByteString) (seen : Seen) (reply : Reply) : Seen × Bool :=
  if reply.key ≠ queryKey then ({ seen with protocolError := some kProtocolWrongKey }, false)
  else if reply.encodingId ≠ kSitosV1Ack then
    ({ seen with protocolError := some kProtocolWrongEncoding }, false)
  else
    match decodeAckResult reply.bytes with
    | .error _ => ({ seen with protocolError := some kProtocolMalformed }, false)
    | .ok result => ({ seen with observed := some result }, false)

/-- A `Get` delivers its replies one after the other while the sink asks for more. -/
def deliver (queryKey : ByteString) : List Reply → Seen → Seen
  | [], seen => seen
  | reply :: replies, seen =>
      let (seen, more) := onReply queryKey seen reply
      if more then deliver queryKey replies seen else seen

/-! ## Polling -/

/-- What the loop keeps of the transport errors it has seen. -/
structure Latest (Cause : Type) where
  cause : Option Cause
  message : ByteString
  transportErrorSeen : Bool

def Latest.start : Option (ErrorInfo Cause) → Latest Cause
  | none => ⟨none, [], false⟩
  | some error => ⟨some error.cause, error.message, true⟩

/-- Only the first error is kept. -/
def Latest.note (latest : Latest Cause) : Option (ErrorInfo Cause) → Latest Cause
  | none => latest
  | some error =>
      if latest.transportErrorSeen then latest
      else ⟨some error.cause, sanitizeAckDiagnostic error.message, true⟩

def Latest.timeout (latest : Latest Cause) : Failure Cause :=
  ⟨.timeout, timeoutMessage latest.message, latest.cause⟩

/-- What a pass has done, and what it comes to: the end of the call, or another pass. -/
structure Pass (Cause : Type) where
  events : List Event
  next : Except (Failure Cause) RawAckResult ⊕ Latest Cause

variable (callbacks : Callbacks) (queryKey : ByteString) (deadlineAt : ℤ)

/-- The pass from the end of its query on. -/
def afterQuery (latest : Latest Cause) (round : Round Cause) (seen : Seen) : Pass Cause :=
  match (if callbacks.cancelled then round.cancelledAfter else none), seen.protocolError,
      seen.observed with
  | some result, _, _ => ⟨[], .inl (.ok result)⟩
  | none, some message, _ => ⟨[], .inl (.error ⟨.error, message, none⟩)⟩
  | none, none, some result => ⟨[], .inl (.ok result)⟩
  | none, none, none =>
      let latest := latest.note round.get
      let left := ceilMilliseconds (deadlineAt - round.after)
      if left ≤ 0 then ⟨[], .inl (.error latest.timeout)⟩
      else ⟨[.sleep (min kAckQueryRetryDelay left)], .inr latest⟩

def pass (latest : Latest Cause) (round : Round Cause) : Pass Cause :=
  match (if callbacks.cancelled then round.cancelledBefore else none) with
  | some result => ⟨[], .inl (.ok result)⟩
  | none =>
      let remaining := ceilMilliseconds (deadlineAt - round.before)
      if remaining ≤ 0 then ⟨[], .inl (.error latest.timeout)⟩
      else
        let seen := deliver queryKey round.replies ⟨none, none⟩
        let told := if callbacks.observed then seen.observed.toList.map Event.observed else []
        let rest := afterQuery callbacks deadlineAt latest round seen
        ⟨.get queryKey (min kAckQueryWindowMax remaining) :: told ++ rest.events, rest.next⟩

/-- A call so far: what it has done, and what it returned if it has. -/
structure Outcome (Cause : Type) where
  events : List Event
  returned : Option (Except (Failure Cause) RawAckResult)

/-- The loop, for as many passes as `fuel` says. -/
def poll (rounds : ℕ → Round Cause) : ℕ → ℕ → Latest Cause → Outcome Cause
  | 0, _, _ => ⟨[], none⟩
  | fuel + 1, index, latest =>
      let done := pass callbacks queryKey deadlineAt latest (rounds index)
      match done.next with
      | .inl result => ⟨done.events, some result⟩
      | .inr latest =>
          let rest := poll rounds fuel (index + 1) latest
          ⟨done.events ++ rest.events, rest.returned⟩

def pollAcknowledgement (keyPrefix : ByteString) (token : AckToken)
    (latestTransportError : Option (ErrorInfo Cause)) (rounds : ℕ → Round Cause) (fuel : ℕ) :
    Outcome Cause :=
  match buildMetaAckKey keyPrefix (formatAckToken token) with
  | none => ⟨[], some (.error ⟨.invalidArgument, kInvalidPrefix, none⟩)⟩
  | some queryKey => poll callbacks queryKey deadlineAt rounds fuel 0 (.start latestTransportError)

/-! ## Submission -/

/-- What a call meets: its token, the clock at its start, the `Put` and the rounds. -/
structure Link (Cause : Type) where
  token : AckToken
  start : ℤ
  put : Option (ErrorInfo Cause)
  rounds : ℕ → Round Cause

def emptyBatchResult : AckResultV1 :=
  { operationKind := .batch, status := .ok, durability := .applied, appliedCount := 0,
    failedIndex := kAckNoFailedIndex, throughSequence := 0, failedSequence := kAckNoFailedSequence,
    message := [] }

def submitAcknowledgedWrite (link : Link Cause)
    (keyPrefix fullKey payload encodingId : ByteString) (totalDeadline : ℤ) (fuel : ℕ) :
    Outcome Cause :=
  if totalDeadline ≤ 0 then
    ⟨[], some (.error ⟨.invalidArgument, kDeadlineNotPositive, none⟩)⟩
  else if encodingId = kSitosV1Batch ∧ decodeBatch payload = some [] then
    ⟨[], some (.ok (raw emptyBatchResult))⟩
  else if (buildMetaAckKey keyPrefix (formatAckToken link.token)).isNone then
    ⟨[], some (.error ⟨.invalidArgument, kInvalidPrefix, none⟩)⟩
  else
    let deadlineAt := saturatingDeadlineAt link.start totalDeadline
    let polled := pollAcknowledgement ⟨false, false⟩ deadlineAt keyPrefix link.token link.put
      link.rounds fuel
    ⟨.wait (keyPrefix ++ ascii "/meta/ack/*") deadlineAt ::
      .put fullKey payload encodingId link.token :: polled.events, polled.returned⟩

/-! ## What a pass comes to -/

/-- What is made of the first reply of a query. -/
def judge (queryKey : ByteString) (reply : Reply) : Except (Failure Cause) RawAckResult :=
  if reply.key ≠ queryKey then .error ⟨.error, kProtocolWrongKey, none⟩
  else if reply.encodingId ≠ kSitosV1Ack then .error ⟨.error, kProtocolWrongEncoding, none⟩
  else
    match decodeAckResult reply.bytes with
    | .error _ => .error ⟨.error, kProtocolMalformed, none⟩
    | .ok result => .ok result

/-- A reply that is a result of the token asked about. -/
def Believed (queryKey : ByteString) (reply : Reply) (result : RawAckResult) : Prop :=
  reply.key = queryKey ∧ reply.encodingId = kSitosV1Ack ∧ decodeAckResult reply.bytes = .ok result

/-- A pass that says nothing and leaves time. -/
def Silent (deadlineAt : ℤ) (round : Round Cause) : Prop :=
  round.before < deadlineAt ∧ round.replies = [] ∧ round.after < deadlineAt

def Round.window (deadlineAt : ℤ) (round : Round Cause) : ℤ :=
  min kAckQueryWindowMax (ceilMilliseconds (deadlineAt - round.before))

def Round.pause (deadlineAt : ℤ) (round : Round Cause) : ℤ :=
  min kAckQueryRetryDelay (ceilMilliseconds (deadlineAt - round.after))

theorem ceilMilliseconds_nonpos (span : ℤ) : ceilMilliseconds span ≤ 0 ↔ span ≤ 0 := by
  unfold ceilMilliseconds
  omega

section Passes

variable {queryKey : ByteString} {deadlineAt : ℤ}

/-- The sink never asks for a second reply. -/
theorem deliver_cons (reply : Reply) (replies : List Reply) (seen : Seen) :
    deliver queryKey (reply :: replies) seen = (onReply queryKey seen reply).1 := by
  have hstops : (onReply queryKey seen reply).2 = false := by
    unfold onReply
    split_ifs
    · rfl
    · rfl
    · cases decodeAckResult reply.bytes with
      | error message => rfl
      | ok result => rfl
  simp only [deliver, hstops, Bool.false_eq_true, if_false]

theorem judge_eq_ok (reply : Reply) (result : RawAckResult) :
    (judge queryKey reply : Except (Failure Cause) RawAckResult) = .ok result ↔
      Believed queryKey reply result := by
  unfold judge Believed
  split_ifs with hkey hencoding
  · simp [hkey]
  · simp [hencoding]
  · simp only [ne_eq, not_not] at hkey hencoding
    cases hdecoded : decodeAckResult reply.bytes with
    | error message => simp
    | ok decoded => simp [hkey, hencoding]

/-- A reply that is not believed is a protocol error. -/
theorem judge_of_not_believed {reply : Reply} (hreply : ∀ result, ¬Believed queryKey reply result) :
    ∃ message, (judge queryKey reply : Except (Failure Cause) RawAckResult) =
      .error ⟨.error, message, none⟩ := by
  cases hjudge : (judge queryKey reply : Except (Failure Cause) RawAckResult) with
  | ok result => exact absurd ((judge_eq_ok reply result).mp hjudge) (hreply result)
  | error failure =>
      unfold judge at hjudge
      split_ifs at hjudge
      · exact ⟨_, congrArg Except.error (Except.error.inj hjudge).symm⟩
      · exact ⟨_, congrArg Except.error (Except.error.inj hjudge).symm⟩
      · split at hjudge
        · exact ⟨_, congrArg Except.error (Except.error.inj hjudge).symm⟩
        · cases hjudge

theorem pass_late (queryKey : ByteString) (latest : Latest Cause) {round : Round Cause}
    (hlate : deadlineAt ≤ round.before) :
    pass ⟨false, false⟩ queryKey deadlineAt latest round = ⟨[], .inl (.error latest.timeout)⟩ := by
  have hnone : ceilMilliseconds (deadlineAt - round.before) ≤ 0 := by
    rw [ceilMilliseconds_nonpos]
    omega
  simp only [pass, Bool.false_eq_true, if_false, hnone, if_true]

theorem pass_replied (queryKey : ByteString) (latest : Latest Cause) {round : Round Cause}
    {reply : Reply} (hearly : round.before < deadlineAt) (hreply : round.replies.head? = some reply) :
    pass ⟨false, false⟩ queryKey deadlineAt latest round =
      ⟨[.get queryKey (round.window deadlineAt)], .inl (judge queryKey reply)⟩ := by
  have hleft : ¬ceilMilliseconds (deadlineAt - round.before) ≤ 0 := by
    rw [ceilMilliseconds_nonpos]
    omega
  obtain ⟨others, hreplies⟩ : ∃ others, round.replies = reply :: others := by
    cases hreplies : round.replies with
    | nil => simp [hreplies] at hreply
    | cons first others =>
        rw [hreplies] at hreply
        exact ⟨others, by rw [Option.some.inj hreply]⟩
  simp only [pass, Bool.false_eq_true, if_false, hleft, hreplies, deliver_cons, onReply, judge]
  by_cases hkey : reply.key = queryKey
  · by_cases hencoding : reply.encodingId = kSitosV1Ack
    · simp only [hkey, hencoding, ne_eq, not_true, if_false]
      cases decodeAckResult reply.bytes with
      | error message => rfl
      | ok result => rfl
    · simp only [hkey, hencoding, ne_eq, not_true, not_false_iff, if_true, if_false]
      rfl
  · simp only [hkey, ne_eq, not_false_iff, if_true]
    rfl

theorem pass_expired (queryKey : ByteString) (latest : Latest Cause) {round : Round Cause}
    (hearly : round.before < deadlineAt) (hreplies : round.replies = [])
    (hlate : deadlineAt ≤ round.after) :
    pass ⟨false, false⟩ queryKey deadlineAt latest round =
      ⟨[.get queryKey (round.window deadlineAt)],
        .inl (.error (latest.note round.get).timeout)⟩ := by
  have hleft : ¬ceilMilliseconds (deadlineAt - round.before) ≤ 0 := by
    rw [ceilMilliseconds_nonpos]
    omega
  have hnone : ceilMilliseconds (deadlineAt - round.after) ≤ 0 := by
    rw [ceilMilliseconds_nonpos]
    omega
  simp only [pass, Bool.false_eq_true, if_false, hleft, hreplies, deliver, afterQuery, hnone,
    if_true, List.append_nil]
  rfl

theorem pass_silent (queryKey : ByteString) (latest : Latest Cause) {round : Round Cause}
    (hsilent : Silent deadlineAt round) :
    pass ⟨false, false⟩ queryKey deadlineAt latest round =
      ⟨[.get queryKey (round.window deadlineAt), .sleep (round.pause deadlineAt)],
        .inr (latest.note round.get)⟩ := by
  obtain ⟨hearly, hreplies, htime⟩ := hsilent
  have hleft : ¬ceilMilliseconds (deadlineAt - round.before) ≤ 0 := by
    rw [ceilMilliseconds_nonpos]
    omega
  have hmore : ¬ceilMilliseconds (deadlineAt - round.after) ≤ 0 := by
    rw [ceilMilliseconds_nonpos]
    omega
  simp only [pass, Bool.false_eq_true, if_false, hleft, hreplies, deliver, afterQuery, hmore]
  rfl

/-- How a round that is not silent ends the call. -/
inductive Decides (queryKey : ByteString) (deadlineAt : ℤ) (round : Round Cause) :
    Except (Failure Cause) RawAckResult → Prop where
  | late (failure : Failure Cause) (hfailure : failure.status = .timeout)
      (hlate : deadlineAt ≤ round.before) : Decides queryKey deadlineAt round (.error failure)
  | replied (reply : Reply) (hearly : round.before < deadlineAt)
      (hreply : round.replies.head? = some reply) :
      Decides queryKey deadlineAt round (judge queryKey reply)
  | expired (failure : Failure Cause) (hfailure : failure.status = .timeout)
      (hearly : round.before < deadlineAt) (hreplies : round.replies = [])
      (hlate : deadlineAt ≤ round.after) : Decides queryKey deadlineAt round (.error failure)

/-- A round that is not silent decides, and its pass ends the call so. -/
theorem pass_decides (queryKey : ByteString) (latest : Latest Cause) {round : Round Cause}
    (hround : ¬Silent deadlineAt round) :
    ∃ events result, Decides queryKey deadlineAt round result ∧
      (events = [] ∨ events = [.get queryKey (round.window deadlineAt)]) ∧
      pass ⟨false, false⟩ queryKey deadlineAt latest round = ⟨events, .inl result⟩ := by
  by_cases hlate : deadlineAt ≤ round.before
  · exact ⟨_, _, .late _ rfl hlate, .inl rfl, pass_late queryKey latest hlate⟩
  · have hearly : round.before < deadlineAt := not_le.mp hlate
    cases hreply : round.replies.head? with
    | some reply =>
        exact ⟨_, _, .replied reply hearly hreply, .inr rfl,
          pass_replied queryKey latest hearly hreply⟩
    | none =>
        have hreplies : round.replies = [] := List.head?_eq_none_iff.mp hreply
        have hexpired : deadlineAt ≤ round.after :=
          not_lt.mp fun htime => hround ⟨hearly, hreplies, htime⟩
        exact ⟨_, _, .expired _ rfl hearly hreplies hexpired, .inr rfl,
          pass_expired queryKey latest hearly hreplies hexpired⟩

end Passes

/-! ## The loop -/

section Loop

variable {queryKey : ByteString} {deadlineAt : ℤ} {rounds : ℕ → Round Cause}

/-- Every pass before this one was silent. -/
def Reached (deadlineAt : ℤ) (rounds : ℕ → Round Cause) (index : ℕ) : Prop :=
  ∀ earlier < index, Silent deadlineAt (rounds earlier)

/-- Only queries and pauses. -/
def Event.IsPoll (queryKey : ByteString) : Event → Prop
  | .get key _ => key = queryKey
  | .sleep _ => True
  | _ => False

def gets (events : List Event) : ℕ :=
  events.countP fun event => match event with | .get _ _ => true | _ => false

def puts (events : List Event) : List Event :=
  events.filter fun event => match event with | .put _ _ _ _ => true | _ => false

theorem poll_isPoll (fuel index : ℕ) (latest : Latest Cause) :
    ∀ event ∈ (poll ⟨false, false⟩ queryKey deadlineAt rounds fuel index latest).events,
      event.IsPoll queryKey := by
  induction fuel generalizing index latest with
  | zero => simp [poll]
  | succ fuel ih =>
      by_cases hsilent : Silent deadlineAt (rounds index)
      · simp only [poll, pass_silent queryKey latest hsilent]
        intro event hevent
        rcases List.mem_append.mp hevent with hhere | hlater
        · simp only [List.mem_cons, List.not_mem_nil, or_false] at hhere
          rcases hhere with rfl | rfl
          · rfl
          · trivial
        · exact ih (index + 1) _ event hlater
      · obtain ⟨events, result, -, hevents, hpass⟩ :=
          pass_decides queryKey latest hsilent
        simp only [poll, hpass]
        intro event hevent
        rcases hevents with rfl | rfl
        · cases hevent
        · obtain rfl := List.mem_singleton.mp hevent
          rfl

/-- What the loop returns was decided by the first round that was not silent. -/
theorem decides_of_returned {fuel index : ℕ} {latest : Latest Cause}
    {result : Except (Failure Cause) RawAckResult}
    (hreached : Reached deadlineAt rounds index)
    (hreturned : (poll ⟨false, false⟩ queryKey deadlineAt rounds fuel index latest).returned =
      some result) :
    ∃ last, Reached deadlineAt rounds last ∧ Decides queryKey deadlineAt (rounds last) result := by
  induction fuel generalizing index latest with
  | zero => cases hreturned
  | succ fuel ih =>
      by_cases hsilent : Silent deadlineAt (rounds index)
      · simp only [poll, pass_silent queryKey latest hsilent] at hreturned
        refine ih (fun earlier hearlier => ?_) hreturned
        rcases Nat.lt_succ_iff_lt_or_eq.mp hearlier with hlt | rfl
        · exact hreached earlier hlt
        · exact hsilent
      · obtain ⟨events, decided, hdecides, -, hpass⟩ :=
          pass_decides queryKey latest hsilent
        simp only [poll, hpass, Option.some.injEq] at hreturned
        exact ⟨index, hreached, hreturned ▸ hdecides⟩

/-- A reply that arrives in time ends the loop in its own round. -/
theorem poll_of_reply {fuel index last : ℕ} {latest : Latest Cause} {reply : Reply}
    (hindex : index ≤ last) (hfuel : last < index + fuel)
    (hreached : Reached deadlineAt rounds last)
    (hearly : (rounds last).before < deadlineAt)
    (hreply : (rounds last).replies.head? = some reply) :
    (poll ⟨false, false⟩ queryKey deadlineAt rounds fuel index latest).returned =
        some (judge queryKey reply) ∧
      gets (poll ⟨false, false⟩ queryKey deadlineAt rounds fuel index latest).events =
        last - index + 1 := by
  induction fuel generalizing index latest with
  | zero => omega
  | succ fuel ih =>
      rcases hindex.eq_or_lt with rfl | hlt
      · simp only [poll, pass_replied queryKey latest hearly hreply]
        exact ⟨trivial, by simp [gets]⟩
      · have hsilent : Silent deadlineAt (rounds index) := hreached index hlt
        obtain ⟨hreturned, hgets⟩ :=
          @ih (index + 1) (latest.note (rounds index).get) hlt (by omega)
        simp only [poll, pass_silent queryKey latest hsilent]
        refine ⟨hreturned, ?_⟩
        rw [gets, List.countP_append]
        rw [gets] at hgets
        rw [hgets]
        simp
        omega

/-- A round that is not silent ends the loop. -/
theorem poll_returns {fuel index last : ℕ} {latest : Latest Cause} (hindex : index ≤ last)
    (hfuel : last < index + fuel) (hlast : ¬Silent deadlineAt (rounds last)) :
    (poll ⟨false, false⟩ queryKey deadlineAt rounds fuel index latest).returned ≠ none := by
  induction fuel generalizing index latest with
  | zero => omega
  | succ fuel ih =>
      by_cases hsilent : Silent deadlineAt (rounds index)
      · have hlt : index < last := by
          refine lt_of_le_of_ne hindex ?_
          rintro rfl
          exact hlast hsilent
        simp only [poll, pass_silent queryKey latest hsilent]
        exact ih hlt (by omega)
      · obtain ⟨events, decided, -, -, hpass⟩ :=
          pass_decides queryKey latest hsilent
        simp only [poll, hpass]
        exact nofun

end Loop

/-! ## The call -/

theorem decodeBatch_eq_nil (payload : ByteString) :
    decodeBatch payload = some [] ↔ payload = encodeBatch [] := by
  rw [decodeBatch_eq_some_iff]
  constructor
  · rintro ⟨frames, -, hframes, rfl⟩
    obtain rfl := List.forall₂_nil_right_iff.mp hframes
    rfl
  · rintro rfl
    exact ⟨[], by norm_num, .nil, rfl⟩

/-- A call that is decided without the transport does nothing.  Any other puts the write once,
before it asks for anything, and from then on only asks; it believes a first reply that is a result
of its own token, ends with the round of a first reply that is not, and ends without a reply only
when its deadline has passed. -/
theorem ack_client_submits_once (link : Link Cause)
    (keyPrefix fullKey payload encodingId : ByteString) (totalDeadline : ℤ) :
    let isLocal := totalDeadline ≤ 0 ∨ (encodingId = kSitosV1Batch ∧ payload = encodeBatch []) ∨
      buildMetaAckKey keyPrefix (formatAckToken link.token) = none
    let deadlineAt := saturatingDeadlineAt link.start totalDeadline
    let outcome := submitAcknowledgedWrite link keyPrefix fullKey payload encodingId totalDeadline
    (isLocal → ∀ fuel, (outcome fuel).events = [] ∧ (outcome fuel).returned ≠ none) ∧
    (¬isLocal → ∃ queryKey,
      buildMetaAckKey keyPrefix (formatAckToken link.token) = some queryKey ∧
      (∀ fuel, ∃ polled, (outcome fuel).events =
          .wait (keyPrefix ++ ascii "/meta/ack/*") deadlineAt ::
            .put fullKey payload encodingId link.token :: polled ∧
        ∀ event ∈ polled, event.IsPoll queryKey) ∧
      (∀ fuel result, (outcome fuel).returned = some (.ok result) →
        ∃ last reply, Reached deadlineAt link.rounds last ∧
          (link.rounds last).replies.head? = some reply ∧ Believed queryKey reply result) ∧
      (∀ last reply, Reached deadlineAt link.rounds last →
        (link.rounds last).before < deadlineAt →
        (link.rounds last).replies.head? = some reply →
        ∀ fuel, last < fuel → gets (outcome fuel).events = last + 1 ∧
          (∀ result, Believed queryKey reply result →
            (outcome fuel).returned = some (.ok result)) ∧
          ((∀ result, ¬Believed queryKey reply result) →
            ∃ message, (outcome fuel).returned = some (.error ⟨.error, message, none⟩))) ∧
      (∀ fuel failure, (outcome fuel).returned = some (.error failure) →
        ∃ last, Reached deadlineAt link.rounds last ∧
          ((failure.status = .error ∧ ∃ reply, (link.rounds last).replies.head? = some reply ∧
              ∀ result, ¬Believed queryKey reply result) ∨
            (failure.status = .timeout ∧
              (deadlineAt ≤ (link.rounds last).before ∨
                (link.rounds last).replies = [] ∧ deadlineAt ≤ (link.rounds last).after)))) ∧
      ∀ last, ¬Silent deadlineAt (link.rounds last) →
        ∃ fuel, (outcome fuel).returned ≠ none) := by
  intro isLocal deadlineAt outcome
  constructor
  · intro hlocal fuel
    simp only [outcome, submitAcknowledgedWrite, decodeBatch_eq_nil]
    split_ifs with hdeadline hempty hprefix
    · exact ⟨rfl, nofun⟩
    · exact ⟨rfl, nofun⟩
    · exact ⟨rfl, nofun⟩
    · rcases hlocal with hlate | hbatch | hnone
      · exact absurd hlate hdeadline
      · exact absurd hbatch hempty
      · rw [hnone] at hprefix
        exact absurd rfl hprefix
  · intro hlocal
    obtain ⟨hdeadline, hempty, hprefix⟩ : ¬totalDeadline ≤ 0 ∧
        ¬(encodingId = kSitosV1Batch ∧ payload = encodeBatch []) ∧
          buildMetaAckKey keyPrefix (formatAckToken link.token) ≠ none :=
      ⟨fun h => hlocal (.inl h), fun h => hlocal (.inr (.inl h)), fun h => hlocal (.inr (.inr h))⟩
    obtain ⟨queryKey, hkey⟩ := Option.ne_none_iff_exists'.mp hprefix
    have houtcome (fuel : ℕ) : outcome fuel =
        ⟨.wait (keyPrefix ++ ascii "/meta/ack/*") deadlineAt ::
          .put fullKey payload encodingId link.token ::
            (poll ⟨false, false⟩ queryKey deadlineAt link.rounds fuel 0 (.start link.put)).events,
          (poll ⟨false, false⟩ queryKey deadlineAt link.rounds fuel 0
            (.start link.put)).returned⟩ := by
      simp only [outcome, submitAcknowledgedWrite, decodeBatch_eq_nil, hdeadline, hempty, hkey,
        Option.isNone_some, pollAcknowledgement, Bool.false_eq_true, if_false]
      rfl
    have hstart : Reached deadlineAt link.rounds 0 := fun _ hlt => absurd hlt (Nat.not_lt_zero _)
    refine ⟨queryKey, hkey, ?_, ?_, ?_, ?_, ?_⟩
    · intro fuel
      rw [houtcome fuel]
      exact ⟨_, rfl, poll_isPoll fuel 0 _⟩
    · intro fuel result hreturned
      rw [houtcome fuel] at hreturned
      obtain ⟨last, hreached, hdecides⟩ := decides_of_returned hstart hreturned
      generalize hout : (.ok result : Except (Failure Cause) RawAckResult) = out at hdecides
      cases hdecides with
      | late failure => cases hout
      | expired failure => cases hout
      | replied reply hearly hreply =>
          exact ⟨last, reply, hreached, hreply, (judge_eq_ok reply result).mp hout.symm⟩
    · intro last reply hreached hearly hreply fuel hfuel
      rw [houtcome fuel]
      have hlast : last < 0 + fuel := by omega
      obtain ⟨hreturned, hgets⟩ := @poll_of_reply Cause queryKey deadlineAt link.rounds fuel 0 last
        (.start link.put) reply (Nat.zero_le last) hlast hreached hearly hreply
      refine ⟨?_, fun result hbelieved => ?_, fun hreject => ?_⟩
      · simpa [gets] using hgets
      · exact hreturned.trans (congrArg some ((judge_eq_ok reply result).mpr hbelieved))
      · obtain ⟨message, hjudge⟩ := @judge_of_not_believed Cause queryKey reply hreject
        exact ⟨message, hreturned.trans (congrArg some hjudge)⟩
    · intro fuel failure hreturned
      rw [houtcome fuel] at hreturned
      obtain ⟨last, hreached, hdecides⟩ := decides_of_returned hstart hreturned
      refine ⟨last, hreached, ?_⟩
      generalize hout : (.error failure : Except (Failure Cause) RawAckResult) = out at hdecides
      cases hdecides with
      | late given hgiven hlate =>
          obtain rfl := Except.error.inj hout
          exact .inr ⟨hgiven, .inl hlate⟩
      | expired given hgiven hearly hreplies hlate =>
          obtain rfl := Except.error.inj hout
          exact .inr ⟨hgiven, .inr ⟨hreplies, hlate⟩⟩
      | replied reply hearly hreply =>
          have hreject (result : RawAckResult) : ¬Believed queryKey reply result := by
            intro hbelieved
            cases hout.trans ((judge_eq_ok reply result).mpr hbelieved)
          obtain ⟨message, hjudge⟩ := @judge_of_not_believed Cause queryKey reply hreject
          have hfailure := Except.error.inj (hout.trans hjudge)
          exact .inl ⟨by rw [hfailure], reply, hreply, hreject⟩
    · intro last hlast
      refine ⟨last + 1, ?_⟩
      rw [houtcome (last + 1)]
      exact poll_returns (Nat.zero_le last) (by omega) hlast

end Sitos.AckClient

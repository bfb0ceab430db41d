import Sitos.Node.BufferFenceSound

/-!
# The blocks of a call

Every block keeps the invariant: one lemma for each, in the order in which a call makes them.
-/

namespace Sitos.BufferFence

open Sitos.AckResult
open Sitos.Attachment
open Sitos.Bytes
open Sitos.DurableWrite
open Sitos.FenceWire
open Sitos.Key
open Sitos.LaneHistory
open Sitos.Receiver
open Sitos.Registry
open Sitos.Sample
open Sitos.Tasks
open Sitos.Token

variable {Fingerprint : Type} {node : Node Fingerprint} {steady : Prop}
  {Sent : Delivered → Prop} {shared next : Shared Fingerprint} {task after : Task}
  {choice : Choice} {delivered : Delivered} {record : ℕ} {bufferClass : BufferClass}
  {claim : Option Claim}

/-! ## The registry -/

theorem Holds.lane_isValid (hholds : Holds node steady Sent shared)
    (hrecord : record < shared.allocated) (bufferClass : BufferClass)
    (publisherUuid : FenceUuid) : (shared.lane record bufferClass publisherUuid).IsValid :=
  hholds.valid record hrecord

theorem Holds.allocated (hholds : Holds node steady Sent shared) (hlive : shared.IsLive record) :
    record < shared.allocated :=
  (hholds.bound _ record (hholds.mapped record hlive)).1

theorem changes_recordMalformedBuffer (hholds : Holds node steady Sent shared)
    (hrecord : record < shared.allocated) (publisherUuid : Option FenceUuid)
    (sequence : Option Sequence) :
    Changes node steady Sent claim shared
      (shared.recordMalformedBuffer record bufferClass publisherUuid sequence) := by
  cases publisherUuid with
  | none => exact Changes.refl hholds
  | some publisherUuid =>
      exact (heard_malformed hholds.known (hholds.lane_isValid hrecord _ _) sequence).changes
        trivial hholds

theorem changes_overflow (hholds : Holds node steady Sent shared)
    (hrecord : record < shared.allocated) (lane : FenceLaneObservation) :
    Changes node steady Sent claim shared (overflow shared record bufferClass lane) := by
  cases lane with
  | absent => exact Changes.refl hholds
  | metadata publisherUuid sequence =>
      exact (heard_overflow hholds.known (hholds.lane_isValid hrecord _ _) sequence).changes
        trivial hholds
  | malformed publisherUuid sequence =>
      exact changes_recordMalformedBuffer hholds hrecord publisherUuid sequence

/-- A failed observation that was admitted. -/
theorem changes_completeBufferObservation (hholds : Holds node steady Sent shared)
    (hrecord : record < shared.allocated) {publisherUuid : FenceUuid} {sequence : Sequence}
    (hadmitted : sequence.val ∈
      (shared.histories (shared.lane record bufferClass publisherUuid)).admitted)
    {status : Status} (hstatus : status ≠ .ok) :
    Changes node steady Sent claim shared
      (shared.completeBufferObservation (shared.lane record bufferClass publisherUuid) sequence
        (some status)) := by
  have hfailed : ¬Succeeded (some status) := by
    rintro (hnone | hok)
    · cases hnone
    · exact hstatus (Option.some.inj hok)
  exact (heard_complete hholds.known (hholds.lane_isValid hrecord _ _) hadmitted _).changes
    hfailed hholds

/-- What an admission gives to the call. -/
structure Admits (shared next : Shared Fingerprint) (record : ℕ) (bufferClass : BufferClass)
    (publisherUuid : FenceUuid) (sequence : UInt64) : Prop where
  records : next.records = shared.records
  admitted : sequence ∈ (next.histories (shared.lane record bufferClass publisherUuid)).admitted
  fresh : sequence ∉ (shared.histories (shared.lane record bufferClass publisherUuid)).admitted
  unapplied : sequence ∉
    (next.applied (shared.lane record bufferClass publisherUuid)).map Prod.fst

theorem admitBufferObservation_spec (hholds : Holds node steady Sent shared)
    (hrecord : record < shared.allocated) (publisherUuid : FenceUuid) (sequence : Sequence)
    {accepted : Bool}
    (hcalled : shared.admitBufferObservation (shared.lane record bufferClass publisherUuid)
      sequence = (next, accepted)) :
    Changes node steady Sent claim shared next ∧ next.records = shared.records ∧
      (accepted = true → Admits shared next record bufferClass publisherUuid sequence.val) := by
  have hvalid := hholds.lane_isValid hrecord bufferClass publisherUuid
  have hheard := heard_admission hholds.known hvalid sequence
  rw [hcalled] at hheard
  refine ⟨hheard.changes trivial hholds, hheard.records, fun haccepted => ?_⟩
  have htrue : (shared.admitBufferObservation (shared.lane record bufferClass publisherUuid)
      sequence).2 = true := by
    rw [hcalled]
    exact haccepted
  obtain ⟨hold, hnew⟩ := admitted_of_accepted hholds.known hvalid htrue
  rw [hcalled] at hnew
  refine ⟨hheard.records, hnew, hold, ?_⟩
  rw [hheard.applied]
  exact fun hmem => hold ((hholds.journal _).admitted _ hmem)

/-! ## DispatchSample -/

theorem isData_of_destination {sid : ByteString}
    (hdestination : destination node.keyPrefix delivered = some ⟨sid, some bufferClass, none⟩) :
    ∃ relativeKey, IsData node delivered.sample sid bufferClass relativeKey := by
  unfold destination at hdestination
  split at hdestination
  · have hmarker := (Destination.mk.inj (Option.some.inj hdestination)).2.2
    cases hmarker
  · split at hdestination
    · cases hdestination
    · rename_i parsed hparsed
      split_ifs at hdestination with hbuffer
      obtain ⟨hsid, hclass, -⟩ := Destination.mk.inj (Option.some.inj hdestination)
      exact ⟨parsed.relativeKey, parsed, hparsed, hbuffer.1, hsid, hclass, rfl⟩

theorem marker_of_destination {sid : ByteString} {asked : Option BufferClass}
    {route : FenceMarkerRoute} {routeValid : Bool}
    (hdestination : destination node.keyPrefix delivered =
      some ⟨sid, asked, some (route, routeValid)⟩) :
    markerRoute node.keyPrefix delivered.sample.key = some (route, routeValid) := by
  unfold destination at hdestination
  split at hdestination
  · rename_i found valid hroute
    obtain ⟨-, -, hmarker⟩ := Destination.mk.inj (Option.some.inj hdestination)
    rw [← Option.some.inj hmarker]
    exact (Option.filter_eq_some_iff.mp hroute).1
  · split at hdestination
    · cases hdestination
    · split_ifs at hdestination
      obtain ⟨-, -, hmarker⟩ := Destination.mk.inj (Option.some.inj hdestination)
      cases hmarker

theorem markerFacts_of_markerCall {route : FenceMarkerRoute} {routeValid serialized : Bool}
    {ticket : Option Ticket} {call : MarkerCall} (hsent : Sent delivered)
    (hroute : markerRoute node.keyPrefix delivered.sample.key = some (route, routeValid))
    (hcall : markerCall delivered route routeValid serialized ticket = some call) :
    MarkerFacts node Sent call ∧ call.ticket = ticket := by
  unfold markerCall at hcall
  split at hcall
  · rename_i token htoken
    obtain rfl := Option.some.inj hcall
    exact ⟨⟨⟨delivered, hsent, rfl, htoken⟩, hroute⟩, rfl⟩
  · cases hcall

/-- A call that holds nothing goes on holding nothing. -/
theorem passes_free (hticket : task.ticket = none) (hlease : task.lease = none)
    (hchanges : Changes node steady Sent task.claim shared next)
    (hticket' : after.ticket = none) (hlease' : after.lease = none) (hclaim : after.claim = none)
    (hfacts : Facts node steady Sent next after) :
    Passes node steady Sent shared task next after := by
  have hcounts : SameCounts next next := sameCounts_of_records rfl
  refine hchanges.passes (Quiet.refl next) (hcounts.balances ?_ ?_)
    (at_free hticket' hlease' hclaim hfacts) fun held hheld => ?_
  · rw [hticket, hticket']
  · rw [hlease, hlease']
  · rw [hclaim] at hheld
    cases hheld

theorem passes_idle (hticket : task.ticket = none) (hlease : task.lease = none)
    (hchanges : Changes node steady Sent task.claim shared next) :
    Passes node steady Sent shared task next .idle :=
  passes_free hticket hlease hchanges rfl rfl rfl trivial

theorem balances_enterDispatch (hticket : task.ticket = none)
    (hticket' : after.ticket = some (record, bufferClass)) (hlease : after.lease = task.lease) :
    Balances shared task (shared.enterDispatch (record, bufferClass)) after where
  admitted other asked := by
    rw [hticket, hticket']
    by_cases hsame : other = record
    · by_cases hclass : asked = bufferClass
      · simp [Shared.enterDispatch, Shared.modify, moved, hsame, hclass]
      · simp [Shared.enterDispatch, Shared.modify, moved, hsame, hclass, Ne.symm hclass]
    · simp [Shared.enterDispatch, Shared.modify, moved, hsame, Ne.symm hsame]
  leases other := by
    rw [hlease, moved_self]
    by_cases hsame : other = record
    · simp [Shared.enterDispatch, Shared.modify, hsame]
    · simp [Shared.enterDispatch, Shared.modify, hsame]

theorem passes_closedMarker (hholds : Holds node steady Sent shared) (hsent : Sent delivered)
    {marker : Option (FenceMarkerRoute × Bool)}
    (hroute : ∀ route routeValid, marker = some (route, routeValid) →
      markerRoute node.keyPrefix delivered.sample.key = some (route, routeValid)) :
    Passes node steady Sent shared (.arrived delivered) shared
      (closedMarker shared delivered marker) := by
  have hidle : Passes node steady Sent shared (.arrived delivered) shared .idle :=
    passes_idle rfl rfl (Changes.refl hholds)
  unfold closedMarker
  cases marker with
  | none => exact hidle
  | some marker =>
      obtain ⟨route, routeValid⟩ := marker
      simp only
      split_ifs
      · exact hidle
      · cases hcall : markerCall delivered route routeValid false none with
        | none => exact hidle
        | some call =>
            obtain ⟨hfacts, hticket⟩ :=
              markerFacts_of_markerCall hsent (hroute route routeValid rfl) hcall
            refine passes_free rfl rfl (Changes.refl hholds) hticket rfl rfl ⟨hfacts, ?_, ?_⟩
            · split_ifs <;> decide
            · intro served hserved
              cases hserved

/-- A data call that was admitted to its dispatch. -/
theorem passes_entering (hsent : Sent delivered)
    (hlive : shared.IsLive record) {publisherUuid : FenceUuid} {sequence : Sequence}
    (hlane : delivered.observations.lane = .metadata publisherUuid sequence)
    {relativeKey : ByteString}
    (hdata : IsData node delivered.sample (shared.records record).sid bufferClass relativeKey)
    (hchanges : Changes node steady Sent none shared next)
    (hadmits : Admits shared next record bufferClass publisherUuid sequence.val) :
    Passes node steady Sent shared (.arrived delivered)
      (next.enterDispatch (record, bufferClass))
      (.entering delivered (some (record, bufferClass)) true) := by
  have hnext : next.IsLive record := hchanges.later.live record hlive
  have hquiet := Quiet.enterDispatch hnext bufferClass
  have hclaim : ∀ held, (Task.entering delivered (some (record, bufferClass)) true).claim =
      some held → held = ⟨record, bufferClass, publisherUuid, sequence.val⟩ := by
    intro held hheld
    simp only [Task.claim, DataCall.claim, hlane] at hheld
    exact (Option.some.inj hheld).symm
  have hsame : (next.enterDispatch (record, bufferClass)).lane record bufferClass publisherUuid =
      shared.lane record bufferClass publisherUuid :=
    (hquiet.lane ..).trans (hchanges.later.lane hlive ..)
  refine hchanges.passes hquiet (balances_enterDispatch rfl rfl rfl)
    ⟨?_, ?_, ?_, hsent, ⟨delivered, hsent, rfl, rfl⟩, ?_⟩ ?_
  · intro served asked hticket
    obtain ⟨rfl, rfl⟩ := Prod.mk.inj (Option.some.inj hticket)
    exact hquiet.isLive.mpr hnext
  · intro served hlease
    cases hlease
  · intro held hheld
    rw [hclaim held hheld, Claim.lane, hsame, hquiet.histories, hquiet.applied]
    exact ⟨hadmits.admitted, hadmits.unapplied⟩
  · intro _
    refine ⟨record, bufferClass, relativeKey, rfl, ?_⟩
    rw [hquiet.sid, hchanges.later.sid record hlive]
    exact hdata
  · intro held hheld
    rw [hclaim held hheld]
    exact .inr hadmits.fresh

theorem dispatch_spec (hholds : Holds node steady Sent shared) (hsent : Sent delivered)
    {sid : ByteString} {marker : Option (FenceMarkerRoute × Bool)}
    (hdestination : destination node.keyPrefix delivered = some ⟨sid, some bufferClass, marker⟩)
    (hfind : shared.sessions.find sid = some record) (hdispatcher : node.dispatcher = true)
    (hdispatch : (shared.records record).dispatch = true) :
    Passes node steady Sent shared (.arrived delivered)
      (dispatch shared choice delivered record bufferClass marker).1
      (dispatch shared choice delivered record bufferClass marker).2 := by
  obtain ⟨hrecord, hsid⟩ := hholds.bound sid record hfind
  unfold dispatch
  split_ifs with haccepting hroom hmarker
  · refine passes_closedMarker hholds hsent fun route routeValid hsome => ?_
    rw [hsome] at hdestination
    exact marker_of_destination hdestination
  · exact passes_idle rfl rfl (Changes.refl hholds)
  · exact passes_idle rfl rfl (changes_overflow hholds hrecord _)
  · have hlive : shared.IsLive record := by
      intro hclosed
      have hrefuses := hholds.refuses record hclosed hrecord hdispatcher hdispatch bufferClass
      simp [hrefuses] at haccepting
    cases marker with
    | some marker =>
        have hquiet := Quiet.enterDispatch hlive bufferClass
        refine (Changes.refl hholds).passes hquiet (balances_enterDispatch rfl rfl rfl)
          ⟨?_, ?_, ?_, hsent, ⟨delivered, hsent, rfl, rfl⟩, ?_⟩ ?_
        · intro served asked hticket
          obtain ⟨rfl, rfl⟩ := Prod.mk.inj (Option.some.inj hticket)
          exact hquiet.isLive.mpr hlive
        · intro served hlease
          cases hlease
        · intro held hheld
          cases hheld
        · intro hpreadmitted
          cases hpreadmitted
        · intro held hheld
          cases hheld
    | none =>
        obtain ⟨relativeKey, hdata⟩ := isData_of_destination hdestination
        rw [← hsid] at hdata
        cases hlane : delivered.observations.lane with
        | absent => exact passes_idle rfl rfl (Changes.refl hholds)
        | malformed publisherUuid sequence =>
            exact passes_idle rfl rfl (changes_recordMalformedBuffer hholds hrecord _ _)
        | metadata publisherUuid sequence =>
            simp only [prepare, Option.isSome_none, Bool.false_eq_true, if_false]
            cases hcalled : shared.admitBufferObservation
                (shared.lane record bufferClass publisherUuid) sequence with
            | mk next accepted =>
                obtain ⟨hchanges, -, hadmits⟩ :=
                  admitBufferObservation_spec hholds hrecord publisherUuid sequence hcalled
                cases accepted with
                | false => exact passes_idle rfl rfl hchanges
                | true =>
                    exact passes_entering hsent hlive hlane hdata hchanges (hadmits rfl)

theorem dispatchSample_spec (hholds : Holds node steady Sent shared) (hsent : Sent delivered) :
    Passes node steady Sent shared (.arrived delivered)
      (dispatchSample node shared choice delivered).1
      (dispatchSample node shared choice delivered).2 := by
  have hentering : Passes node steady Sent shared (.arrived delivered) shared
      (.entering delivered none false) :=
    passes_free rfl rfl (Changes.refl hholds) rfl rfl rfl
      ⟨hsent, ⟨delivered, hsent, rfl, rfl⟩, fun hpreadmitted => by cases hpreadmitted⟩
  unfold dispatchSample
  split_ifs with hthrows
  · exact passes_free rfl rfl (Changes.refl hholds) rfl rfl rfl hsent
  · cases hdestination : destination node.keyPrefix delivered with
    | none => exact hentering
    | some destination =>
        obtain ⟨sid, asked, marker⟩ := destination
        have hother : Passes node steady Sent shared (.arrived delivered) shared
            (if marker.isSome then .entering delivered none false else .idle) := by
          split_ifs
          · exact hentering
          · exact passes_idle rfl rfl (Changes.refl hholds)
        cases hfind : shared.sessions.find sid with
        | none => simpa [hfind] using hother
        | some record =>
            cases asked with
            | none => simpa [hfind] using hother
            | some bufferClass =>
                simp only [hfind]
                split_ifs with hdirect
                · exact hentering
                · obtain ⟨hdispatcher, hdispatch⟩ := not_or.mp hdirect
                  exact dispatch_spec hholds hsent hdestination hfind (by simpa using hdispatcher)
                    (by simpa using hdispatch)

theorem isData_of_bufferOf (hholds : Holds node steady Sent shared) {sample : TransportSample}
    (hbuffer : bufferOf node shared sample = some (record, bufferClass)) :
    shared.sessions.find (shared.records record).sid = some record ∧
      ∃ relativeKey, IsData node sample (shared.records record).sid bufferClass relativeKey := by
  simp only [bufferOf, Option.bind_eq_bind, Option.bind_eq_some_iff, Option.pure_def,
    Option.some.injEq, Prod.mk.injEq] at hbuffer
  obtain ⟨parsed, hparsed, _, hkind, asked, hclass, served, hserved, rfl, rfl⟩ := hbuffer
  have hsid := (hholds.bound _ _ hserved).2
  refine ⟨by rwa [hsid], parsed.relativeKey, parsed, hparsed, ?_, hsid.symm, hclass, rfl⟩
  by_contra hother
  simp [guard, hother] at hkind

theorem recoverSample_spec (hholds : Holds node steady Sent shared) :
    Passes node steady Sent shared (.failed delivered)
      (recoverSample node shared choice delivered) .idle := by
  have hrefl : Passes node steady Sent shared (.failed delivered) shared .idle :=
    passes_idle rfl rfl (Changes.refl hholds)
  unfold recoverSample
  cases hbuffer : bufferOf node shared delivered.sample with
  | none => exact hrefl
  | some found =>
      obtain ⟨record, bufferClass⟩ := found
      obtain ⟨hfind, -⟩ := isData_of_bufferOf hholds hbuffer
      have hrecord := (hholds.bound _ _ hfind).1
      have hclose : Passes node steady Sent shared (.failed delivered)
          (if node.dispatcher then shared.closeDispatch record bufferClass else shared) .idle := by
        split_ifs
        · exact passes_idle rfl rfl ((Quiet.closeDispatch record bufferClass).changes
            (sameCounts_closeDispatch record bufferClass) hholds)
        · exact hrefl
      by_cases hdispatch : (!(shared.records record).dispatch) = true
      · simp only [hdispatch, if_true]
        exact hrefl
      · simp only [hdispatch]
        cases choice.recovery with
        | lost => exact hrefl
        | closed => exact hclose
        | recorded =>
            cases hlane : delivered.observations.lane with
            | absent => exact hclose
            | metadata publisherUuid sequence =>
                exact passes_idle rfl rfl (changes_overflow hholds hrecord (.metadata _ _))
            | malformed publisherUuid sequence =>
                exact passes_idle rfl rfl (changes_recordMalformedBuffer hholds hrecord _ _)

/-! ## OnSample -/

theorem quiet_lock : Quiet shared shared.lock := Quiet.flags ..

theorem quiet_unlock : Quiet shared shared.unlock := Quiet.flags ..

/-- A call that goes on with what it has, or with less. -/
theorem passes_quiet (hholds : Holds node steady Sent shared)
    (hat : At node steady Sent shared task) (hquiet : Quiet shared next)
    (hcounts : Balances shared task next after)
    (hticket : ∀ ticket, after.ticket = some ticket → task.ticket = some ticket)
    (hlease : ∀ record, after.lease = some record → task.lease = some record)
    (hclaim : ∀ held, after.claim = some held → task.claim = some held)
    (hfacts : Facts node steady Sent next after) :
    Passes node steady Sent shared task next after := by
  refine (Changes.refl hholds).passes hquiet hcounts ⟨?_, ?_, ?_, hfacts⟩ fun held hheld =>
    .inl (hclaim held hheld)
  · intro record bufferClass hsome
    exact hquiet.isLive.mpr (hat.ticket record bufferClass (hticket _ hsome))
  · intro record hsome
    obtain ⟨hlive, hbegun⟩ := hat.lease record (hlease record hsome)
    refine ⟨hquiet.isLive.mpr hlive, ?_⟩
    rwa [hquiet.phase]
  · intro held hheld
    obtain ⟨hadmitted, hnew⟩ := hat.claim held (hclaim held hheld)
    have hlane : held.lane next = held.lane shared := hquiet.lane ..
    rw [hlane, hquiet.histories, hquiet.applied]
    exact ⟨hadmitted, hnew⟩

/-- Nothing but the application lane and the acknowledgements has changed. -/
theorem passes_on (hholds : Holds node steady Sent shared)
    (hat : At node steady Sent shared task) (hquiet : Quiet shared next)
    (hrecords : next.records = shared.records) (hticket : after.ticket = task.ticket)
    (hlease : after.lease = task.lease)
    (hclaim : ∀ held, after.claim = some held → task.claim = some held)
    (hfacts : Facts node steady Sent next after) :
    Passes node steady Sent shared task next after := by
  refine passes_quiet hholds hat hquiet
    ((sameCounts_of_records hrecords).balances hticket hlease) ?_ ?_ hclaim hfacts
  · intro ticket hsome
    rwa [hticket] at hsome
  · intro record hsome
    rwa [hlease] at hsome

/-! ## Returns -/

theorem admitted_release (lease : Option ℕ) (other : ℕ) :
    ((shared.release lease).records other).admitted = (shared.records other).admitted := by
  cases lease with
  | none => rfl
  | some record =>
      by_cases hsame : other = record
      · simp [Shared.release, Shared.modify, hsame]
      · simp [Shared.release, Shared.modify, hsame]

theorem leases_release (lease : Option ℕ) (other : ℕ) :
    ((shared.release lease).records other).leases =
      moved (decide (lease = some other)) false (shared.records other).leases := by
  cases lease with
  | none => rfl
  | some record =>
      by_cases hsame : other = record
      · simp [Shared.release, Shared.modify, moved, hsame]
      · simp [Shared.release, Shared.modify, moved, hsame, Ne.symm hsame]

theorem admitted_leaveDispatch (ticket : Option Ticket) (other : ℕ) (asked : BufferClass) :
    ((shared.leaveDispatch ticket).records other).admitted asked =
      moved (decide (ticket = some (other, asked))) false
        ((shared.records other).admitted asked) := by
  cases ticket with
  | none => rfl
  | some ticket =>
      obtain ⟨record, bufferClass⟩ := ticket
      by_cases hsame : other = record
      · by_cases hclass : asked = bufferClass
        · simp [Shared.leaveDispatch, Shared.modify, moved, hsame, hclass]
        · simp [Shared.leaveDispatch, Shared.modify, moved, hsame, hclass, Ne.symm hclass]
      · simp [Shared.leaveDispatch, Shared.modify, moved, hsame, Ne.symm hsame]

theorem leases_leaveDispatch (ticket : Option Ticket) (other : ℕ) :
    ((shared.leaveDispatch ticket).records other).leases = (shared.records other).leases := by
  cases ticket with
  | none => rfl
  | some ticket =>
      by_cases hsame : other = ticket.1
      · simp [Shared.leaveDispatch, Shared.modify, hsame]
      · simp [Shared.leaveDispatch, Shared.modify, hsame]

/-- A call gives back its lease, and its ticket. -/
theorem passes_return (hat : At node steady Sent shared task)
    (hchanges : Changes node steady Sent task.claim shared next) {final : Shared Fingerprint}
    (hquiet : Quiet (next.release task.lease) final)
    (hrecords : final.records = (next.release task.lease).records) :
    Passes node steady Sent shared task (leave final task.ticket).1
      (leave final task.ticket).2 := by
  have hreleased : Quiet next (next.release task.lease) := Quiet.release fun record hsome =>
    hchanges.later.live record (hat.lease record hsome).1
  have hbefore := hreleased.trans hquiet
  have hleft : Quiet final (final.leaveDispatch task.ticket) :=
    Quiet.leaveDispatch fun record bufferClass hsome =>
      hbefore.isLive.mpr (hchanges.later.live record (hat.ticket record bufferClass hsome))
  refine hchanges.passes (hbefore.trans hleft) ⟨fun record bufferClass => ?_, fun record => ?_⟩
    (at_free rfl rfl rfl trivial) fun held hheld => by cases hheld
  · rw [leave, admitted_leaveDispatch, hrecords, admitted_release]
    rfl
  · rw [leave, leases_leaveDispatch, hrecords, leases_release]
    rfl

theorem passes_leave (hat : At node steady Sent shared task)
    (hchanges : Changes node steady Sent task.claim shared next) {ticket : Option Ticket}
    (hticket : task.ticket = ticket) (hlease : task.lease = none) :
    Passes node steady Sent shared task (leave next ticket).1 (leave next ticket).2 := by
  subst hticket
  refine passes_return hat hchanges ?_ ?_
  · rw [hlease]
    exact Quiet.refl next
  · rw [hlease]
    rfl

theorem passes_finish (hat : At node steady Sent shared task)
    (hchanges : Changes node steady Sent task.claim shared next) {ticket : Option Ticket}
    {lease : Option ℕ} (hticket : task.ticket = ticket) (hlease : task.lease = lease) :
    Passes node steady Sent shared task (finish (next.release lease) ticket).1
      (finish (next.release lease) ticket).2 := by
  subst hticket
  subst hlease
  exact passes_return hat hchanges quiet_unlock rfl

theorem quiet_rejectReentrantSample [DecidableEq Fingerprint] :
    Quiet shared (rejectReentrantSample node shared delivered) := by
  unfold rejectReentrantSample
  split
  · exact Quiet.flags ..
  · exact Quiet.refl shared

theorem records_rejectReentrantSample [DecidableEq Fingerprint] :
    (rejectReentrantSample node shared delivered).records = shared.records := by
  unfold rejectReentrantSample
  split <;> rfl

theorem onSample_spec [DecidableEq Fingerprint] {ticket : Option Ticket} {preadmitted : Bool}
    (hholds : Holds node steady Sent shared)
    (hat : At node steady Sent shared (.entering delivered ticket preadmitted))
    (hblock : onSample node shared choice delivered ticket preadmitted = some (next, after)) :
    Passes node steady Sent shared (.entering delivered ticket preadmitted) next after := by
  obtain ⟨hsent, hdata⟩ := hat.facts
  have hleave : ∀ middle, Quiet shared middle → middle.records = shared.records →
      leave middle ticket = (next, after) →
      Passes node steady Sent shared (.entering delivered ticket preadmitted) next after := by
    intro middle hquiet hrecords hleft
    have hticket : (Task.entering delivered ticket preadmitted).ticket = ticket := rfl
    have hpasses :=
      passes_leave hat (hquiet.changes (sameCounts_of_records hrecords) hholds) hticket rfl
    rw [hleft] at hpasses
    exact hpasses
  have hrefl := Quiet.refl shared
  unfold onSample at hblock
  split at hblock
  · exact hleave shared hrefl rfl (Option.some.inj hblock)
  split at hblock
  · obtain ⟨rfl, rfl⟩ := Prod.mk.inj (Option.some.inj hblock)
    exact passes_on hholds hat hrefl rfl rfl rfl (fun _ h => h) hdata
  split at hblock
  · rename_i route routeValid hroute
    split_ifs at hblock
    · exact hleave shared hrefl rfl (Option.some.inj hblock)
    · split at hblock
      · exact hleave shared hrefl rfl (Option.some.inj hblock)
      · rename_i call hcall
        obtain ⟨rfl, rfl⟩ := Prod.mk.inj (Option.some.inj hblock)
        obtain ⟨hfacts, hticket⟩ := markerFacts_of_markerCall hsent hroute hcall
        exact passes_on hholds hat quiet_lock rfl hticket rfl (fun _ h => by cases h) hfacts
  · split_ifs at hblock
    · exact hleave shared hrefl rfl (Option.some.inj hblock)
    · exact hleave _ quiet_rejectReentrantSample records_rejectReentrantSample
        (Option.some.inj hblock)
    · split at hblock
      · obtain ⟨rfl, rfl⟩ := Prod.mk.inj (Option.some.inj hblock)
        exact passes_on hholds hat quiet_lock rfl rfl rfl (fun _ h => by cases h) trivial
      · obtain ⟨rfl, rfl⟩ := Prod.mk.inj (Option.some.inj hblock)
        refine passes_on hholds hat quiet_lock rfl rfl rfl (fun _ h => h) ?_
        exact @DataFacts.later _ _ steady _ _ _ _ hdata quiet_lock.later hat.ticket

section Data

variable {call : DataCall} {started : Bool} {relativeKey : ByteString}

theorem unwinding_spec {lease : Option ℕ} (hholds : Holds node steady Sent shared)
    (hat : At node steady Sent shared (.unwinding call lease started)) :
    Passes node steady Sent shared (.unwinding call lease started)
      (shared.release lease).unlock (.caught call started) := by
  have hquiet : Quiet shared (shared.release lease).unlock :=
    (Quiet.release fun record hrecord => (hat.lease record hrecord).1).trans quiet_unlock
  have hcounts : Balances shared (.unwinding call lease started) (shared.release lease).unlock
      (.caught call started) := by
    refine ⟨fun record bufferClass => ?_, leases_release lease⟩
    rw [Shared.unlock, admitted_release]
    exact (moved_self ..).symm
  refine passes_quiet hholds hat hquiet hcounts (fun _ h => h) (fun _ h => by cases h)
    (fun _ h => h) ?_
  exact @DataFacts.later _ _ steady _ _ _ _ hat.facts hquiet.later hat.ticket

/-- A sample is data of one class of one session. -/
theorem isData_inj {sample : TransportSample} {sid other : ByteString} {asked : BufferClass}
    {otherKey : ByteString} (hdata : IsData node sample sid bufferClass relativeKey)
    (hother : IsData node sample other asked otherKey) : sid = other ∧ bufferClass = asked := by
  obtain ⟨parsed, hparsed, -, hsid, hclass, -⟩ := hdata
  obtain ⟨parsed', hparsed', -, hsid', hclass', -⟩ := hother
  obtain rfl := Option.some.inj (hparsed.symm.trans hparsed')
  exact ⟨hsid.symm.trans hsid', Option.some.inj (hclass.symm.trans hclass')⟩

/-- An admitted call finds the record that has admitted it. -/
theorem ticket_of_preadmitted (hholds : Holds node steady Sent shared)
    (hfacts : DataFacts node Sent shared call)
    (hticket : ∀ record bufferClass, call.ticket = some (record, bufferClass) →
      shared.IsLive record)
    (hpreadmitted : call.preadmitted = true)
    (hfind : shared.sessions.find (shared.records record).sid = some record)
    (hdata : IsData node call.sample (shared.records record).sid bufferClass relativeKey) :
    call.ticket = some (record, bufferClass) := by
  obtain ⟨served, asked, otherKey, hsome, hother⟩ := hfacts.preadmitted hpreadmitted
  obtain ⟨hsid, rfl⟩ := isData_inj hdata hother
  have hmapped := hholds.mapped served (hticket served bufferClass hsome)
  rw [← hsid] at hmapped
  obtain rfl := Option.some.inj (hfind.symm.trans hmapped)
  exact hsome

theorem claim_of_preadmitted (hpreadmitted : call.preadmitted = true)
    (hticket : call.ticket = some (record, bufferClass)) {publisherUuid : FenceUuid}
    {sequence : Sequence} (hlane : call.lane = .metadata publisherUuid sequence) :
    call.claim = some ⟨record, bufferClass, publisherUuid, sequence.val⟩ := by
  simp only [DataCall.claim, hpreadmitted, hticket, hlane]

theorem onSampleCaught_spec (hholds : Holds node steady Sent shared)
    (hat : At node steady Sent shared (.caught call started)) :
    Passes node steady Sent shared (.caught call started)
      (onSampleCaught node shared choice call started).1
      (onSampleCaught node shared choice call started).2 := by
  have hrefl : Changes node steady Sent call.claim shared shared := Changes.refl hholds
  refine @passes_leave _ _ _ _ _ _ (.caught call started) hat ?_ _ rfl rfl
  change Changes node steady Sent call.claim shared _
  cases hlane : call.lane with
  | absent => exact hrefl
  | malformed publisherUuid sequence => exact hrefl
  | metadata publisherUuid sequence =>
      cases hbuffer : bufferOf node shared call.sample with
      | none => exact hrefl
      | some found =>
          obtain ⟨record, bufferClass⟩ := found
          by_cases hcomplete : (call.preadmitted && !choice.throws) = true
          · simp only [hcomplete, if_true]
            obtain ⟨hpreadmitted, -⟩ := Bool.and_eq_true_iff.mp hcomplete
            obtain ⟨hfind, relativeKey, hdata⟩ := isData_of_bufferOf hholds hbuffer
            have hticket :=
              ticket_of_preadmitted hholds hat.facts hat.ticket hpreadmitted hfind hdata
            have hclaim := claim_of_preadmitted hpreadmitted hticket hlane
            refine changes_completeBufferObservation hholds (hholds.bound _ _ hfind).1
              (hat.claim _ hclaim).1 ?_
            cases started <;> decide
          · simp only [hcomplete]
            exact hrefl

/-! ## ApplyParameterSample -/

theorem balances_acquire (hlease : task.lease = none) (hlease' : after.lease = some record)
    (hticket : after.ticket = task.ticket) :
    Balances shared task (shared.acquire record) after where
  admitted other asked := by
    rw [hticket, moved_self]
    by_cases hsame : other = record
    · simp [Shared.acquire, Shared.modify, hsame]
    · simp [Shared.acquire, Shared.modify, hsame]
  leases other := by
    rw [hlease, hlease']
    by_cases hsame : other = record
    · simp [Shared.acquire, Shared.modify, moved, hsame]
    · simp [Shared.acquire, Shared.modify, moved, hsame, Ne.symm hsame]

theorem passes_acquire (hholds : Holds node steady Sent shared)
    (hat : At node steady Sent shared (.selecting call)) (hactive : shared.isActive record = true)
    (hdata : IsData node call.sample (shared.records record).sid bufferClass relativeKey)
    (hsame : call.preadmitted = true → call.ticket = some (record, bufferClass)) :
    Passes node steady Sent shared (.selecting call) (shared.acquire record)
      (.admitting call record bufferClass relativeKey) := by
  have hphase : (shared.records record).phase = .active := by
    simpa [Shared.isActive] using hactive
  have hlive : shared.IsLive record := by
    rw [Shared.IsLive, hphase]
    decide
  have hquiet := Quiet.acquire hlive
  refine (Changes.refl hholds).passes hquiet (balances_acquire rfl rfl rfl)
    ⟨?_, ?_, ?_, ?_, ?_, hsame⟩ fun held hheld => .inl hheld
  · intro served asked hticket
    exact hquiet.isLive.mpr (hat.ticket served asked hticket)
  · intro served hserved
    obtain rfl := Option.some.inj hserved
    refine ⟨hquiet.isLive.mpr hlive, ?_⟩
    rw [hquiet.phase, hphase]
    decide
  · intro held hheld
    have hlane : held.lane (shared.acquire record) = held.lane shared := hquiet.lane ..
    rw [hlane, hquiet.histories, hquiet.applied]
    exact hat.claim held hheld
  · exact @DataFacts.later _ _ steady _ _ _ _ hat.facts hquiet.later hat.ticket
  · rwa [hquiet.sid]

theorem selectSession_spec (hholds : Holds node steady Sent shared)
    (hat : At node steady Sent shared (.selecting call)) :
    Passes node steady Sent shared (.selecting call)
      (selectSession node shared choice call).1 (selectSession node shared choice call).2 := by
  have hfacts : DataFacts node Sent shared call := hat.facts
  have hfinish : Passes node steady Sent shared (.selecting call)
      (finish shared call.ticket).1 (finish shared call.ticket).2 :=
    passes_finish hat (Changes.refl hholds) rfl rfl
  unfold selectSession
  split
  · exact passes_on hholds hat (Quiet.refl shared) rfl rfl rfl (fun _ h => h) hfacts
  split
  · exact hfinish
  rename_i parsed hparsed
  split
  · exact hfinish
  rename_i hkind
  cases hfind : shared.sessions.find parsed.sid with
  | none => exact hfinish
  | some record =>
      cases hclass : parsed.bufferClass with
      | none => exact hfinish
      | some bufferClass =>
          obtain ⟨hrecord, hsid⟩ := hholds.bound _ _ hfind
          have hdata : IsData node call.sample (shared.records record).sid bufferClass
              parsed.relativeKey := ⟨parsed, hparsed, not_not.mp hkind, hsid.symm, hclass, rfl⟩
          rw [← hsid] at hfind
          have hsame := fun hpreadmitted =>
            ticket_of_preadmitted hholds hfacts hat.ticket hpreadmitted hfind hdata
          by_cases hactive : shared.isActive record = true
          · simp only [hactive, if_true]
            exact passes_acquire hholds hat hactive hdata hsame
          · simp only [hactive]
            cases hlane : call.lane with
            | absent => exact hfinish
            | malformed publisherUuid sequence => exact hfinish
            | metadata publisherUuid sequence =>
                cases hpreadmitted : call.preadmitted with
                | false => exact hfinish
                | true =>
                    have hclaim := claim_of_preadmitted hpreadmitted (hsame hpreadmitted) hlane
                    refine passes_finish hat ?_ rfl rfl
                    exact changes_completeBufferObservation hholds hrecord
                      (hat.claim _ hclaim).1 (by decide)

theorem admitData_spec (hholds : Holds node steady Sent shared)
    (hat : At node steady Sent shared (.admitting call record bufferClass relativeKey)) :
    Passes node steady Sent shared (.admitting call record bufferClass relativeKey)
      (admitData shared call record bufferClass relativeKey).1
      (admitData shared call record bufferClass relativeKey).2 := by
  obtain ⟨hlive, hbegun⟩ := hat.lease record rfl
  have hrecord := hholds.allocated hlive
  have hfacts : DataFacts node Sent shared call := hat.facts.1
  have hgo : (∀ held, call.claimOn record bufferClass = some held → call.claim = some held) →
      Passes node steady Sent shared (.admitting call record bufferClass relativeKey) shared
        (.writing call record bufferClass relativeKey) := fun hclaim =>
    passes_on hholds hat (Quiet.refl shared) rfl rfl rfl hclaim hat.facts
  have hrefused : ∀ middle, Changes node steady Sent call.claim shared middle →
      Passes node steady Sent shared (.admitting call record bufferClass relativeKey)
        (finish (middle.release (some record)) call.ticket).1
        (finish (middle.release (some record)) call.ticket).2 :=
    fun middle hchanges => passes_finish hat hchanges rfl rfl
  unfold admitData
  cases hlane : call.lane with
  | absent =>
      refine hgo fun held hheld => ?_
      simp only [DataCall.claimOn, hlane] at hheld
      cases hheld
  | malformed publisherUuid sequence =>
      exact hrefused _ (changes_recordMalformedBuffer hholds hrecord _ _)
  | metadata publisherUuid sequence =>
      have hclaimOn : call.claimOn record bufferClass =
          some ⟨record, bufferClass, publisherUuid, sequence.val⟩ := by
        simp only [DataCall.claimOn, hlane]
      by_cases hpreadmitted : call.preadmitted = true
      · simp only [hpreadmitted, if_true]
        refine hgo fun held hheld => ?_
        rw [claim_of_preadmitted hpreadmitted (hat.facts.2.2 hpreadmitted) hlane, ← hclaimOn]
        exact hheld
      · simp only [hpreadmitted]
        cases hcalled : shared.admitBufferObservation
            (shared.lane record bufferClass publisherUuid) sequence with
        | mk next accepted =>
            obtain ⟨hchanges, -, hadmits⟩ :=
              admitBufferObservation_spec hholds hrecord publisherUuid sequence hcalled
            cases accepted with
            | false => exact hrefused next hchanges
            | true =>
                change Passes node steady Sent shared _ next
                  (.writing call record bufferClass relativeKey)
                have hadmits := hadmits rfl
                have hnext := hchanges.later.live record hlive
                have hfact := facts_later hat hchanges.later
                refine hchanges.passes (Quiet.refl next)
                  ((sameCounts_of_records rfl).balances rfl rfl) ⟨?_, ?_, ?_, hfact⟩ ?_
                · intro served asked hticket
                  exact hchanges.later.live served (hat.ticket served asked hticket)
                · intro served hserved
                  obtain rfl := Option.some.inj hserved
                  exact ⟨hnext, hchanges.later.begun record hlive hbegun⟩
                · intro held hheld
                  obtain rfl := Option.some.inj (hclaimOn.symm.trans hheld)
                  rw [Claim.lane, hchanges.later.lane hlive]
                  exact ⟨hadmits.admitted, hadmits.unapplied⟩
                · intro held hheld
                  obtain rfl := Option.some.inj (hclaimOn.symm.trans hheld)
                  exact .inr hadmits.fresh

/-! ## Writes -/

/-- A write whose read does not fail takes nothing away from the engine. -/
theorem applyDurableBufferWrite_keeps {store : Store} {application : Application}
    (hread : application.readEnd ≠ .failed) {key value : ByteString}
    (hvalue : store key = some value) :
    (applyDurableBufferWrite store application).1 key = some value :=
  kept_of_guarded (fun _ _ _ hfailed => absurd hfailed hread) hvalue

theorem applyDurableBufferWrite_stored {store : Store} {application : Application}
    (hstored : (applyDurableBufferWrite store application).2 = .stored) :
    (applyDurableBufferWrite store application).1 application.relativeKey =
      some application.payload := by
  obtain ⟨relativeKey, payload, readEnd, writeEnd⟩ := application
  cases readEnd with
  | threw => cases hstored
  | failed =>
      cases writeEnd with
      | done =>
          simp [applyDurableBufferWrite, readEntry, getDatabase, putDatabase, WriteEnd.effective]
      | failed effective => cases hstored
      | threw effective => cases hstored
  | served =>
      cases hfind : store relativeKey with
      | some found =>
          by_cases hsame : found = payload
          · simp [applyDurableBufferWrite, readEntry, getDatabase, hfind, hsame]
          · simp [applyDurableBufferWrite, readEntry, getDatabase, hfind, hsame] at hstored
      | none =>
          cases writeEnd with
          | done =>
              simp [applyDurableBufferWrite, readEntry, getDatabase, putDatabase, hfind,
                WriteEnd.effective]
          | failed effective =>
              simp [applyDurableBufferWrite, readEntry, getDatabase, putDatabase, hfind] at hstored
          | threw effective =>
              simp [applyDurableBufferWrite, readEntry, getDatabase, putDatabase, hfind] at hstored

/-- What a write leaves, and what it reports. -/
structure WritesTo (node : Node Fingerprint) (steady : Prop) (shared : Shared Fingerprint)
    (sample : TransportSample) (record : ℕ) (bufferClass : BufferClass)
    (written : Written Fingerprint) : Prop where
  shared : written.shared = shared ∨ ∃ engine kept : Engine,
    (shared.records record).engine = some engine ∧
      written.shared = shared.modify record (fun session => { session with engine := some kept }) ∧
      (steady → ∀ key value, engine.contents key = some value → kept.contents key = some value)
  failure : written.failure ≠ some .ok
  effective : written.failure = none →
    Effective node steady (written.shared.records record) bufferClass sample

theorem failureOf_ne (outcome : BufferWriteOutcome) : (failureOf outcome).1 ≠ some .ok := by
  cases outcome <;> decide

theorem stored_of_failureOf {outcome : BufferWriteOutcome} (hnone : (failureOf outcome).1 = none) :
    outcome = .stored := by
  cases outcome with
  | stored => rfl
  | conflict => cases hnone
  | readFailed => cases hnone
  | writeFailed => cases hnone

theorem writeData_spec (hsteady : steady → choice.readEnd ≠ .failed)
    (hdata : IsData node call.sample (shared.records record).sid bufferClass relativeKey) :
    WritesTo node steady shared call.sample record bufferClass
      (writeData shared choice call record bufferClass relativeKey) := by
  have hrefused : ∀ (status : Status) (started : Bool), status ≠ .ok →
      WritesTo node steady shared call.sample record bufferClass ⟨shared, some status, started⟩ :=
    fun status started hstatus => ⟨.inl rfl, fun hok => hstatus (Option.some.inj hok),
      fun hnone => by cases hnone⟩
  unfold writeData
  split
  · exact hrefused _ _ (by decide)
  cases bufferClass with
  | ephemeral =>
      simp only
      split
      · exact hrefused _ _ (by decide)
      · refine ⟨.inl rfl, fun hok => ?_, fun _ hclass => ?_⟩
        · cases hok
        · cases hclass
  | durable =>
      cases hengine : (shared.records record).engine with
      | none =>
          simp only [hengine]
          exact hrefused _ _ (by decide)
      | some engine =>
          simp only [hengine]
          split
          · exact hrefused _ _ (by decide)
          split
          · exact hrefused _ _ (by decide)
          split
          · exact hrefused _ _ (by decide)
          obtain ⟨parsed, hparsed, -, -, -, rfl⟩ := hdata
          generalize happlication : (⟨parsed.relativeKey, call.sample.payload, choice.readEnd,
            choice.writeEnd⟩ : Application) = application
          have hkey : application.relativeKey = parsed.relativeKey := by rw [← happlication]
          have hpayload : application.payload = call.sample.payload := by rw [← happlication]
          have hread : application.readEnd = choice.readEnd := by rw [← happlication]
          have hkeeps : steady → ∀ key value, engine.contents key = some value →
              (applyDurableBufferWrite engine.contents application).1 key = some value :=
            fun hholds key value hvalue =>
              applyDurableBufferWrite_keeps (hread ▸ hsteady hholds) hvalue
          refine ⟨.inr ⟨engine, _, hengine, rfl, hkeeps⟩, failureOf_ne _, fun hnone _ _ => ?_⟩
          have hstored := applyDurableBufferWrite_stored (stored_of_failureOf hnone)
          rw [hkey, hpayload] at hstored
          refine ⟨{ engine with
              contents := (applyDurableBufferWrite engine.contents application).1 },
            ?_, parsed, hparsed, hstored⟩
          rw [setEngine_self]

theorem WritesTo.changes {written : Written Fingerprint} {sample : TransportSample}
    (hwrites : WritesTo node steady shared sample record bufferClass written)
    (hholds : Holds node steady Sent shared) :
    Changes node steady Sent claim shared written.shared ∧
      written.shared.histories = shared.histories ∧ written.shared.applied = shared.applied := by
  rcases hwrites.shared with hsame | ⟨engine, kept, hengine, hset, hkept⟩
  · rw [hsame]
    exact ⟨Changes.refl hholds, rfl, rfl⟩
  · rw [hset]
    exact ⟨⟨hholds.setEngine hengine hkept, later_setEngine hengine hkept, adds_of_applied rfl,
      sameCounts_setEngine record _⟩, rfl, rfl⟩

theorem applyData_spec (hholds : Holds node steady Sent shared)
    (hsteady : steady → choice.readEnd ≠ .failed)
    (hat : At node steady Sent shared (.writing call record bufferClass relativeKey)) :
    Passes node steady Sent shared (.writing call record bufferClass relativeKey)
      (applyData shared choice call record bufferClass relativeKey).1
      (applyData shared choice call record bufferClass relativeKey).2 := by
  obtain ⟨hlive, hbegun⟩ := hat.lease record rfl
  obtain ⟨hfacts, hdata, hticketed⟩ := hat.facts
  have hwrites : WritesTo node steady shared call.sample record bufferClass
      (writeData shared choice call record bufferClass relativeKey) :=
    writeData_spec hsteady hdata
  obtain ⟨hchanges, hhistories, happlied⟩ :
      Changes node steady Sent (call.claimOn record bufferClass) shared _ ∧ _ :=
    hwrites.changes hholds
  unfold applyData
  generalize writeData shared choice call record bufferClass relativeKey = written at *
  have hticket : ∀ served asked, call.ticket = some (served, asked) →
      written.shared.IsLive served := fun served asked hsome =>
    hchanges.later.live served (hat.ticket served asked hsome)
  have hlease : ∀ served, some record = some served →
      written.shared.IsLive served ∧ (written.shared.records served).phase ≠ .creating := by
    intro served hserved
    obtain rfl := Option.some.inj hserved
    exact ⟨hchanges.later.live record hlive, hchanges.later.begun record hlive hbegun⟩
  have hclaims : ∀ held, call.claimOn record bufferClass = some held →
      held.sequence ∈ (written.shared.histories (held.lane written.shared)).admitted ∧
        held.sequence ∉ (written.shared.applied (held.lane written.shared)).map Prod.fst := by
    intro held hheld
    have hlane : held.lane written.shared = held.lane shared :=
      hchanges.later.lane (hat.live hheld) ..
    rw [hlane, hhistories, happlied]
    exact hat.claim held hheld
  have hdatafacts := hfacts.later hchanges.later hat.ticket
  simp only
  split
  · have hsame : ∀ held, call.claim = some held → call.claimOn record bufferClass = some held := by
      intro held hheld
      cases hpreadmitted : call.preadmitted with
      | false => simp [DataCall.claim, hpreadmitted] at hheld
      | true =>
          rw [← hheld]
          cases hlane : call.lane <;>
            simp only [DataCall.claim, DataCall.claimOn, hpreadmitted, hticketed hpreadmitted,
              hlane]
    exact hchanges.passes (Quiet.refl _) ((sameCounts_of_records rfl).balances rfl rfl)
      ⟨hticket, hlease, fun held hheld => hclaims held (hsame held hheld), hdatafacts⟩
      fun held hheld => .inl (hsame held hheld)
  · refine hchanges.passes (Quiet.refl _) ((sameCounts_of_records rfl).balances rfl rfl)
      ⟨hticket, hlease, hclaims, hdatafacts, ⟨relativeKey, ?_⟩, hwrites.failure,
        hwrites.effective⟩ fun held hheld => .inl hheld
    rwa [hchanges.later.sid record hlive]

theorem completeData_spec {failure : Option Status} (hholds : Holds node steady Sent shared)
    (hat : At node steady Sent shared (.completing call record bufferClass failure)) :
    Passes node steady Sent shared (.completing call record bufferClass failure)
      (completeData shared call record bufferClass failure).1
      (completeData shared call record bufferClass failure).2 := by
  obtain ⟨hlive, hbegun⟩ := hat.lease record rfl
  obtain ⟨hfacts, ⟨relativeKey, hdata⟩, hfailure, heffective⟩ := hat.facts
  have hrecord := hholds.allocated hlive
  have hdone : ∀ middle,
      Changes node steady Sent (call.claimOn record bufferClass) shared middle →
      Passes node steady Sent shared (.completing call record bufferClass failure)
        (finish (middle.release (some record)) call.ticket).1
        (finish (middle.release (some record)) call.ticket).2 :=
    fun middle hchanges => passes_finish hat hchanges rfl rfl
  unfold completeData
  cases hlane : call.lane with
  | absent => exact hdone _ (Changes.refl hholds)
  | malformed publisherUuid sequence => exact hdone _ (Changes.refl hholds)
  | metadata publisherUuid sequence =>
      have hclaim : call.claimOn record bufferClass =
          some ⟨record, bufferClass, publisherUuid, sequence.val⟩ := by
        simp only [DataCall.claimOn, hlane]
      obtain ⟨hadmitted, hnew⟩ := hat.claim _ hclaim
      cases failure with
      | some status =>
          have hstatus : status ≠ .ok := fun hok => hfailure (congrArg some hok)
          exact hdone _ (changes_completeBufferObservation hholds hrecord hadmitted hstatus)
      | none =>
          have hheard := heard_complete hholds.known
            (hholds.lane_isValid hrecord bufferClass publisherUuid) hadmitted none
          have hlater : Later steady shared _ := hheard.later
          have hcame : Came node Sent (shared.lane record bufferClass publisherUuid)
              (sequence.val, call.sample) := by
            obtain ⟨delivered, hsent, hsample, hobserved⟩ := hfacts.sent
            exact ⟨delivered, sequence, hsent, hsample, hobserved.trans hlane, rfl, relativeKey,
              hdata⟩
          have hnoted := hholds.noted rfl hlive hbegun hheard hadmitted hnew hcame (heffective rfl)
          refine hdone _ ⟨hnoted, ?_, fun lane => ?_, sameCounts_of_records hheard.records⟩
          · exact ⟨hlater.live, hlater.begun, hlater.sid, hlater.generation, hlater.admitted,
              hlater.keeps⟩
          · by_cases hsame : lane = shared.lane record bufferClass publisherUuid
            · refine .inr ⟨_, call.sample, hclaim, hsame, ?_⟩
              rw [hsame]
              simp [noteApplied, hheard.applied]
            · refine .inl ?_
              simp [noteApplied, hheard.applied, Function.update_of_ne hsame]

end Data

/-! ## ApplyAcknowledgedSample -/

section Acknowledged

variable [DecidableEq Fingerprint] {sample : TransportSample} {token : AckToken}
  {ticket : Option Ticket}

omit [DecidableEq Fingerprint] in
/-- Other acknowledgements are of no account to the lanes. -/
theorem changes_acks (hholds : Holds node steady Sent shared)
    (acks : AckRegistry AckToken Fingerprint) :
    Changes node steady Sent claim shared { shared with acks } :=
  (Quiet.flags ..).changes (sameCounts_of_records rfl) hholds

theorem claimParameter_spec (hholds : Holds node steady Sent shared)
    (hat : At node steady Sent shared (.acknowledging sample token ticket)) :
    Passes node steady Sent shared (.acknowledging sample token ticket)
      (claimParameter node shared choice sample token ticket).1
      (claimParameter node shared choice sample token ticket).2 := by
  have hticket : (Task.acknowledging sample token ticket).ticket = ticket := rfl
  unfold claimParameter
  simp only
  split
  · exact passes_on hholds hat (Quiet.flags ..) rfl rfl rfl (fun _ h => h) trivial
  · exact passes_finish hat (changes_acks hholds _) hticket rfl

omit [DecidableEq Fingerprint] in
theorem publishParameter_spec (hholds : Holds node steady Sent shared)
    (hat : At node steady Sent shared (.publishing sample token ticket)) :
    Passes node steady Sent shared (.publishing sample token ticket)
      (publishParameter node shared choice sample token ticket).1
      (publishParameter node shared choice sample token ticket).2 := by
  have hticket : (Task.publishing sample token ticket).ticket = ticket := rfl
  exact passes_finish hat (changes_acks hholds _) hticket rfl

end Acknowledged

end Sitos.BufferFence

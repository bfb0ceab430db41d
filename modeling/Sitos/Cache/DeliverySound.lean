import Sitos.Cache.Delivery
import Sitos.Fence.LaneJournal

/-!
# Soundness of local delivery

A callback that holds an admitted sequence alone may take it in.  The journal of
the lane is what has been applied and what waits for the drain; the lane's proof
and the journal together say what a successful wait means.

The lane's own operations keep this unless a completion is torn: left by an
exception after it has moved the watermark and before the failure is latched.
-/

namespace Sitos.Delivery

open Sitos.Bytes
open Sitos.AckResult
open Sitos.FenceWire
open Sitos.LaneHistory
open Sitos.LaneState
open Sitos.Machine
open Sitos.Mutations
open Sitos.Publisher
open Sitos.Sample
open Sitos.Tasks
open Sitos.Token

/-! ## Invariant -/

def journal (shared : Shared) : List Delivered := shared.applied ++ shared.held

def taken (shared : Shared) : List UInt64 := (journal shared).map Prod.fst

section Invariant

variable (attachment : Attachment)

/-- Everything that the submission with this sequence stands for. -/
def Whole (shared : Shared) (entry : Delivered) : Prop :=
  ∃ sample, shared.submitted[entry.1.toNat - 1]? = some sample ∧
    mutationsOf attachment sample = some entry.2

/-- The submissions `1 .. through` have been applied, whole and in order, before
anything else of the lane. -/
def Applied (shared : Shared) (through : UInt64) : Prop :=
  ∃ done rest, shared.applied = done ++ rest ∧
    done.map Prod.fst = sequencesThrough through ∧ ∀ entry ∈ done, Whole attachment shared entry

structure SharedInv (shared : Shared) : Prop where
  recorded : Recorded shared.receiver
  ordered : Journal shared.receiver (taken shared) shared.bufferedFenceObservations
  whole : ∀ entry ∈ journal shared,
    entry.1 ∈ successes shared.receiver ∨ entry.1 ∈ shared.bufferedFenceObservations →
      Whole attachment shared entry
  buffering : shared.phase = .buffering → successes shared.receiver = []
  drained : shared.phase ≠ .buffering →
    shared.held = [] ∧ shared.bufferedFenceObservations = []
  counts : shared.publisher.Counts shared.submitted.length
  honest : shared.publisher.Honest (Applied attachment shared)

/-- A sample of the lane decodes to what was submitted with its sequence. -/
def Genuine (shared : Shared) (sample : FenceSample) : Prop :=
  ∀ sequence mutations, ownSequence attachment sample.lane = some sequence →
    mutationsOf attachment sample.toTransportSample = some mutations →
      Whole attachment shared (sequence, mutations)

/-- The sequence that a task alone may take in. -/
def owner : Task → Option UInt64
  | .waitTurn sample false | .onSample sample true _ | .process sample true _ =>
      ownSequence attachment sample.lane
  | _ => none

def Holding (shared : Shared) (sample : FenceSample) : Prop :=
  ∀ sequence, ownSequence attachment sample.lane = some sequence →
    sequence ∈ shared.receiver.admitted ∧ sequence ∉ taken shared

/-- What a task relies on. -/
def At (shared : Shared) : Task → Prop
  | .dispatch sample | .waitTurn sample true | .onSample sample false _
  | .process sample false _ => Genuine attachment shared sample
  | .waitTurn sample false | .onSample sample true _ | .process sample true _ =>
      Genuine attachment shared sample ∧ Holding attachment shared sample
  | .complete _ result _ | .reserve _ result _ =>
      result.status = .ok → Applied attachment shared result.throughSequence
  | .wait handle covered => handle.throughSequence.toNat = covered
  | .delivered covered =>
      ∃ through : UInt64, through.toNat = covered ∧ Applied attachment shared through
  | _ => True

/-- Two tasks never hold the same sequence. -/
def Apart (first second : Task) : Prop :=
  ∀ sequence, owner attachment first = some sequence → owner attachment second ≠ some sequence

theorem Apart.symm {first second : Task} (hapart : Apart attachment first second) :
    Apart attachment second first :=
  fun sequence hsecond hfirst => hapart sequence hfirst hsecond

abbrev Inv : State → Prop := Invariant (SharedInv attachment) (At attachment) (Apart attachment)

end Invariant

/-! ## What a block leaves alone -/

/-- What every block of a task that holds `acting` guarantees to the others. -/
structure Frame (acting : Option UInt64) (before after : Shared) : Prop where
  admitted : ∀ sequence ∈ before.receiver.admitted, sequence ∈ after.receiver.admitted
  taken : ∀ sequence ∈ before.receiver.admitted, acting ≠ some sequence →
    sequence ∉ taken before → sequence ∉ taken after
  submitted : before.submitted <+: after.submitted
  applied : before.applied <+: after.applied

section Frame

variable {attachment : Attachment} {acting : Option UInt64} {before after : Shared}

theorem Frame.refl (shared : Shared) : Frame acting shared shared where
  admitted := fun _ h => h
  taken := fun _ _ _ h => h
  submitted := List.prefix_refl _
  applied := List.prefix_refl _

theorem Whole.mono {entry : Delivered} (hsubmitted : before.submitted <+: after.submitted)
    (hwhole : Whole attachment before entry) : Whole attachment after entry := by
  obtain ⟨sample, hsample, hmutations⟩ := hwhole
  obtain ⟨rest, hrest⟩ := hsubmitted
  refine ⟨sample, ?_, hmutations⟩
  rw [← hrest, List.getElem?_append_left]
  · exact hsample
  · exact (List.getElem?_eq_some_iff.mp hsample).1

theorem Applied.mono {through : UInt64} (hsubmitted : before.submitted <+: after.submitted)
    (happlied : before.applied <+: after.applied) (hdone : Applied attachment before through) :
    Applied attachment after through := by
  obtain ⟨done, rest, heq, hsequences, hwhole⟩ := hdone
  obtain ⟨more, hmore⟩ := happlied
  refine ⟨done, rest ++ more, ?_, hsequences, fun entry hentry =>
    (hwhole entry hentry).mono hsubmitted⟩
  rw [← hmore, heq, List.append_assoc]

variable (hframe : Frame acting before after)
include hframe

theorem Frame.genuine {sample : FenceSample} (hgenuine : Genuine attachment before sample) :
    Genuine attachment after sample :=
  fun sequence mutations hsequence hmutations =>
    (hgenuine sequence mutations hsequence hmutations).mono hframe.submitted

theorem Frame.holding {sample : FenceSample}
    (hother : ∀ sequence, ownSequence attachment sample.lane = some sequence →
      acting ≠ some sequence)
    (hholding : Holding attachment before sample) : Holding attachment after sample := by
  intro sequence hsequence
  obtain ⟨hadmitted, hnew⟩ := hholding sequence hsequence
  exact ⟨hframe.admitted sequence hadmitted,
    hframe.taken sequence hadmitted (hother sequence hsequence) hnew⟩

theorem Frame.done {through : UInt64} (hdone : Applied attachment before through) :
    Applied attachment after through :=
  hdone.mono hframe.submitted hframe.applied

/-- What a task relies on survives the blocks of the others. -/
theorem Frame.at_other {task : Task} (hat : At attachment before task)
    (hother : ∀ sequence, owner attachment task = some sequence → acting ≠ some sequence) :
    At attachment after task := by
  cases task with
  | dispatch sample => exact hframe.genuine hat
  | waitTurn sample marker =>
      cases marker with
      | true => exact hframe.genuine hat
      | false => exact ⟨hframe.genuine hat.1, hframe.holding hother hat.2⟩
  | onSample sample preadmitted ticketed =>
      cases preadmitted with
      | false => exact hframe.genuine hat
      | true => exact ⟨hframe.genuine hat.1, hframe.holding hother hat.2⟩
  | process sample preadmitted ticketed =>
      cases preadmitted with
      | false => exact hframe.genuine hat
      | true => exact ⟨hframe.genuine hat.1, hframe.holding hother hat.2⟩
  | complete token result ticketed => exact fun hok => hframe.done (hat hok)
  | reserve handle result ticketed => exact fun hok => hframe.done (hat hok)
  | wait handle covered => exact hat
  | delivered covered =>
      obtain ⟨through, hthrough, hdone⟩ := hat
      exact ⟨through, hthrough, hframe.done hdone⟩
  | _ => trivial

end Frame

/-! ## Moves -/

/-- A change of the shared state that keeps the invariant and disturbs nobody. -/
structure Move (attachment : Attachment) (acting : Option UInt64) (before after : Shared) :
    Prop where
  shared : SharedInv attachment after
  frame : Frame acting before after

section Moves

variable {attachment : Attachment} {acting : Option UInt64} {shared : Shared}
  (hinv : SharedInv attachment shared)
include hinv

theorem move_refl : Move attachment acting shared shared := ⟨hinv, Frame.refl shared⟩

/-- The publisher changes, and whatever the lane and the journal do not read. -/
theorem move_publisher {after : Shared}
    (hreceiver : after.receiver = shared.receiver) (hphase : after.phase = shared.phase)
    (happlied : after.applied = shared.applied) (hheld : after.held = shared.held)
    (hobservations : after.bufferedFenceObservations = shared.bufferedFenceObservations)
    (hsubmitted : after.submitted = shared.submitted)
    (hcounts : after.publisher.Counts shared.submitted.length)
    (hhonest : after.publisher.Honest (Applied attachment shared)) :
    Move attachment acting shared after := by
  have hjournal : journal after = journal shared := by
    rw [journal, happlied, hheld]
    rfl
  have htaken : taken after = taken shared := by
    rw [taken, hjournal]
    rfl
  have hwhole : ∀ entry, Whole attachment shared entry → Whole attachment after entry := by
    intro entry hentry
    apply hentry.mono
    rw [hsubmitted]
  refine ⟨⟨?_, ?_, ?_, ?_, ?_, ?_, ?_⟩, ⟨?_, ?_, ?_, ?_⟩⟩
  · rw [hreceiver]
    exact hinv.recorded
  · rw [hreceiver, htaken, hobservations]
    exact hinv.ordered
  · rw [hjournal, hreceiver, hobservations]
    exact fun entry hentry hdone => hwhole entry (hinv.whole entry hentry hdone)
  · rw [hphase, hreceiver]
    exact hinv.buffering
  · rw [hphase, hheld, hobservations]
    exact hinv.drained
  · rw [hsubmitted]
    exact hcounts
  · refine hhonest.mono fun through hdone => hdone.mono ?_ ?_
    · rw [hsubmitted]
    · rw [happlied]
  · rw [hreceiver]
    exact fun _ h => h
  · rw [htaken]
    exact fun _ _ _ h => h
  · rw [hsubmitted]
  · rw [happlied]

/-- Something changes that neither the lane nor the journal reads. -/
theorem move_same {after : Shared} (hreceiver : after.receiver = shared.receiver)
    (hphase : after.phase = shared.phase) (happlied : after.applied = shared.applied)
    (hheld : after.held = shared.held)
    (hobservations : after.bufferedFenceObservations = shared.bufferedFenceObservations)
    (hsubmitted : after.submitted = shared.submitted)
    (hpublisher : after.publisher = shared.publisher) : Move attachment acting shared after := by
  refine move_publisher hinv hreceiver hphase happlied hheld hobservations hsubmitted ?_ ?_
  · rw [hpublisher]
    exact hinv.counts
  · rw [hpublisher]
    exact hinv.honest

/-- A call of the lane that reports no success. -/
theorem move_tell {memory : Memory} {operation : Operation}
    (hform : WellFormed shared.receiver operation)
    (hwhole : ¬Torn memory shared.receiver.lane operation)
    (hsilent : reportsNoSuccess operation) :
    Move attachment acting shared (shared.tell memory operation) where
  shared :=
    { recorded := hinv.recorded.apply memory hform hwhole
      ordered := hinv.ordered.apply hsilent memory
      whole := by
        intro entry hentry hdone
        have hsame : successes (shared.tell memory operation).receiver =
            successes shared.receiver := successes_apply hsilent memory _
        rw [hsame] at hdone
        exact hinv.whole entry hentry hdone
      buffering := by
        intro hphase
        have hsame : successes (shared.tell memory operation).receiver =
            successes shared.receiver := successes_apply hsilent memory _
        rw [hsame]
        exact hinv.buffering hphase
      drained := hinv.drained
      counts := hinv.counts
      honest := hinv.honest }
  frame :=
    { Frame.refl shared with
      admitted := admitted_apply memory shared.receiver operation }

/-! ### Taking a sequence in -/

/-- A sequence joins the journal in front of the drain. -/
theorem move_hold {sequence : UInt64} {mutations buffered : List Mutation}
    (hphase : shared.phase = .buffering) (hadmitted : sequence ∈ shared.receiver.admitted)
    (hnew : sequence ∉ taken shared) :
    Move attachment (some sequence) shared
      { shared with
        buffered := buffered
        held := shared.held ++ [(sequence, mutations)] } := by
  have htaken : taken { shared with
      buffered := buffered
      held := shared.held ++ [(sequence, mutations)] } = taken shared ++ [sequence] := by
    simp [taken, journal]
  refine ⟨⟨hinv.recorded, ?_, ?_, hinv.buffering, fun h => absurd hphase h, hinv.counts,
    hinv.honest⟩, ⟨fun _ h => h, ?_, List.prefix_refl _, List.prefix_refl _⟩⟩
  · rw [htaken]
    exact hinv.ordered.take hadmitted hnew
  · intro entry hentry hdone
    have hentry' : entry ∈ journal shared ++ [(sequence, mutations)] := by
      simpa [journal] using hentry
    rcases List.mem_append.mp hentry' with hold | hlast
    · exact hinv.whole entry hold hdone
    · -- the new sequence has been reported to nobody
      obtain rfl := List.mem_singleton.mp hlast
      rcases hdone with hsuccess | hwaiting
      · exact absurd (hinv.ordered.mem_taken_of_mem_successes hsuccess) hnew
      · exact absurd (hinv.ordered.mem_taken_of_mem_waiting hwaiting) hnew
  · intro other _ hne hfresh
    rw [htaken]
    simp only [List.mem_append, List.mem_singleton, not_or]
    exact ⟨hfresh, fun hsame => hne (congrArg some hsame.symm)⟩

/-- It also waits for the drain to complete it. -/
theorem move_holdWaiting {sequence : UInt64} {mutations buffered : List Mutation}
    (hphase : shared.phase = .buffering) (hadmitted : sequence ∈ shared.receiver.admitted)
    (hnew : sequence ∉ taken shared) (hgenuine : Whole attachment shared (sequence, mutations)) :
    Move attachment (some sequence) shared
      { shared with
        buffered := buffered
        held := shared.held ++ [(sequence, mutations)]
        bufferedFenceObservations := shared.bufferedFenceObservations ++ [sequence] } := by
  have hhold : Move attachment (some sequence) shared
      { shared with
        buffered := buffered
        held := shared.held ++ [(sequence, mutations)] } :=
    move_hold hinv hphase hadmitted hnew
  have htaken : taken { shared with
      buffered := buffered
      held := shared.held ++ [(sequence, mutations)] } = taken shared ++ [sequence] := by
    simp [taken, journal]
  refine ⟨⟨hinv.recorded, ?_, ?_, hinv.buffering, fun h => absurd hphase h, hinv.counts,
    hinv.honest⟩, ⟨fun _ h => h, hhold.frame.taken, List.prefix_refl _, List.prefix_refl _⟩⟩
  · have hordered := hinv.ordered.takeWaiting hadmitted hnew
    rw [← htaken] at hordered
    exact hordered
  · intro entry hentry hdone
    have hentry' : entry ∈ journal shared ++ [(sequence, mutations)] := by
      simpa [journal] using hentry
    rcases List.mem_append.mp hentry' with hold | hlast
    · apply hinv.whole entry hold
      rcases hdone with hsuccess | hwaiting
      · exact Or.inl hsuccess
      · rcases List.mem_append.mp hwaiting with hbefore | hsame
        · exact Or.inr hbefore
        · rw [List.mem_singleton] at hsame
          exact absurd (hsame ▸ List.mem_map_of_mem hold) hnew
    · rw [List.mem_singleton.mp hlast]
      exact hgenuine

/-- A sequence joins the journal of a live cache. -/
theorem move_apply {sequence : UInt64} {mutations : List Mutation} {effective : ValueMap}
    (hphase : shared.phase ≠ .buffering) (hadmitted : sequence ∈ shared.receiver.admitted)
    (hnew : sequence ∉ taken shared) :
    Move attachment (some sequence) shared
      { shared with
        effectiveMap := effective
        applied := shared.applied ++ [(sequence, mutations)] } := by
  obtain ⟨hheld, -⟩ := hinv.drained hphase
  have hjournal : journal { shared with
      effectiveMap := effective
      applied := shared.applied ++ [(sequence, mutations)] } =
        journal shared ++ [(sequence, mutations)] := by
    simp [journal, hheld]
  have htaken : taken { shared with
      effectiveMap := effective
      applied := shared.applied ++ [(sequence, mutations)] } = taken shared ++ [sequence] := by
    rw [taken, hjournal, List.map_append]
    rfl
  refine ⟨⟨hinv.recorded, ?_, ?_, hinv.buffering, hinv.drained, hinv.counts, ?_⟩,
    ⟨fun _ h => h, ?_, List.prefix_refl _, List.prefix_append _ _⟩⟩
  · rw [htaken]
    exact hinv.ordered.take hadmitted hnew
  · rw [hjournal]
    intro entry hentry hdone
    rcases List.mem_append.mp hentry with hold | hlast
    · exact hinv.whole entry hold hdone
    · obtain rfl := List.mem_singleton.mp hlast
      rcases hdone with hsuccess | hwaiting
      · exact absurd (hinv.ordered.mem_taken_of_mem_successes hsuccess) hnew
      · exact absurd (hinv.ordered.mem_taken_of_mem_waiting hwaiting) hnew
  · refine hinv.honest.mono fun through hdone => hdone.mono ?_ ?_
    · exact List.prefix_refl _
    · exact List.prefix_append _ _
  · intro other _ hne hfresh
    rw [htaken]
    simp only [List.mem_append, List.mem_singleton, not_or]
    exact ⟨hfresh, fun hsame => hne (congrArg some hsame.symm)⟩

/-- Afterwards its completion is reported. -/
theorem move_applyAndComplete (memory : Memory) {sequence : UInt64} {mutations : List Mutation}
    {effective : ValueMap} (hphase : shared.phase ≠ .buffering)
    (hadmitted : sequence ∈ shared.receiver.admitted) (hnew : sequence ∉ taken shared)
    (hgenuine : Whole attachment shared (sequence, mutations)) :
    Move attachment (some sequence) shared
      (Shared.tell
        { shared with
          effectiveMap := effective
          applied := shared.applied ++ [(sequence, mutations)] } memory
        (.complete sequence none)) := by
  have happly : Move attachment (some sequence) shared
      { shared with
        effectiveMap := effective
        applied := shared.applied ++ [(sequence, mutations)] } :=
    move_apply hinv hphase hadmitted hnew
  obtain ⟨hheld, hobservations⟩ := hinv.drained hphase
  have hjournal : journal { shared with
      effectiveMap := effective
      applied := shared.applied ++ [(sequence, mutations)] } =
        journal shared ++ [(sequence, mutations)] := by
    simp [journal, hheld]
  have htaken : taken { shared with
      effectiveMap := effective
      applied := shared.applied ++ [(sequence, mutations)] } = taken shared ++ [sequence] := by
    rw [taken, hjournal, List.map_append]
    rfl
  refine ⟨⟨?_, ?_, ?_, fun h => absurd h hphase, hinv.drained, hinv.counts,
    happly.shared.honest⟩, ⟨?_, happly.frame.taken, List.prefix_refl _, List.prefix_append _ _⟩⟩
  · exact hinv.recorded.complete memory hadmitted none (not_torn_success memory _ sequence)
  · have hwaiting := hinv.ordered.takeWaiting hadmitted hnew
    rw [hobservations, List.nil_append, ← htaken] at hwaiting
    have hcompleted := hwaiting.complete memory
    rw [← hobservations] at hcompleted
    exact hcompleted
  · intro entry hentry hdone
    have hentry' : entry ∈ journal shared ++ [(sequence, mutations)] := hjournal ▸ hentry
    rcases List.mem_append.mp hentry' with hold | hlast
    · apply hinv.whole entry hold
      rcases hdone with hsuccess | hwaiting
      · left
        rcases successes_complete memory shared.receiver sequence with hsame | hmore
        · exact hsame ▸ hsuccess
        · have hsuccess' : entry.1 ∈ successes shared.receiver ++ [sequence] := hmore ▸ hsuccess
          rcases List.mem_append.mp hsuccess' with hbefore | hlast
          · exact hbefore
          · rw [List.mem_singleton] at hlast
            exact absurd (hlast ▸ List.mem_map_of_mem hold) hnew
      · exact Or.inr hwaiting
    · rw [List.mem_singleton.mp hlast]
      exact hgenuine
  · exact admitted_apply memory shared.receiver _

/-! ### The attaching thread -/

theorem move_drain (snapshot overlay : ValueMap) :
    Move attachment acting shared (drain shared snapshot overlay) := by
  obtain ⟨hrecorded, hordered, hkept, hsuccesses⟩ :=
    recorded_completeAll hinv.recorded hinv.ordered
  have hjournal : journal (drain shared snapshot overlay) = journal shared := by
    simp [journal, drain]
  have htaken : taken (drain shared snapshot overlay) = taken shared := by
    rw [taken, hjournal]
    rfl
  have hpre : shared.applied <+: (drain shared snapshot overlay).applied :=
    List.prefix_append _ _
  refine ⟨⟨hrecorded, ?_, ?_, (fun h => nomatch h), fun _ => ⟨rfl, rfl⟩, hinv.counts, ?_⟩,
    ⟨hkept, ?_, List.prefix_refl _, hpre⟩⟩
  · rw [htaken]
    exact hordered
  · rw [hjournal]
    intro entry hentry hdone
    rcases hdone with hsuccess | hwaiting
    · exact hinv.whole entry hentry (hsuccesses _ hsuccess)
    · exact nomatch hwaiting
  · refine hinv.honest.mono fun through hdone => hdone.mono ?_ hpre
    exact List.prefix_refl _
  · rw [htaken]
    exact fun _ _ _ h => h

/-- The cache stops, and a candidate also drops what it has buffered. -/
theorem move_stop {after : Shared} (hphase : after.phase = .stopping)
    (hreceiver : after.receiver = shared.receiver) (happlied : after.applied = shared.applied)
    (hsubmitted : after.submitted = shared.submitted)
    (hpublisher : after.publisher = shared.publisher) (hheld : after.held = [])
    (hobservations : after.bufferedFenceObservations = []) :
    Move attachment acting shared after := by
  have htaken : taken after = shared.applied.map Prod.fst := by
    rw [taken, journal, happlied, hheld, List.append_nil]
  have hbefore : taken shared = shared.applied.map Prod.fst ++ shared.held.map Prod.fst := by
    rw [taken, journal, List.map_append]
  have hsubset : ∀ sequence, sequence ∈ taken after → sequence ∈ taken shared := by
    intro sequence hmem
    rw [htaken] at hmem
    rw [hbefore]
    exact List.mem_append_left _ hmem
  have hordered : Journal shared.receiver (taken after) [] := by
    by_cases hbuffering : shared.phase = .buffering
    · refine ⟨?_, fun sequence hmem => hinv.ordered.admitted sequence (hsubset sequence hmem), ?_⟩
      · have hnodup := hinv.ordered.nodup
        rw [hbefore] at hnodup
        rw [htaken]
        exact hnodup.sublist (List.sublist_append_left _ _)
      · rw [hinv.buffering hbuffering]
        exact List.nil_sublist _
    · obtain ⟨hempty, -⟩ := hinv.drained hbuffering
      have hsame : taken after = taken shared := by
        rw [htaken, hbefore, hempty, List.map_nil, List.append_nil]
      rw [hsame]
      exact hinv.ordered.dropWaiting
  refine ⟨⟨?_, ?_, ?_, ?_, fun _ => ⟨hheld, hobservations⟩, ?_, ?_⟩, ⟨?_, ?_, ?_, ?_⟩⟩
  · rw [hreceiver]
    exact hinv.recorded
  · rw [hreceiver, hobservations]
    exact hordered
  · intro entry hentry hdone
    rw [hreceiver, hobservations] at hdone
    have hentry' : entry ∈ journal shared := by
      rw [journal, happlied, hheld, List.append_nil] at hentry
      exact List.mem_append_left _ hentry
    refine (hinv.whole entry hentry' ?_).mono ?_
    · rcases hdone with hsuccess | hwaiting
      · exact Or.inl hsuccess
      · exact nomatch hwaiting
    · rw [hsubmitted]
  · rw [hphase]
    exact fun h => nomatch h
  · rw [hpublisher, hsubmitted]
    exact hinv.counts
  · rw [hpublisher]
    refine hinv.honest.mono fun through hdone => hdone.mono ?_ ?_
    · rw [hsubmitted]
    · rw [happlied]
  · rw [hreceiver]
    exact fun _ h => h
  · exact fun sequence _ _ hfresh hmem => hfresh (hsubset sequence hmem)
  · rw [hsubmitted]
  · rw [happlied]

/-- A write gets a sequence and its sample is submitted. -/
theorem move_submit {publisher : FencePublisher} {sample : TransportSample}
    (hcounts : publisher.Counts (shared.submitted.length + 1))
    (hhonest : publisher.Honest (Applied attachment shared)) :
    Move attachment acting shared
      { shared with publisher, submitted := shared.submitted ++ [sample] } := by
  have hsubmitted : shared.submitted <+: shared.submitted ++ [sample] := List.prefix_append _ _
  refine ⟨⟨hinv.recorded, hinv.ordered, ?_, hinv.buffering, hinv.drained, ?_, ?_⟩,
    ⟨fun _ h => h, fun _ _ _ h => h, hsubmitted, List.prefix_refl _⟩⟩
  · intro entry hentry hdone
    exact (hinv.whole entry hentry hdone).mono hsubmitted
  · rw [List.length_append, List.length_singleton]
    exact hcounts
  · refine hhonest.mono fun through hdone => hdone.mono hsubmitted ?_
    exact List.prefix_refl _

end Moves

theorem Move.trans {attachment : Attachment} {acting other : Option UInt64}
    {first second third : Shared} (hleft : Move attachment acting first second)
    (hright : Move attachment other second third)
    (hother : ∀ sequence ∈ first.receiver.admitted, other = some sequence →
      acting = some sequence) : Move attachment acting first third where
  shared := hright.shared
  frame :=
    { admitted := fun sequence hmem =>
        hright.frame.admitted sequence (hleft.frame.admitted sequence hmem)
      taken := by
        intro sequence hmem hacting hfresh
        apply hright.frame.taken sequence (hleft.frame.admitted sequence hmem)
        · exact fun hsame => hacting (hother sequence hmem hsame)
        · exact hleft.frame.taken sequence hmem hacting hfresh
      submitted := hleft.frame.submitted.trans hright.frame.submitted
      applied := hleft.frame.applied.trans hright.frame.applied }

/-! ## Blocks -/

/-- What a block does for its own task. -/
structure Makes (attachment : Attachment) (shared : Shared) (task : Task)
    (result : Shared × Task) : Prop where
  move : Move attachment (owner attachment task) shared result.1
  next : At attachment result.1 result.2
  owns : ∀ sequence, owner attachment result.2 = some sequence →
    owner attachment task = some sequence ∨ sequence ∉ shared.receiver.admitted

/-! ## Torn completions -/

/-- The block completes a sample that does not decode, and the call leaves by
exception after it has moved the watermark. -/
def TearsProcess (attachment : Attachment) (shared : Shared) (sample : FenceSample)
    (preadmitted : Bool) (choice : Choice) : Prop :=
  mutationsOf attachment sample.toTransportSample = none ∧
    ∃ sequence, ownSequence attachment sample.lane = some sequence ∧
      if preadmitted then
        Torn choice.memory shared.receiver.lane (.complete sequence (some .error))
      else
        shared.admits choice.memory sequence = some true ∧
          Torn choice.memory (shared.tell choice.memory (.admitSequence sequence)).receiver.lane
            (.complete sequence (some .error))

instance (attachment : Attachment) (shared : Shared) (sample : FenceSample)
    (preadmitted : Bool) (choice : Choice) :
    Decidable (TearsProcess attachment shared sample preadmitted choice) :=
  match hsequence : ownSequence attachment sample.lane with
  | none => .isFalse fun ⟨_, sequence, hown, _⟩ => nomatch hsequence.symm.trans hown
  | some sequence =>
      decidable_of_iff
        (mutationsOf attachment sample.toTransportSample = none ∧
          if preadmitted then
            Torn choice.memory shared.receiver.lane (.complete sequence (some .error))
          else
            shared.admits choice.memory sequence = some true ∧
              Torn choice.memory
                (shared.tell choice.memory (.admitSequence sequence)).receiver.lane
                (.complete sequence (some .error)))
        (by simp [TearsProcess, hsequence])

/-- The step tears a completion. -/
def Tears (attachment : Attachment) (state : State) : Action → Prop
  | .advance task choice =>
      match state.tasks task with
      | .process sample preadmitted _ =>
          TearsProcess attachment state.shared sample preadmitted choice
      | _ => False
  | _ => False

instance (attachment : Attachment) (state : State) (action : Action) :
    Decidable (Tears attachment state action) := by
  unfold Tears
  split
  · split <;> infer_instance
  · infer_instance

section Blocks

variable {attachment : Attachment} {shared : Shared} (hinv : SharedInv attachment shared)

theorem owned {task : Task} {sequence : UInt64} (hat : At attachment shared task)
    (howner : owner attachment task = some sequence) :
    sequence ∈ shared.receiver.admitted := by
  cases task with
  | waitTurn sample marker =>
      cases marker with
      | true => exact nomatch howner
      | false => exact (hat.2 sequence howner).1
  | onSample sample preadmitted ticketed =>
      cases preadmitted with
      | false => exact nomatch howner
      | true => exact (hat.2 sequence howner).1
  | process sample preadmitted ticketed =>
      cases preadmitted with
      | false => exact nomatch howner
      | true => exact (hat.2 sequence howner).1
  | _ => exact nomatch howner

/-- A task that goes on without a sequence. -/
theorem makes_of {task : Task} {result : Shared × Task}
    (hmove : Move attachment (owner attachment task) shared result.1)
    (hnext : At attachment result.1 result.2) (howner : owner attachment result.2 = none) :
    Makes attachment shared task result :=
  ⟨hmove, hnext, fun _ h => nomatch howner.symm.trans h⟩

theorem reached_of_isNone {mutations : List Mutation} {choice : Choice}
    (hstops : ¬choice.stops.isSome) : reached mutations choice = mutations := by
  have hnone : choice.stops = none := by simpa using hstops
  rw [reached, hnone]
  rfl

theorem wellFormed_malformedOperation (sequence : Option Sequence) :
    WellFormed shared.receiver (malformedOperation sequence) := by
  cases sequence with
  | none => exact fun h => nomatch h
  | some sequence => exact fun h => sequence.2 (Option.some.inj h)

include hinv

/-- The lane is told something other than a success. -/
theorem makes_tellThen {task returned threw : Task} {choice : Choice} {operation : Operation}
    (hform : WellFormed shared.receiver operation)
    (hwhole : ¬Torn choice.memory shared.receiver.lane operation)
    (hsilent : reportsNoSuccess operation)
    (hreturned : ∀ after, At attachment after returned) (hthrew : ∀ after, At attachment after threw)
    (hreturned' : owner attachment returned = none) (hthrew' : owner attachment threw = none) :
    Makes attachment shared task (tellThen shared choice operation returned threw) := by
  have hmove : Move attachment (owner attachment task) shared
      (shared.tell choice.memory operation) := move_tell hinv hform hwhole hsilent
  unfold tellThen
  split_ifs
  · exact makes_of hmove (hreturned _) hreturned'
  · exact makes_of hmove (hthrew _) hthrew'

/-- What the answer to a marker through `through` vouches for. -/
theorem applied_of_ok {through : UInt64} {durability : AckDurability}
    (hok : (evaluate shared.receiver.lane through durability).status = .ok) :
    Applied attachment shared through := by
  obtain ⟨-, hcovered⟩ := (evaluate_ok_iff hinv.recorded through durability).mp hok
  obtain ⟨htaken, -⟩ := hinv.ordered.eq_of_covered hcovered
  have hsuccesses := successes_of_covered hcovered
  have hheld : shared.held = [] := by
    by_cases hphase : shared.phase = .buffering
    · -- nothing is completed before the drain, so nothing has been taken in
      rw [← hsuccesses, hinv.buffering hphase, taken, List.map_eq_nil_iff] at htaken
      exact (List.append_eq_nil_iff.mp htaken).2
    · exact (hinv.drained hphase).1
  have hjournal : journal shared = shared.applied := by
    rw [journal, hheld, List.append_nil]
  refine ⟨shared.applied, [], (List.append_nil _).symm, ?_, ?_⟩
  · rw [← htaken, taken, hjournal]
  · intro entry hentry
    rw [← hjournal] at hentry
    apply hinv.whole entry hentry
    left
    rw [hsuccesses, ← htaken]
    exact List.mem_map_of_mem hentry

theorem makes_stay {task next : Task} (hnext : At attachment shared next)
    (howner : owner attachment next = none) : Makes attachment shared task (shared, next) :=
  makes_of (move_refl hinv) hnext howner

/-! ### Dispatch -/

theorem makes_enterMarker {task : ℕ} {sample : FenceSample} (choice : Choice)
    (hat : At attachment shared (.dispatch sample)) :
    Makes attachment shared (.dispatch sample) (enter shared task sample true choice) := by
  unfold enter
  split
  · exact makes_of (move_same hinv rfl rfl rfl rfl rfl rfl rfl) hat rfl
  · exact makes_stay hinv trivial rfl
  · exact makes_stay hinv trivial rfl

theorem makes_dispatchOwn {task : ℕ} {sample : FenceSample} (choice : Choice) {lane : OwnLane}
    (hlane : ownLane attachment sample.lane = some lane)
    (hat : At attachment shared (.dispatch sample)) :
    Makes attachment shared (.dispatch sample) (dispatchOwn shared task sample choice lane) := by
  cases lane with
  | malformed sequence =>
      exact makes_tellThen hinv (wellFormed_malformedOperation sequence) (fun h => h) trivial
        (fun _ => trivial) (fun _ => trivial) rfl rfl
  | sequence sequence =>
      simp only [dispatchOwn]
      split_ifs
      · exact makes_tellThen hinv sequence.2 (fun h => h) trivial (fun _ => trivial)
          (fun _ => trivial) rfl rfl
      · have hprepare : Move attachment none shared
            (shared.tell choice.memory (.admitSequence sequence)) :=
          move_tell hinv sequence.2 (fun h => h) trivial
        split
        · exact makes_of hprepare trivial rfl
        · exact makes_of hprepare trivial rfl
        · rename_i haccepted
          obtain ⟨hnew, hadmitted⟩ := not_mem_admitted hinv.recorded haccepted
          unfold enter
          split
          · -- the task now holds the sequence that it has just had admitted
            have hown : ownSequence attachment sample.lane = some sequence.1 := by
              simp [ownSequence, hlane]
            refine ⟨hprepare.trans (move_same hprepare.shared rfl rfl rfl rfl rfl rfl rfl)
              fun _ _ h => h, ⟨hprepare.frame.genuine hat, ?_⟩, ?_⟩
            · intro other hother
              obtain rfl := Option.some.inj (hown.symm.trans hother)
              exact ⟨hadmitted, fun htaken => hnew (hinv.ordered.admitted _ htaken)⟩
            · intro other hother
              obtain rfl := Option.some.inj (hown.symm.trans hother)
              exact Or.inr hnew
          · exact makes_of hprepare trivial rfl
          · exact makes_of hprepare trivial rfl

theorem makes_dispatchSample {task : ℕ} {sample : FenceSample} (choice : Choice)
    (hat : At attachment shared (.dispatch sample)) :
    Makes attachment shared (.dispatch sample)
      (dispatchSample attachment shared task sample choice) := by
  have hdirect : Makes attachment shared (.dispatch sample)
      (shared, .onSample sample false false) := makes_stay hinv hat rfl
  unfold dispatchSample
  split
  · exact makes_stay hinv trivial rfl
  · split
    · split_ifs
      · exact hdirect
      · exact makes_stay hinv trivial rfl
      · exact makes_enterMarker hinv choice hat
    · split
      · exact hdirect
      · rename_i lane hparticipating
        have hlane : ownLane attachment sample.lane = some lane := by
          unfold participatingLane at hparticipating
          split_ifs at hparticipating
          exact hparticipating
        split_ifs
        · exact hdirect
        · exact makes_stay hinv trivial rfl
        · exact makes_dispatchOwn hinv choice hlane hat

/-! ### OnSample -/

theorem makes_onSample {sample : FenceSample} {preadmitted ticketed : Bool} (choice : Choice)
    (hat : At attachment shared (.onSample sample preadmitted ticketed)) :
    Makes attachment shared (.onSample sample preadmitted ticketed)
      (onSample attachment shared sample preadmitted ticketed choice) := by
  unfold onSample
  split
  · exact makes_stay hinv trivial rfl
  · split
    · exact makes_stay hinv trivial rfl
    · split
      · split
        · exact makes_stay hinv trivial rfl
        · split
          · exact makes_stay hinv trivial rfl
          · split
            · exact makes_stay hinv trivial rfl
            · exact makes_stay hinv (fun hok => nomatch hok) rfl
      · cases preadmitted with
        | false => exact makes_stay hinv hat rfl
        | true => exact ⟨move_refl hinv, hat, fun _ h => Or.inl h⟩

/-- Mutations of no lane only change the maps. -/
theorem makes_takeIn_bypass {task : Task} (sample : FenceSample) (mutations : List Mutation)
    (ticketed : Bool) (choice : Choice) :
    Makes attachment shared task (takeIn shared sample none mutations ticketed choice) := by
  simp only [takeIn, noteFor, Option.toList_none, List.map_nil, List.append_nil]
  split
  · split
    · exact makes_of (move_same hinv rfl rfl rfl rfl rfl rfl rfl) trivial rfl
    · exact makes_of (move_same hinv rfl rfl rfl rfl rfl rfl rfl) trivial rfl
  · split
    · exact makes_of (move_same hinv rfl rfl rfl rfl rfl rfl rfl) trivial rfl
    · exact makes_of (move_same hinv rfl rfl rfl rfl rfl rfl rfl) trivial rfl
  · exact makes_stay hinv trivial rfl

/-- A sequence that nobody else holds is taken in. -/
theorem move_takeIn {sequence : UInt64} (sample : FenceSample) {mutations : List Mutation}
    (ticketed : Bool) (choice : Choice) (hadmitted : sequence ∈ shared.receiver.admitted)
    (hnew : sequence ∉ taken shared) (hgenuine : Whole attachment shared (sequence, mutations)) :
    Move attachment (some sequence) shared
        (takeIn shared sample (some sequence) mutations ticketed choice).1 ∧
      (∀ after, At attachment after
        (takeIn shared sample (some sequence) mutations ticketed choice).2) ∧
      owner attachment (takeIn shared sample (some sequence) mutations ticketed choice).2 =
        none := by
  simp only [takeIn, noteFor, Option.toList_some, List.map_cons, List.map_nil]
  split
  · rename_i hphase
    split
    · exact ⟨move_hold hinv hphase hadmitted hnew, fun _ => trivial, rfl⟩
    · rename_i hstops
      rw [reached_of_isNone hstops]
      exact ⟨move_holdWaiting hinv hphase hadmitted hnew hgenuine, fun _ => trivial, rfl⟩
  · rename_i hphase
    have hlive : shared.phase ≠ .buffering := by
      rw [hphase]
      decide
    split
    · exact ⟨move_apply hinv hlive hadmitted hnew, fun _ => trivial, rfl⟩
    · rename_i hstops
      rw [reached_of_isNone hstops]
      refine ⟨move_applyAndComplete hinv choice.memory hlive hadmitted hnew hgenuine, ?_, ?_⟩
      · intro after
        simp only [tellThen]
        split <;> trivial
      · simp only [tellThen]
        split <;> rfl
  · exact ⟨move_refl hinv, fun _ => trivial, rfl⟩

theorem makes_process_preadmitted {sample : FenceSample} {ticketed : Bool} (choice : Choice)
    (hat : At attachment shared (.process sample true ticketed))
    (hwhole : ¬TearsProcess attachment shared sample true choice) :
    Makes attachment shared (.process sample true ticketed)
      (process attachment shared sample true ticketed choice) := by
  obtain ⟨hgenuine, hholding⟩ := hat
  simp only [process]
  cases hmutations : mutationsOf attachment sample.toTransportSample with
  | none =>
      simp only
      split
      · exact makes_stay hinv trivial rfl
      · rename_i sequence hsequence
        refine makes_tellThen hinv (hholding sequence hsequence).1 (fun htorn => hwhole ?_)
          (by simp [reportsNoSuccess, Succeeded]) (fun _ => trivial) (fun _ => trivial) rfl rfl
        exact ⟨hmutations, sequence, hsequence, htorn⟩
  | some mutations =>
      simp only
      cases hsequence : ownSequence attachment sample.lane with
      | none => exact makes_takeIn_bypass hinv sample mutations ticketed choice
      | some sequence =>
          obtain ⟨hadmitted, hnew⟩ := hholding sequence hsequence
          obtain ⟨hmove, hnext, hnone⟩ := move_takeIn hinv sample ticketed choice hadmitted hnew
            (hgenuine sequence mutations hsequence hmutations)
          have howner : owner attachment (.process sample true ticketed) = some sequence :=
            hsequence
          refine makes_of ?_ (hnext _) hnone
          rw [howner]
          exact hmove

theorem makes_process_direct {sample : FenceSample} {ticketed : Bool} (choice : Choice)
    (hgenuine : Genuine attachment shared sample)
    (hwhole : ¬TearsProcess attachment shared sample false choice) :
    Makes attachment shared (.process sample false ticketed)
      (process attachment shared sample false ticketed choice) := by
  simp only [process, admitFenceObservation]
  cases hlane : ownLane attachment sample.lane with
  | none =>
      simp only
      cases hmutations : mutationsOf attachment sample.toTransportSample with
      | none => exact makes_stay hinv trivial rfl
      | some mutations => exact makes_takeIn_bypass hinv sample mutations ticketed choice
  | some lane =>
      cases lane with
      | malformed sequence =>
          have hmove : Move attachment none shared
              (shared.tell choice.memory (malformedOperation sequence)) :=
            move_tell hinv (wellFormed_malformedOperation sequence) (fun h => h) trivial
          simp only
          split_ifs
          · exact makes_of hmove trivial rfl
          · exact makes_of hmove trivial rfl
      | sequence sequence =>
          have hown : ownSequence attachment sample.lane = some sequence.1 := by
            simp [ownSequence, hlane]
          have hadmission : Move attachment none shared
              (shared.tell choice.memory (.admitSequence sequence)) :=
            move_tell hinv sequence.2 (fun h => h) trivial
          simp only [hown]
          cases haccepted : shared.admits choice.memory sequence with
          | none => exact makes_of hadmission trivial rfl
          | some accepted =>
              cases accepted with
              | false => exact makes_of hadmission trivial rfl
              | true =>
                  obtain ⟨hfresh, hadmitted⟩ := not_mem_admitted hinv.recorded haccepted
                  have hnew : sequence.1 ∉
                      taken (shared.tell choice.memory (.admitSequence sequence)) :=
                    fun htaken => hfresh (hinv.ordered.admitted _ htaken)
                  cases hmutations : mutationsOf attachment sample.toTransportSample with
                  | none =>
                      have hmove : Move attachment none shared
                          ((shared.tell choice.memory (.admitSequence sequence)).tell
                            choice.memory (.complete sequence (some .error))) := by
                        refine hadmission.trans (move_tell hadmission.shared hadmitted
                          (fun htorn => hwhole ?_) (by simp [reportsNoSuccess, Succeeded]))
                          (fun _ _ h => h)
                        exact ⟨hmutations, sequence, hown, haccepted, htorn⟩
                      simp only [Option.isSome_none, Bool.false_eq_true, if_false]
                      split_ifs
                      · exact makes_of hmove trivial rfl
                      · exact makes_of hmove trivial rfl
                  | some mutations =>
                      obtain ⟨hmove, hnext, hnone⟩ := move_takeIn hadmission.shared sample ticketed
                        choice hadmitted hnew
                        (hadmission.frame.genuine hgenuine sequence mutations hown hmutations)
                      refine makes_of (hadmission.trans hmove ?_) (hnext _) hnone
                      intro other hother hsame
                      obtain rfl := Option.some.inj hsame
                      exact absurd hother hfresh

/-! ### Markers and failures -/

omit hinv in
theorem evaluate_throughSequence (lane : FenceLaneState) (through : UInt64)
    (durability : AckDurability) : (evaluate lane through durability).throughSequence = through := by
  have hwatermarks : (evaluateWatermarks lane
      (fenceResult .ok durability through)).throughSequence = through := by
    simp only [evaluateWatermarks]
    split_ifs <;> rfl
  unfold evaluate
  split
  · exact hwatermarks
  · simp only
    split_ifs
    · rfl
    · rfl
    · exact hwatermarks

theorem makes_evaluateMarker {sample : FenceSample} {token : AckToken} {through : UInt64}
    {ticketed : Bool} (choice : Choice) :
    Makes attachment shared (.evaluate sample token through ticketed)
      (evaluateMarker shared sample token through ticketed choice) := by
  unfold evaluateMarker
  split_ifs
  · exact makes_stay hinv trivial rfl
  · refine makes_stay hinv (fun hok => ?_) rfl
    rw [evaluate_throughSequence]
    exact applied_of_ok hinv hok

theorem makes_completeFence {token : AckToken} {result : AckResultV1} {ticketed : Bool}
    (hat : At attachment shared (.complete token result ticketed)) :
    Makes attachment shared (.complete token result ticketed)
      (completeFence shared token result ticketed) := by
  unfold completeFence
  split
  · exact makes_stay hinv trivial rfl
  · split_ifs
    · exact makes_stay hinv hat rfl
    · exact makes_stay hinv trivial rfl

theorem makes_reserveWaiter {handle : FenceHandle} {result : AckResultV1} {ticketed : Bool}
    (choice : Choice) (hat : At attachment shared (.reserve handle result ticketed)) :
    Makes attachment shared (.reserve handle result ticketed)
      (reserveWaiter shared handle result ticketed choice) := by
  unfold reserveWaiter
  split
  · exact makes_stay hinv trivial rfl
  · rename_i publisher hreserve
    exact makes_of (move_publisher hinv rfl rfl rfl rfl rfl rfl (hinv.counts.reserve hreserve)
      (hinv.honest.reserve hat hreserve)) trivial rfl

theorem makes_publishWaiter {handle : FenceHandle} {ticketed : Bool} (choice : Choice) :
    Makes attachment shared (.publish handle ticketed)
      (publishWaiter shared handle ticketed choice) := by
  have hmove : Move attachment none shared
      { shared with publisher := shared.publisher.publish handle choice.mismatch } :=
    move_publisher hinv rfl rfl rfl rfl rfl rfl (hinv.counts.publish handle _)
      (hinv.honest.publish handle _)
  unfold publishWaiter
  split_ifs
  · exact makes_of hmove trivial rfl
  · exact makes_of hmove trivial rfl

theorem makes_settleFence {handle : FenceHandle} {mismatch ticketed : Bool} :
    Makes attachment shared (.settle handle mismatch ticketed)
      (settleFence shared handle mismatch ticketed) := by
  have hcounts := hinv.counts.resetPending handle.token
  have hhonest := hinv.honest.resetPending handle.token
  unfold settleFence
  split_ifs
  · exact makes_of (move_publisher hinv rfl rfl rfl rfl rfl rfl (hcounts.of_same rfl rfl) hhonest)
      trivial rfl
  · exact makes_of (move_publisher hinv rfl rfl rfl rfl rfl rfl hcounts hhonest) trivial rfl

theorem move_releaseEntry {acting : Option UInt64} (task : ℕ) (ticketed : Bool) :
    Move attachment acting shared (releaseEntry shared task ticketed) := by
  unfold releaseEntry
  split_ifs
  · exact move_same hinv rfl rfl rfl rfl rfl rfl rfl
  · exact move_refl hinv

theorem makes_retainFailure {sample : FenceSample} {admitted started : Bool} (choice : Choice) :
    Makes attachment shared (.retainFailure sample admitted started)
      (retainCacheDispatchFailure attachment shared sample admitted started choice) := by
  unfold retainCacheDispatchFailure
  split
  · exact makes_stay hinv trivial rfl
  · rename_i lane _
    split
    · exact makes_stay hinv trivial rfl
    · split
      · exact makes_stay hinv trivial rfl
      · cases lane with
        | malformed sequence =>
            exact makes_tellThen hinv (wellFormed_malformedOperation sequence) (fun h => h)
              trivial (fun _ => trivial) (fun _ => trivial) rfl rfl
        | sequence sequence =>
            simp only
            split_ifs
            · exact makes_tellThen hinv ⟨sequence.2, by decide⟩ (fun h => h) trivial
                (fun _ => trivial) (fun _ => trivial) rfl rfl
            · exact makes_tellThen hinv ⟨sequence.2, by decide⟩ (fun h => h) trivial
                (fun _ => trivial) (fun _ => trivial) rfl rfl
            · exact makes_tellThen hinv sequence.2 (fun h => h) trivial (fun _ => trivial)
                (fun _ => trivial) rfl rfl

/-- A successful answer is the result of this very wait. -/
theorem makes_waitFence {handle : FenceHandle} {covered : ℕ} {choice : Choice}
    {result : Shared × Task} (hat : At attachment shared (.wait handle covered))
    (hwait : waitFence shared handle covered choice = some result) :
    Makes attachment shared (.wait handle covered) result := by
  unfold waitFence at hwait
  split_ifs at hwait
  · obtain rfl := Option.some.inj hwait
    exact makes_stay hinv trivial rfl
  · obtain ⟨⟨publisher, observed⟩, hended, rfl⟩ := Option.map_eq_some_iff.mp hwait
    obtain ⟨hhonest, hobserved⟩ := hinv.honest.wait hended
    have hmove : Move attachment none shared { shared with publisher } :=
      move_publisher hinv rfl rfl rfl rfl rfl rfl (hinv.counts.wait hended) hhonest
    simp only [answer]
    split
    · exact makes_of hmove trivial rfl
    · rename_i observed
      split
      · exact makes_of hmove trivial rfl
      · rename_i hshape
        split
        · rename_i hok
          have hthrough : observed.throughSequence = handle.throughSequence := by
            simpa using (not_or.mp (not_or.mp hshape).2).2
          refine makes_of hmove ⟨handle.throughSequence, hat, ?_⟩ rfl
          rw [← hthrough]
          exact hobserved observed rfl hok
        · exact makes_of hmove trivial rfl

/-- Every block that tears no completion keeps the invariant for its own task. -/
theorem makes_block {task : ℕ} {current : Task} {choice : Choice} {result : Shared × Task}
    (hat : At attachment shared current)
    (hwhole : ∀ sample preadmitted ticketed, current = .process sample preadmitted ticketed →
      ¬TearsProcess attachment shared sample preadmitted choice)
    (hblock : block attachment shared task choice current = some result) :
    Makes attachment shared current result := by
  cases current with
  | idle => exact nomatch hblock
  | delivered covered => exact nomatch hblock
  | dispatch sample =>
      obtain rfl := Option.some.inj hblock
      exact makes_dispatchSample hinv choice hat
  | waitTurn sample marker =>
      simp only [block] at hblock
      split_ifs at hblock
      obtain rfl := Option.some.inj hblock
      cases marker with
      | true => exact makes_stay hinv hat rfl
      | false => exact ⟨move_refl hinv, hat, fun _ h => Or.inl h⟩
  | onSample sample preadmitted ticketed =>
      obtain rfl := Option.some.inj hblock
      exact makes_onSample hinv choice hat
  | process sample preadmitted ticketed =>
      obtain rfl := Option.some.inj hblock
      cases preadmitted with
      | true => exact makes_process_preadmitted hinv choice hat (hwhole _ _ _ rfl)
      | false => exact makes_process_direct hinv choice hat (hwhole _ _ _ rfl)
  | evaluate sample token through ticketed =>
      obtain rfl := Option.some.inj hblock
      exact makes_evaluateMarker hinv choice
  | complete token result ticketed =>
      obtain rfl := Option.some.inj hblock
      exact makes_completeFence hinv hat
  | reserve handle result ticketed =>
      obtain rfl := Option.some.inj hblock
      exact makes_reserveWaiter hinv choice hat
  | publish handle ticketed =>
      obtain rfl := Option.some.inj hblock
      exact makes_publishWaiter hinv choice
  | settle handle mismatch ticketed =>
      obtain rfl := Option.some.inj hblock
      exact makes_settleFence hinv
  | release ticketed =>
      obtain rfl := Option.some.inj hblock
      exact makes_of (move_releaseEntry hinv task ticketed) trivial rfl
  | unwind sample ticketed started =>
      obtain rfl := Option.some.inj hblock
      exact makes_of (move_releaseEntry hinv task ticketed) trivial rfl
  | retainFailure sample admitted started =>
      obtain rfl := Option.some.inj hblock
      exact makes_retainFailure hinv choice
  | closeRegistration =>
      obtain rfl := Option.some.inj hblock
      exact makes_of (move_same hinv rfl rfl rfl rfl rfl rfl rfl) trivial rfl
  | applyLocally mutations =>
      simp only [block] at hblock
      split_ifs at hblock
      · obtain rfl := Option.some.inj hblock
        exact makes_stay hinv trivial rfl
      · obtain rfl := Option.some.inj hblock
        exact makes_of (move_same hinv rfl rfl rfl rfl rfl rfl rfl) trivial rfl
  | wait handle covered => exact makes_waitFence hinv hat hblock

end Blocks

/-! ## Runs -/

section Runs

variable {attachment : Attachment}

theorem Makes.undisturbed {shared : Shared} {task : Task} {result : Shared × Task}
    (hmakes : Makes attachment shared task result) :
    Undisturbed (At attachment) (Apart attachment) shared task result.1 result.2 := by
  intro other hat hapart
  constructor
  · apply hmakes.move.frame.at_other hat
    intro sequence hother htask
    exact hapart sequence htask hother
  · intro sequence hnext hother
    rcases hmakes.owns sequence hnext with htask | hfresh
    · exact hapart sequence htask hother
    · exact hfresh (owned hat hother)

theorem Inv.replace {state : State} (hinv : Inv attachment state) {task : ℕ}
    {result : Shared × Task}
    (hmakes : Makes attachment state.shared (state.tasks task) result) :
    Inv attachment (state.replace task result.1 result.2) :=
  Invariant.replace (fun _ _ => Apart.symm attachment) hinv hmakes.move.shared hmakes.next
    hmakes.undisturbed

theorem Inv.move {state : State} (hinv : Inv attachment state) {after : Shared}
    (hmove : Move attachment none state.shared after) :
    Inv attachment { state with shared := after } :=
  Invariant.setShared hinv hmove.shared fun _ hat =>
    hmove.frame.at_other hat fun _ _ h => nomatch h

theorem genuine_of_isGenuine {shared : Shared} {sample : FenceSample}
    (hgenuine : isGenuine attachment shared sample = true) :
    Genuine attachment shared sample := by
  intro sequence mutations hsequence hmutations
  simp only [isGenuine, hsequence, hmutations, Option.all_some, Option.isNone_some,
    Bool.false_or, beq_iff_eq] at hgenuine
  exact ⟨sample.toTransportSample, hgenuine, hmutations⟩

theorem owner_eq_none_of_idle {state : State} {task : ℕ} (hidle : state.tasks task = .idle) :
    owner attachment (state.tasks task) = none := by
  rw [hidle]
  rfl

theorem inv_write {state next : State} {task : ℕ} {call : Call}
    {answers : FencePublisher.Answers} (hinv : Inv attachment state)
    (hstep : step attachment state (.write task call answers) = some next) :
    Inv attachment next := by
  simp only [step] at hstep
  split at hstep
  · exact nomatch hstep
  · rename_i hready
    have hidle : state.tasks task = .idle := not_not.mp (not_or.mp hready).1
    split at hstep
    · obtain rfl := Option.some.inj hstep
      exact hinv
    · rename_i sample _
      have hhonest := hinv.shared.honest.submitData answers
      have hcounts := hinv.shared.counts.submitData answers
      split at hstep
      · rename_i publisher hsubmit
        obtain rfl := Option.some.inj hstep
        rw [hsubmit] at hhonest hcounts
        apply hinv.move
        rcases hcounts with ⟨-, hcounts⟩ | ⟨sequence, hnone, -⟩
        · exact move_publisher hinv.shared rfl rfl rfl rfl rfl rfl hcounts hhonest
        · exact nomatch hnone
      · rename_i publisher sequence hsubmit
        obtain rfl := Option.some.inj hstep
        rw [hsubmit] at hhonest hcounts
        have hmove : Move attachment (owner attachment (state.tasks task)) state.shared
            { state.shared with
              publisher
              submitted := state.shared.submitted ++ [sample] } := by
          rcases hcounts with ⟨hnone, -⟩ | ⟨_, -, -, hcounts⟩
          · exact nomatch hnone
          · exact move_submit hinv.shared hcounts hhonest
        split_ifs
        · have hmakes : Makes attachment state.shared (state.tasks task)
              ({ state.shared with
                  publisher
                  submitted := state.shared.submitted ++ [sample] },
                .applyLocally call.mutations) := makes_of hmove trivial rfl
          exact hinv.replace hmakes
        · have hmakes : Makes attachment state.shared (state.tasks task)
              ({ state.shared with
                  publisher
                  submitted := state.shared.submitted ++ [sample] },
                .idle) := makes_of hmove trivial rfl
          exact hinv.replace hmakes

theorem inv_beginFence {state next : State} {task : ℕ} {token : AckToken}
    {answers : FencePublisher.Answers} (hinv : Inv attachment state)
    (hstep : step attachment state (.beginFence task token answers) = some next) :
    Inv attachment next := by
  simp only [step] at hstep
  split at hstep
  · exact nomatch hstep
  · have hhonest := hinv.shared.honest.beginFence token answers
    obtain ⟨hcounts, hcovered⟩ := hinv.shared.counts.beginFence token answers
    split at hstep
    · rename_i publisher hbegin
      obtain rfl := Option.some.inj hstep
      rw [hbegin] at hhonest hcounts
      apply hinv.move
      exact move_publisher hinv.shared rfl rfl rfl rfl rfl rfl hcounts hhonest
    · rename_i publisher handle hbegin
      obtain rfl := Option.some.inj hstep
      rw [hbegin] at hhonest hcounts hcovered
      have hmakes : Makes attachment state.shared (state.tasks task)
          ({ state.shared with publisher }, .wait handle state.shared.submitted.length) :=
        makes_of (move_publisher hinv.shared rfl rfl rfl rfl rfl rfl hcounts hhonest)
          (hcovered handle rfl) rfl
      exact hinv.replace hmakes

/-- Every step that tears no completion keeps the invariant. -/
theorem Inv.step {state next : State} {action : Action} (hinv : Inv attachment state)
    (hwhole : ¬Tears attachment state action)
    (hstep : step attachment state action = some next) : Inv attachment next := by
  cases action with
  | deliver task sample =>
      simp only [Delivery.step] at hstep
      split_ifs at hstep with hready
      obtain rfl := Option.some.inj hstep
      have hgenuine : isGenuine attachment state.shared sample = true := by
        simpa using (not_or.mp hready).2
      have hmakes : Makes attachment state.shared (state.tasks task)
          (state.shared, .dispatch sample) :=
        makes_stay hinv.shared (genuine_of_isGenuine hgenuine) rfl
      exact hinv.replace hmakes
  | advance task choice =>
      obtain ⟨result, hblock, rfl⟩ := Option.map_eq_some_iff.mp hstep
      refine hinv.replace (makes_block hinv.shared (hinv.task task) ?_ hblock)
      intro sample preadmitted ticketed hcurrent htears
      apply hwhole
      simp only [Tears, hcurrent]
      exact htears
  | write task call answers => exact inv_write hinv hstep
  | beginFence task token answers => exact inv_beginFence hinv hstep
  | drain snapshot overlay =>
      simp only [Delivery.step] at hstep
      split_ifs at hstep
      obtain rfl := Option.some.inj hstep
      exact hinv.move (move_drain hinv.shared snapshot overlay)
  | noticeMismatch =>
      obtain rfl := Option.some.inj hstep
      have hcounts : state.shared.publisher.markGenerationMismatch.Counts
          state.shared.submitted.length := hinv.shared.counts.of_same rfl rfl
      have hhonest : state.shared.publisher.markGenerationMismatch.Honest
          (Applied attachment state.shared) := hinv.shared.honest
      exact hinv.move (move_publisher hinv.shared rfl rfl rfl rfl rfl rfl
        hcounts.cancelPendingWaiter hhonest.cancelPendingWaiter)
  | closePublisher =>
      obtain rfl := Option.some.inj hstep
      exact hinv.move (move_publisher hinv.shared rfl rfl rfl rfl rfl rfl
        hinv.shared.counts.disconnect hinv.shared.honest.disconnect)
  | closeGate =>
      obtain rfl := Option.some.inj hstep
      exact hinv.move (move_same hinv.shared rfl rfl rfl rfl rfl rfl rfl)
  | closeRegistration =>
      obtain rfl := Option.some.inj hstep
      exact hinv.move (move_same hinv.shared rfl rfl rfl rfl rfl rfl rfl)
  | stop clears =>
      simp only [Delivery.step] at hstep
      split_ifs at hstep with _ hclears
      · obtain rfl := Option.some.inj hstep
        exact hinv.move (move_stop hinv.shared rfl rfl rfl rfl rfl rfl rfl)
      · obtain rfl := Option.some.inj hstep
        obtain ⟨hheld, hobservations⟩ := hinv.shared.drained (not_or.mp hclears).2
        exact hinv.move (move_stop hinv.shared rfl rfl rfl rfl rfl hheld hobservations)

theorem inv_start : Inv attachment start where
  shared :=
    { recorded := recorded_empty
      ordered := journal_empty
      whole := fun _ h => nomatch h
      buffering := fun _ => rfl
      drained := fun _ => ⟨rfl, rfl⟩
      counts := FencePublisher.counts_bound _
      honest := FencePublisher.honest_bound _ }
  task := fun _ => trivial
  compatible := fun _ _ _ _ h => nomatch h

end Runs

/-- Nothing fails. -/
def smoothly : Choice where
  memory := .available
  throws := false
  hasCapacity := true
  entry := .entered
  stops := none
  mismatch := false
  ending := .observed
  inTime := true

end Sitos.Delivery

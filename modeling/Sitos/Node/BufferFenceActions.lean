import Sitos.Node.BufferFenceMarkers

/-!
# Sessions come and go

The calls that create and close sessions keep the invariant too: a session that is published is new,
and a session is dropped only when nothing is under way on it.
-/

namespace Sitos.BufferFence

open Sitos.AckResult
open Sitos.Bytes
open Sitos.Core
open Sitos.FenceWire
open Sitos.Key
open Sitos.LaneHistory
open Sitos.Machine
open Sitos.Receiver
open Sitos.Registry
open Sitos.Sample
open Sitos.Tasks
open Sitos.Token

variable {Fingerprint : Type} {node : Node Fingerprint} {steady : Prop}
  {Sent : Delivered → Prop} {shared next : Shared Fingerprint} {task : Task} {record : ℕ}
  {state : State Fingerprint}

/-- The shared state changes, and no call moves. -/
theorem Sound.setShared (hsound : Sound node steady Sent state)
    (hholds : Holds node steady Sent next) (hcounts : SameCounts state.shared next)
    (htasks : ∀ call, At node steady Sent next (state.tasks call)) :
    Sound node steady Sent { state with shared := next } where
  invariant := ⟨hholds, htasks, hsound.invariant.compatible⟩
  counted := by
    refine ⟨fun record bufferClass => ?_, fun record => ?_⟩
    · change _ = ((next.records record).admitted bufferClass : ℕ∞)
      rw [(hcounts record).1]
      exact hsound.counted.admitted record bufferClass
    · change _ = ((next.records record).leases : ℕ∞)
      rw [(hcounts record).2]
      exact hsound.counted.leases record

theorem at_changes (hsound : Sound node steady Sent state)
    (hchanges : Changes node steady Sent none state.shared next) (call : ℕ) :
    At node steady Sent next (state.tasks call) := by
  have hadds : Adds Task.idle.claim state.shared next := hchanges.adds
  refine At.later hsound.invariant.shared (hsound.invariant.task call) hchanges.later hadds ?_ ?_
  · intro held hheld
    cases hheld
  · intro held hheld
    cases hheld

theorem Sound.changes (hsound : Sound node steady Sent state)
    (hchanges : Changes node steady Sent none state.shared next) :
    Sound node steady Sent { state with shared := next } :=
  hsound.setShared hchanges.holds hchanges.counts (at_changes hsound hchanges)

/-! ## Publication -/

section Create

variable {session : SessionRecord}

theorem Holds.not_live_allocated (hholds : Holds node steady Sent shared) :
    ¬shared.IsLive shared.allocated :=
  fun hlive => Nat.lt_irrefl _ (hholds.allocated hlive)

/-- Nothing was applied for a session that is not published. -/
theorem Holds.applied_of_absent (hholds : Holds node steady Sent shared) {lane : LaneId}
    (habsent : shared.sessions.find lane.sid = none) : shared.applied lane = [] := by
  by_contra happlied
  obtain ⟨record, hlive, -, hsid, -⟩ := hholds.owned lane happlied
  rw [hsid, hholds.mapped record hlive] at habsent
  cases habsent

/-- A record under a new number. -/
structure Creates (shared : Shared Fingerprint) (session : SessionRecord)
    (next : Shared Fingerprint) : Prop where
  valid : isValidSessionId session.sid = true
  absent : shared.sessions.find session.sid = none
  shared : next = { shared with
    sessions := shared.sessions.insertOrAssign session.sid shared.allocated
    records := Function.update shared.records shared.allocated session
    allocated := shared.allocated + 1 }

theorem creates_of_create (hcreate : shared.create session = some next) :
    Creates shared session next := by
  unfold Shared.create at hcreate
  split at hcreate
  · cases hcreate
  · rename_i hguard
    obtain ⟨hvalid, habsent⟩ := not_or.mp hguard
    exact ⟨by simpa using hvalid, by simpa using habsent, (Option.some.inj hcreate).symm⟩

/-- What a new session starts with. -/
structure IsNew (session : SessionRecord) : Prop where
  phase : session.phase ≠ .closed
  engine : session.phase = .creating → session.engine = none
  admitted : session.admitted = fun _ => 0
  leases : session.leases = 0

section Created

variable (hcreates : Creates shared session next)

include hcreates

theorem Creates.self : next.records shared.allocated = session := by
  rw [hcreates.shared]
  exact Function.update_self ..

theorem Creates.other {other : ℕ} (hother : other ≠ shared.allocated) :
    next.records other = shared.records other := by
  rw [hcreates.shared]
  exact Function.update_of_ne hother ..

theorem Creates.old (hholds : Holds node steady Sent shared) {other : ℕ}
    (hlive : shared.IsLive other) : next.records other = shared.records other :=
  hcreates.other fun hsame => hholds.not_live_allocated (hsame ▸ hlive)

theorem Creates.find (sid : ByteString) : next.sessions.find sid =
    if sid = session.sid then some shared.allocated else shared.sessions.find sid := by
  have hfind := SortedMap.find_insertOrAssign shared.sessions session.sid sid shared.allocated
  rw [hcreates.shared]
  by_cases hsid : sid = session.sid
  · rw [if_pos hsid] at hfind ⊢
    exact hfind
  · rw [if_neg hsid] at hfind ⊢
    exact hfind

theorem Creates.allocated : next.allocated = shared.allocated + 1 := by
  rw [hcreates.shared]

theorem Creates.rest : next.receivers = shared.receivers ∧ next.histories = shared.histories ∧
    next.applied = shared.applied := by
  rw [hcreates.shared]
  exact ⟨rfl, rfl, rfl⟩

/-- A live record is the new one, or it was live before. -/
theorem Creates.isLive_of_ne {other : ℕ} (hother : other ≠ shared.allocated)
    (hlive : next.IsLive other) : shared.IsLive other := by
  rwa [Shared.IsLive, hcreates.other hother] at hlive

theorem Creates.sameCounts (hholds : Holds node steady Sent shared) (hnew : IsNew session) :
    SameCounts shared next := by
  intro other
  by_cases hsame : other = shared.allocated
  · have hclosed : (shared.records shared.allocated).phase = .closed :=
      not_not.mp hholds.not_live_allocated
    obtain ⟨hadmitted, hleases⟩ := hholds.closed _ hclosed
    rw [hsame, hcreates.self, hnew.admitted, hnew.leases, hleases]
    exact ⟨funext fun bufferClass => (hadmitted bufferClass).symm, rfl⟩
  · rw [hcreates.other hsame]
    exact ⟨rfl, rfl⟩

theorem Creates.later (hholds : Holds node steady Sent shared) : Later steady shared next where
  live other hlive := by
    rw [Shared.IsLive, hcreates.old hholds hlive]
    exact hlive
  begun other hlive hbegun := by rwa [hcreates.old hholds hlive]
  sid other hlive := by rw [hcreates.old hholds hlive]
  generation other hlive := by rw [hcreates.old hholds hlive]
  admitted lane sequence hmem := by rwa [hcreates.rest.2.1]
  keeps _ other hlive engine hengine :=
    ⟨engine, by rw [hcreates.old hholds hlive, hengine], fun _ _ hvalue => hvalue⟩

theorem Creates.holds (hholds : Holds node steady Sent shared) (hnew : IsNew session) :
    Holds node steady Sent next where
  known := by
    obtain ⟨hreceivers, hhistories, -⟩ := hcreates.rest
    refine ⟨?_, ?_, ?_⟩
    · rw [hreceivers, hhistories]
      exact hholds.known.found
    · rw [hreceivers, hhistories]
      exact hholds.known.absent
    · rw [hhistories]
      exact hholds.known.recorded
  bound sid other hfind := by
    rw [hcreates.find] at hfind
    rw [hcreates.allocated]
    split at hfind
    · rename_i hsid
      obtain rfl := Option.some.inj hfind
      rw [hcreates.self]
      exact ⟨Nat.lt_succ_self _, hsid.symm⟩
    · obtain ⟨hallocated, hsid⟩ := hholds.bound sid other hfind
      rw [hcreates.other (Nat.ne_of_lt hallocated)]
      exact ⟨Nat.lt_succ_of_lt hallocated, hsid⟩
  mapped other hlive := by
    rw [hcreates.find]
    by_cases hsame : other = shared.allocated
    · rw [hsame, hcreates.self, if_pos rfl]
    · have hfind := hholds.mapped other (hcreates.isLive_of_ne hsame hlive)
      rw [hcreates.other hsame, if_neg, hfind]
      intro hsid
      rw [hsid, hcreates.absent] at hfind
      cases hfind
  valid other hallocated := by
    rw [hcreates.allocated] at hallocated
    by_cases hsame : other = shared.allocated
    · rw [hsame, hcreates.self]
      exact hcreates.valid
    · rw [hcreates.other hsame]
      exact hholds.valid other (Nat.lt_of_le_of_ne (Nat.lt_succ_iff.mp hallocated) hsame)
  closed other hclosed := by
    by_cases hsame : other = shared.allocated
    · rw [hsame, hcreates.self] at hclosed
      exact absurd hclosed hnew.phase
    · rw [hcreates.other hsame] at hclosed ⊢
      exact hholds.closed other hclosed
  unopened other hcreating := by
    by_cases hsame : other = shared.allocated
    · rw [hsame, hcreates.self] at hcreating ⊢
      exact hnew.engine hcreating
    · rw [hcreates.other hsame] at hcreating ⊢
      exact hholds.unopened other hcreating
  refuses other hclosed hallocated := by
    rw [hcreates.allocated] at hallocated
    by_cases hsame : other = shared.allocated
    · rw [hsame, hcreates.self] at hclosed
      exact absurd hclosed hnew.phase
    · rw [hcreates.other hsame] at hclosed ⊢
      exact hholds.refuses other hclosed
        (Nat.lt_of_le_of_ne (Nat.lt_succ_iff.mp hallocated) hsame)
  journal lane := by
    rw [hcreates.rest.2.1, hcreates.rest.2.2]
    exact hholds.journal lane
  owned lane happlied := by
    rw [hcreates.rest.2.2] at happlied
    have hlater : Later steady shared next := hcreates.later hholds
    obtain ⟨other, hlive, hrest⟩ := hholds.owned lane happlied
    refine ⟨other, hlater.live other hlive, ?_⟩
    rwa [hcreates.old hholds hlive]
  came lane datum := by
    rw [hcreates.rest.2.2]
    exact hholds.came lane datum
  stored hsteady other hlive uuid datum hdatum := by
    rw [hcreates.rest.2.2] at hdatum
    by_cases hsame : other = shared.allocated
    · have hnone : shared.applied (session.lane .durable uuid) = [] :=
        hholds.applied_of_absent hcreates.absent
      rw [hsame, Shared.lane, hcreates.self, hnone] at hdatum
      cases hdatum
    · rw [Shared.lane, hcreates.other hsame] at hdatum
      rw [hcreates.other hsame]
      exact hholds.stored hsteady other (hcreates.isLive_of_ne hsame hlive) uuid datum hdatum

theorem changes_create (hholds : Holds node steady Sent shared) (hnew : IsNew session) :
    Changes node steady Sent none shared next :=
  ⟨hcreates.holds hholds hnew, hcreates.later hholds, adds_of_applied hcreates.rest.2.2,
    hcreates.sameCounts hholds hnew⟩

end Created

end Create

/-! ## Activation and closing -/

theorem modify_self (change : SessionRecord → SessionRecord) :
    (shared.modify record change).records record = change (shared.records record) :=
  Function.update_self ..

theorem modify_other (change : SessionRecord → SessionRecord) {other : ℕ}
    (hother : other ≠ record) :
    (shared.modify record change).records other = shared.records other :=
  Function.update_of_ne hother ..

/-- A field that a change leaves is the same in every record. -/
theorem modify_same {Value : Type} {change : SessionRecord → SessionRecord}
    (field : SessionRecord → Value)
    (hfield : field (change (shared.records record)) = field (shared.records record))
    (other : ℕ) :
    field ((shared.modify record change).records other) = field (shared.records other) := by
  by_cases hsame : other = record
  · rw [hsame, modify_self, hfield]
  · rw [modify_other change hsame]

/-- A record goes on to another phase. -/
structure Advances (session next : SessionRecord) : Prop where
  live : session.phase ≠ .closed
  phase : next.phase ≠ .closed ∧ next.phase ≠ .creating
  sid : next.sid = session.sid
  generation : next.generation = session.generation
  engine : next.engine = session.engine ∨ session.phase = .creating
  admitted : next.admitted = session.admitted
  leases : next.leases = session.leases

section Advanced

variable {change : SessionRecord → SessionRecord}
  (hadvances : Advances (shared.records record) (change (shared.records record)))

include hadvances

theorem Advances.lane_eq (other : ℕ) (bufferClass : BufferClass) (publisherUuid : FenceUuid) :
    (shared.modify record change).lane other bufferClass publisherUuid =
      shared.lane other bufferClass publisherUuid := by
  simp only [Shared.lane, SessionRecord.lane,
    modify_same SessionRecord.sid hadvances.sid,
    modify_same SessionRecord.generation hadvances.generation]

theorem Advances.isLive (other : ℕ) :
    (shared.modify record change).IsLive other ↔ shared.IsLive other := by
  by_cases hsame : other = record
  · rw [hsame, Shared.IsLive, modify_self]
    exact iff_of_true hadvances.phase.1 hadvances.live
  · rw [Shared.IsLive, Shared.IsLive, modify_other change hsame]

theorem Advances.begun {other : ℕ} (hbegun : (shared.records other).phase ≠ .creating) :
    ((shared.modify record change).records other).phase ≠ .creating := by
  by_cases hsame : other = record
  · rw [hsame, modify_self]
    exact hadvances.phase.2
  · rwa [modify_other change hsame]

theorem Advances.later (hholds : Holds node steady Sent shared) :
    Later steady shared (shared.modify record change) where
  live other hlive := (hadvances.isLive other).mpr hlive
  begun other _ := hadvances.begun
  sid other _ := modify_same SessionRecord.sid hadvances.sid other
  generation other _ := modify_same SessionRecord.generation hadvances.generation other
  admitted _ _ hmem := hmem
  keeps _ other _ engine hengine := by
    refine ⟨engine, ?_, fun _ _ hvalue => hvalue⟩
    by_cases hsame : other = record
    · rw [hsame] at hengine ⊢
      rcases hadvances.engine with hkept | hcreating
      · rw [modify_self, hkept, hengine]
      · cases (hholds.unopened record hcreating).symm.trans hengine
    · rw [modify_other change hsame, hengine]

theorem Advances.stored (hholds : Holds node steady Sent shared) (hsteady : steady) {other : ℕ}
    (hlive : shared.IsLive other) (uuid : FenceUuid) :
    ∀ datum ∈ shared.applied (shared.lane other .durable uuid), ∃ engine,
      ((shared.modify record change).records other).engine = some engine ∧
        Keeps node engine.contents datum.2 := by
  intro datum hdatum
  by_cases hsame : other = record
  · subst hsame
    rcases hadvances.engine with hengine | hcreating
    · rw [modify_self, hengine]
      exact hholds.stored hsteady other hlive uuid datum hdatum
    · -- nothing is applied for a session that is being created
      obtain ⟨owner, howner, hphase, hsid, -⟩ := hholds.owned _ (List.ne_nil_of_mem hdatum)
      obtain rfl := hholds.record_eq hlive howner hsid
      exact absurd hcreating hphase
  · rw [modify_other change hsame]
    exact hholds.stored hsteady other hlive uuid datum hdatum

theorem Advances.holds (hholds : Holds node steady Sent shared) :
    Holds node steady Sent (shared.modify record change) where
  known := ⟨hholds.known.found, hholds.known.absent, hholds.known.recorded⟩
  bound sid other := by
    rw [modify_same SessionRecord.sid hadvances.sid]
    exact hholds.bound sid other
  mapped other hlive := by
    rw [modify_same SessionRecord.sid hadvances.sid]
    exact hholds.mapped other ((hadvances.isLive other).mp hlive)
  valid other := by
    rw [modify_same SessionRecord.sid hadvances.sid]
    exact hholds.valid other
  closed other hclosed := by
    by_cases hsame : other = record
    · rw [hsame, modify_self] at hclosed
      exact absurd hclosed hadvances.phase.1
    · rw [modify_other change hsame] at hclosed ⊢
      exact hholds.closed other hclosed
  unopened other hcreating := by
    by_cases hsame : other = record
    · rw [hsame, modify_self] at hcreating
      exact absurd hcreating hadvances.phase.2
    · rw [modify_other change hsame] at hcreating ⊢
      exact hholds.unopened other hcreating
  refuses other hclosed := by
    by_cases hsame : other = record
    · rw [hsame, modify_self] at hclosed
      exact absurd hclosed hadvances.phase.1
    · rw [modify_other change hsame] at hclosed ⊢
      exact hholds.refuses other hclosed
  journal := hholds.journal
  owned lane happlied := by
    obtain ⟨other, hlive, hphase, hsid, hgeneration⟩ := hholds.owned lane happlied
    refine ⟨other, (hadvances.isLive other).mpr hlive, hadvances.begun hphase, ?_, ?_⟩
    · rw [modify_same SessionRecord.sid hadvances.sid, hsid]
    · rw [modify_same SessionRecord.generation hadvances.generation, hgeneration]
  came := hholds.came
  stored hsteady other hlive uuid := by
    rw [hadvances.lane_eq]
    exact hadvances.stored hholds hsteady ((hadvances.isLive other).mp hlive) uuid

theorem changes_modify (hholds : Holds node steady Sent shared) :
    Changes node steady Sent none shared (shared.modify record change) :=
  ⟨hadvances.holds hholds, hadvances.later hholds, adds_of_applied rfl, fun other =>
    ⟨modify_same SessionRecord.admitted hadvances.admitted other,
      modify_same SessionRecord.leases hadvances.leases other⟩⟩

end Advanced

theorem creating_ne : Phase.creating ≠ .closed := by decide

theorem active_ne : Phase.active ≠ .closed ∧ Phase.active ≠ .creating := by decide

theorem closing_ne : Phase.closing ≠ .closed ∧ Phase.closing ≠ .creating := by decide

theorem changes_activate (hholds : Holds node steady Sent shared) {engine : Option Engine}
    {catalogued : Bool} (hactivate : shared.activate record engine catalogued = some next) :
    Changes node steady Sent none shared next := by
  unfold Shared.activate at hactivate
  simp only at hactivate
  split at hactivate
  · cases hactivate
  rename_i hguard
  obtain rfl := Option.some.inj hactivate
  have hcreating : (shared.records record).phase = .creating := by
    by_contra hphase
    exact hguard (.inr (.inl hphase))
  refine changes_modify ⟨?_, active_ne, rfl, rfl, .inr hcreating, rfl, rfl⟩ hholds
  rw [hcreating]
  decide

theorem changes_beginClose (hholds : Holds node steady Sent shared)
    (hbegin : shared.beginClose record = some next) :
    Changes node steady Sent none shared next := by
  unfold Shared.beginClose at hbegin
  simp only at hbegin
  split at hbegin
  · cases hbegin
  rename_i hguard
  obtain rfl := Option.some.inj hbegin
  refine changes_modify ⟨fun hclosed => ?_, closing_ne, rfl, rfl, .inl rfl, rfl, rfl⟩ hholds
  refine hguard (.inr ?_)
  rw [hclosed]
  decide

/-! ## Withdrawal -/

theorem changes_unmap (hholds : Holds node steady Sent shared)
    (hunmap : shared.unmap record = some next) : Changes node steady Sent none shared next := by
  unfold Shared.unmap at hunmap
  simp only at hunmap
  split at hunmap
  · cases hunmap
  rename_i hguard
  obtain ⟨hclosed, hmapped⟩ := not_or.mp hguard
  have hclosed := not_not.mp hclosed
  have hmapped := not_not.mp hmapped
  obtain rfl := Option.some.inj hunmap
  refine ⟨⟨⟨hholds.known.found, hholds.known.absent, hholds.known.recorded⟩,
    fun sid other hfind => ?_, fun other hlive => ?_, hholds.valid, hholds.closed,
    hholds.unopened, hholds.refuses, hholds.journal, hholds.owned, hholds.came,
    hholds.stored⟩, ⟨fun _ hlive => hlive, fun _ _ hbegun => hbegun, fun _ _ => rfl,
    fun _ _ => rfl, fun _ _ hmem => hmem,
    fun _ _ _ engine hengine => ⟨engine, hengine, fun _ _ hvalue => hvalue⟩⟩,
    adds_of_applied rfl, sameCounts_of_records rfl⟩
  · simp only [SortedMap.find_erase] at hfind
    split at hfind
    · cases hfind
    · exact hholds.bound sid other hfind
  · have hfind := hholds.mapped other hlive
    simp only [SortedMap.find_erase]
    rw [if_neg, hfind]
    intro hsid
    rw [hsid, hmapped] at hfind
    obtain rfl := Option.some.inj hfind
    exact hlive hclosed

theorem changes_flags (hholds : Holds node steady Sent shared) (accepting unavailable : Bool) :
    Changes node steady Sent none shared { shared with accepting, unavailable } :=
  (Quiet.flags ..).changes (sameCounts_of_records rfl) hholds

/-! ## The drop of a session -/

/-- A record without calls is closed, and the lanes of its session are gone. -/
structure Drops (node : Node Fingerprint) (shared : Shared Fingerprint) (record : ℕ)
    (next : Shared Fingerprint) : Prop where
  allocated : record < shared.allocated
  phase : (shared.records record).phase = .closing
  admitted : ∀ bufferClass, (shared.records record).admitted bufferClass = 0
  leases : (shared.records record).leases = 0
  refuses : node.dispatcher = true → (shared.records record).dispatch = true →
    ∀ bufferClass, (shared.records record).accepting bufferClass = false
  shared : next = (shared.modify record fun session =>
    { session with engine := none, generation := noUuid, phase := .closed }).eraseSession
      (shared.records record).sid

theorem drops_of_dropRecord (hdrop : shared.dropRecord node record = some next) :
    Drops node shared record next := by
  unfold Shared.dropRecord at hdrop
  simp only at hdrop
  split at hdrop
  · cases hdrop
  rename_i hguard
  split at hdrop
  · cases hdrop
  rename_i haccepting
  obtain ⟨hallocated, hrest⟩ := not_or.mp hguard
  obtain ⟨hphase, hdrained⟩ := not_or.mp hrest
  have hdrained : ((shared.records record).admitted .durable = 0 ∧
      (shared.records record).admitted .ephemeral = 0) ∧
      (shared.records record).leases = 0 := by
    simpa [Shared.isDrained] using hdrained
  refine ⟨Nat.lt_of_not_le hallocated, not_not.mp hphase, fun bufferClass => ?_, hdrained.2,
    fun hdispatcher hdispatch bufferClass => ?_, (Option.some.inj hdrop).symm⟩
  · cases bufferClass with
    | durable => exact hdrained.1.1
    | ephemeral => exact hdrained.1.2
  · by_contra hopen
    refine haccepting ⟨hdispatcher, hdispatch, ?_⟩
    have hopen : (shared.records record).accepting bufferClass = true := by simpa using hopen
    cases bufferClass with
    | durable => exact .inl hopen
    | ephemeral => exact .inr hopen

section Drop

variable (hdrops : Drops node shared record next)

include hdrops

theorem Drops.self : next.records record =
    { shared.records record with engine := none, generation := noUuid, phase := .closed } := by
  rw [hdrops.shared]
  exact Function.update_self ..

theorem Drops.other {other : ℕ} (hother : other ≠ record) :
    next.records other = shared.records other := by
  rw [hdrops.shared]
  exact Function.update_of_ne hother ..

theorem Drops.sid (other : ℕ) : (next.records other).sid = (shared.records other).sid := by
  by_cases hsame : other = record
  · rw [hsame, hdrops.self]
  · rw [hdrops.other hsame]

theorem Drops.isLive (other : ℕ) : next.IsLive other ↔ other ≠ record ∧ shared.IsLive other := by
  by_cases hsame : other = record
  · simp [Shared.IsLive, hsame, hdrops.self]
  · simp [Shared.IsLive, hsame, hdrops.other hsame]

theorem Drops.sameCounts : SameCounts shared next := by
  intro other
  by_cases hsame : other = record
  · rw [hsame, hdrops.self]
    exact ⟨rfl, rfl⟩
  · rw [hdrops.other hsame]
    exact ⟨rfl, rfl⟩

theorem Drops.histories (lane : LaneId) : next.histories lane =
    if lane.sid = (shared.records record).sid then .empty else shared.histories lane := by
  rw [hdrops.shared]
  rfl

theorem Drops.applied (lane : LaneId) : next.applied lane =
    if lane.sid = (shared.records record).sid then [] else shared.applied lane := by
  rw [hdrops.shared]
  rfl

/-- A live record is of another session than the one that is dropped. -/
theorem Drops.sid_ne (hholds : Holds node steady Sent shared) {other : ℕ}
    (hother : other ≠ record) (hlive : shared.IsLive other) :
    (shared.records other).sid ≠ (shared.records record).sid := by
  intro hsid
  have hrecord : shared.IsLive record := by
    rw [Shared.IsLive, hdrops.phase]
    decide
  exact hother (hholds.record_eq hlive hrecord hsid)

theorem Drops.known (hholds : Holds node steady Sent shared) : Known next := by
  have hvalid := hholds.valid record hdrops.allocated
  have hfind : ∀ lane : LaneId, lane.IsValid → next.receivers.find lane =
      if lane.sid = (shared.records record).sid then none else shared.receivers.find lane := by
    intro lane hlane
    rw [hdrops.shared]
    exact find_eraseSession hvalid hlane
  refine ⟨fun lane hlane state hstate => ?_, fun lane hlane habsent => ?_, fun lane => ?_⟩
  · rw [hfind lane hlane] at hstate
    rw [hdrops.histories]
    split at hstate
    · cases hstate
    · rename_i hsid
      rw [if_neg hsid]
      exact hholds.known.found lane hlane state hstate
  · rw [hfind lane hlane] at habsent
    rw [hdrops.histories]
    split at habsent
    · rename_i hsid
      rw [if_pos hsid]
    · rename_i hsid
      rw [if_neg hsid]
      exact hholds.known.absent lane hlane habsent
  · rw [hdrops.histories]
    split
    · exact recorded_empty
    · exact hholds.known.recorded lane

theorem Drops.holds (hholds : Holds node steady Sent shared) : Holds node steady Sent next where
  known := hdrops.known hholds
  bound sid other := by
    rw [hdrops.sid, hdrops.shared]
    exact hholds.bound sid other
  mapped other hlive := by
    rw [hdrops.sid, hdrops.shared]
    exact hholds.mapped other ((hdrops.isLive other).mp hlive).2
  valid other := by
    rw [hdrops.sid, hdrops.shared]
    exact hholds.valid other
  closed other hclosed := by
    rw [(hdrops.sameCounts other).1, (hdrops.sameCounts other).2]
    by_cases hsame : other = record
    · rw [hsame]
      exact ⟨hdrops.admitted, hdrops.leases⟩
    · rw [hdrops.other hsame] at hclosed
      exact hholds.closed other hclosed
  unopened other hcreating := by
    by_cases hsame : other = record
    · rw [hsame, hdrops.self]
    · rw [hdrops.other hsame] at hcreating ⊢
      exact hholds.unopened other hcreating
  refuses other hclosed hallocated hdispatcher hdispatch bufferClass := by
    by_cases hsame : other = record
    · rw [hsame, hdrops.self] at hdispatch ⊢
      exact hdrops.refuses hdispatcher hdispatch bufferClass
    · rw [hdrops.other hsame] at hclosed hdispatch ⊢
      rw [hdrops.shared] at hallocated
      exact hholds.refuses other hclosed hallocated hdispatcher hdispatch bufferClass
  journal lane := by
    rw [hdrops.histories, hdrops.applied]
    split
    · exact journal_empty
    · exact hholds.journal lane
  owned lane happlied := by
    rw [hdrops.applied] at happlied
    split at happlied
    · exact absurd rfl happlied
    · rename_i hsid
      obtain ⟨other, hlive, hbegun, hlaneSid, hgeneration⟩ := hholds.owned lane happlied
      have hother : other ≠ record := fun hsame => hsid (hsame ▸ hlaneSid)
      refine ⟨other, (hdrops.isLive other).mpr ⟨hother, hlive⟩, ?_⟩
      rw [hdrops.other hother]
      exact ⟨hbegun, hlaneSid, hgeneration⟩
  came lane datum hdatum := by
    rw [hdrops.applied] at hdatum
    split at hdatum
    · cases hdatum
    · exact hholds.came lane datum hdatum
  stored hsteady other hlive uuid datum hdatum := by
    obtain ⟨hother, hlive⟩ := (hdrops.isLive other).mp hlive
    have hne : (shared.lane other .durable uuid).sid ≠ (shared.records record).sid :=
      hdrops.sid_ne hholds hother hlive
    have hlane : next.lane other .durable uuid = shared.lane other .durable uuid := by
      simp only [Shared.lane, hdrops.other hother]
    rw [hlane, hdrops.applied, if_neg hne] at hdatum
    rw [hdrops.other hother]
    exact hholds.stored hsteady other hlive uuid datum hdatum

/-- A call that is not on the record goes on. -/
theorem Drops.at (hholds : Holds node steady Sent shared)
    (hat : At node steady Sent shared task) (hfree : ¬task.On record) :
    At node steady Sent next task := by
  have hne : ∀ other, task.On other → other ≠ record := fun other hon hsame =>
    hfree (hsame ▸ hon)
  have hlives : ∀ other, task.On other → next.IsLive other := fun other hon =>
    (hdrops.isLive other).mpr ⟨hne other hon, hat.isLive_of_on hon⟩
  refine ⟨fun other bufferClass hticket => ?_, fun other hlease => ?_, fun claim hclaim => ?_,
    facts_stay hat.facts fun other hon => ?_⟩
  · exact hlives other (.inl ⟨bufferClass, hticket⟩)
  · refine ⟨hlives other (.inr hlease), ?_⟩
    rw [hdrops.other (hne other (.inr hlease))]
    exact (hat.lease other hlease).2
  · have hon := on_of_claim hclaim
    have hother := hdrops.sid_ne hholds (hne _ hon) (hat.isLive_of_on hon)
    have hlane : claim.lane next = claim.lane shared := by
      simp only [Claim.lane, Shared.lane, hdrops.other (hne _ hon)]
    have hsid : (claim.lane shared).sid ≠ (shared.records record).sid := hother
    rw [hlane, hdrops.histories, hdrops.applied, if_neg hsid, if_neg hsid]
    exact hat.claim claim hclaim
  · rw [hdrops.other (hne other hon)]
    exact ⟨rfl, rfl, fun _ _ heffective => heffective⟩

end Drop

theorem Sound.drop (hsound : Sound node steady Sent state)
    (hdrop : state.shared.dropRecord node record = some next) :
    Sound node steady Sent { state with shared := next } := by
  have hdrops := drops_of_dropRecord hdrop
  have hholds := hsound.invariant.shared
  refine hsound.setShared (hdrops.holds hholds) hdrops.sameCounts fun call => ?_
  refine hdrops.at hholds (hsound.invariant.task call) ?_
  rintro (⟨bufferClass, hticket⟩ | hlease)
  · have hpos := @tally_pos _ _ state
      (fun task => decide (task.ticket = some (record, bufferClass))) _ call
      (hsound.counted.admitted record bufferClass) (by simpa using hticket)
    rw [hdrops.admitted] at hpos
    exact Nat.lt_irrefl 0 hpos
  · have hpos := @tally_pos _ _ state (fun task => decide (task.lease = some record)) _ call
      (hsound.counted.leases record) (by simpa using hlease)
    rw [hdrops.leases] at hpos
    exact Nat.lt_irrefl 0 hpos

/-! ## Every step -/

theorem sound_start (laneCapacity ackCapacity : ℕ) :
    Sound node steady Sent (start laneCapacity ackCapacity : State Fingerprint) := by
  have hnone : ∀ record, ¬(start laneCapacity ackCapacity : State Fingerprint).shared.IsLive
      record := fun record hlive => hlive rfl
  refine ⟨⟨⟨⟨fun lane _ state hstate => ?_, fun _ _ _ => rfl, fun _ => recorded_empty⟩,
    fun sid record hfind => ?_, fun record hlive => ?_, fun record hrecord => ?_,
    fun record _ => ⟨fun _ => rfl, rfl⟩, fun record hcreating => ?_, fun record _ hrecord => ?_,
    fun _ => journal_empty, fun lane happlied => ?_, fun lane datum hdatum => ?_,
    fun _ record hlive => ?_⟩, fun call => ?_, fun first second _ => ?_⟩,
    fun record bufferClass => ?_, fun record => ?_⟩
  · cases hstate
  · cases hfind
  · exact absurd hlive (hnone record)
  · cases hrecord
  · cases hcreating
  · cases hrecord
  · exact absurd rfl happlied
  · cases hdatum
  · exact absurd hlive (hnone record)
  · exact at_free rfl rfl rfl trivial
  · intro claim hclaim
    cases hclaim
  · simp [start, Task.ticket]
  · simp [start, Task.lease]

/-- What an action brings from outside. -/
def Brings (steady : Prop) (Sent : Delivered → Prop) : Action → Prop
  | .deliver _ delivered => Sent delivered
  | .block _ choice => steady → choice.readEnd ≠ .failed
  | _ => True

theorem Sound.step [DecidableEq Fingerprint] {state next : State Fingerprint} {action : Action}
    (hsound : Sound node steady Sent state) (hbrings : Brings steady Sent action)
    (hstep : step node state action = some next) : Sound node steady Sent next := by
  have hholds := hsound.invariant.shared
  cases action with
  | deliver call delivered =>
      simp only [BufferFence.step] at hstep
      split at hstep
      · rename_i hidle
        obtain rfl := Option.some.inj hstep
        refine Passes.step hsound ?_
        rw [hidle]
        exact passes_free rfl rfl (Changes.refl hholds) rfl rfl rfl hbrings
      · cases hstep
  | block call choice =>
      obtain ⟨⟨shared, task⟩, hblock, rfl⟩ := Option.map_eq_some_iff.mp hstep
      exact (block_spec hholds hbrings (hsound.invariant.task call) hblock).step hsound
  | publish sid generation durableBuffers ephemeralBuffers =>
      obtain ⟨shared, hcreate, rfl⟩ := Option.map_eq_some_iff.mp hstep
      exact hsound.changes (changes_create (creates_of_create hcreate) hholds
        ⟨creating_ne, fun _ => rfl, rfl, rfl⟩)
  | install sid engine =>
      obtain ⟨shared, hcreate, rfl⟩ := Option.map_eq_some_iff.mp hstep
      exact hsound.changes (changes_create (creates_of_create hcreate) hholds
        ⟨active_ne.1, fun hcreating => absurd hcreating active_ne.2, rfl, rfl⟩)
  | activate record engine catalogued =>
      obtain ⟨shared, hactivate, rfl⟩ := Option.map_eq_some_iff.mp hstep
      exact hsound.changes (changes_activate hholds hactivate)
  | beginClose record =>
      obtain ⟨shared, hbegin, rfl⟩ := Option.map_eq_some_iff.mp hstep
      exact hsound.changes (changes_beginClose hholds hbegin)
  | closeDispatch record bufferClass =>
      obtain rfl := Option.some.inj hstep
      exact hsound.changes ((Quiet.closeDispatch record bufferClass).changes
        (sameCounts_closeDispatch record bufferClass) hholds)
  | drop record =>
      obtain ⟨shared, hdrop, rfl⟩ := Option.map_eq_some_iff.mp hstep
      exact hsound.drop hdrop
  | unmap record =>
      obtain ⟨shared, hunmap, rfl⟩ := Option.map_eq_some_iff.mp hstep
      exact hsound.changes (changes_unmap hholds hunmap)
  | latch =>
      obtain rfl := Option.some.inj hstep
      exact hsound.changes (changes_flags hholds _ _)
  | deactivate =>
      obtain rfl := Option.some.inj hstep
      exact hsound.changes (changes_flags hholds _ _)

end Sitos.BufferFence

import Sitos.Node.AckRegistry

/-!
# Histories of the acknowledgement registry

The registry is compared with the log of what happened to its tokens.  The log
alone decides which tokens are held and with which result; the completion ring
is the last `capacity` retained tokens of the log.
-/

namespace Sitos.AckHistory

open Sitos.AckResult
open Sitos.Machine
open Sitos.Ring
open Sitos.Registry

variable {Token Fingerprint : Type} [DecidableEq Token]

/-! ## The log a registry summarises -/

/-- What happened to tokens. -/
inductive Event (Token : Type) where
  | admitted (token : Token)
  | retained (token : Token) (result : AckResultV1)
  | cleared

/-- The newest event about a token since the last `Clear`: its result, absent
for an admission, and the number of retentions that followed.  Logs are read
from the newest event on. -/
def latest (token : Token) : List (Event Token) → Option (Option AckResultV1 × ℕ)
  | [] => none
  | .cleared :: _ => none
  | .admitted other :: older =>
      if other = token then some (none, 0) else latest token older
  | .retained other result :: older =>
      if other = token then some (some result, 0)
      else (latest token older).map fun newest => (newest.1, newest.2 + 1)

/-- What a registry of the given capacity owes a token: a Processing token is
kept, a result is kept for fewer than `capacity` later retentions. -/
def standing (capacity : ℕ) (token : Token) (log : List (Event Token)) :
    Option (Option AckResultV1) :=
  match latest token log with
  | none => none
  | some (none, _) => some none
  | some (some result, later) => if later < capacity then some (some result) else none

/-- The tokens retained since the last `Clear`, newest first. -/
def retainedSince : List (Event Token) → List Token
  | [] => []
  | .cleared :: _ => []
  | .admitted _ :: older => retainedSince older
  | .retained token _ :: older => token :: retainedSince older

/-- The retention count of a token is its place among the retained ones. -/
theorem retainedSince_latest {token : Token} {result : AckResultV1} {later : ℕ}
    {log : List (Event Token)} (hlatest : latest token log = some (some result, later)) :
    (retainedSince log)[later]? = some token := by
  induction log generalizing later with
  | nil => simp [latest] at hlatest
  | cons event older ih =>
      cases event with
      | cleared => simp [latest] at hlatest
      | admitted other =>
          by_cases hother : other = token
          · simp [latest, hother] at hlatest
          · rw [latest, if_neg hother] at hlatest
            exact ih hlatest
      | retained other otherResult =>
          by_cases hother : other = token
          · simp only [latest, hother, if_true, Option.some.injEq, Prod.mk.injEq] at hlatest
            simp [retainedSince, hother, ← hlatest.2]
          · simp only [latest, hother, if_false, Option.map_eq_some_iff, Prod.mk.injEq,
              Prod.exists] at hlatest
            obtain ⟨_, before, hbefore, rfl, rfl⟩ := hlatest
            simpa [retainedSince] using ih hbefore

/-- Every event found its token in a state that allows it: only an absent token
is admitted, and no result replaces a retained one. -/
def Legal (capacity : ℕ) : List (Event Token) → Prop
  | [] => True
  | .cleared :: older => Legal capacity older
  | .admitted token :: older => standing capacity token older = none ∧ Legal capacity older
  | .retained token _ :: older =>
      (∀ result, standing capacity token older ≠ some (some result)) ∧ Legal capacity older

/-- The number of retentions in a stretch of the log. -/
def retentions (log : List (Event Token)) : ℕ :=
  log.countP fun event => event matches .retained _ _

/-- The event is about the token. -/
def Event.About (token : Token) : Event Token → Prop
  | .admitted other => other = token
  | .retained other _ => other = token
  | .cleared => False

/-- A result that is followed by fewer than `capacity` retentions, and by no
`Clear`, is still the newest word on its token. -/
theorem latest_of_retained {capacity : ℕ} {token : Token} {result : AckResultV1}
    {newer older : List (Event Token)}
    (hlegal : Legal capacity (newer ++ .retained token result :: older))
    (hclear : .cleared ∉ newer) (hfew : retentions newer < capacity) :
    latest token (newer ++ .retained token result :: older) =
      some (some result, retentions newer) := by
  induction newer with
  | nil => simp [latest, retentions]
  | cons event newer ih =>
      rw [List.mem_cons, not_or] at hclear
      cases event with
      | cleared => exact absurd rfl hclear.1
      | admitted other =>
          have hnewer := ih hlegal.2 hclear.2 (by simpa [retentions] using hfew)
          have hother : other ≠ token := by
            rintro rfl
            have hfew' : retentions newer < capacity := by simpa [retentions] using hfew
            simpa [standing, hnewer, hfew'] using hlegal.1
          simpa [latest, hother, retentions] using hnewer
      | retained other otherResult =>
          have hfew' : retentions newer + 1 < capacity := by simpa [retentions] using hfew
          have hnewer := ih hlegal.2 hclear.2 (Nat.lt_of_succ_lt hfew')
          have hother : other ≠ token := by
            rintro rfl
            refine hlegal.1 result ?_
            simp [standing, hnewer, Nat.lt_of_succ_lt hfew']
          simp [latest, hother, hnewer, retentions]

/-- An admission stays the newest word until the token's own result. -/
theorem latest_of_admitted {capacity : ℕ} {token : Token} {newer older : List (Event Token)}
    (hlegal : Legal capacity (newer ++ .admitted token :: older))
    (hclear : .cleared ∉ newer) (hopen : ∀ result, .retained token result ∉ newer) :
    ∃ later, latest token (newer ++ .admitted token :: older) = some (none, later) := by
  induction newer with
  | nil => exact ⟨0, by simp [latest]⟩
  | cons event newer ih =>
      rw [List.mem_cons, not_or] at hclear
      have hopen' (result : AckResultV1) : .retained token result ∉ newer :=
        fun hmem => hopen result (List.mem_cons_of_mem _ hmem)
      cases event with
      | cleared => exact absurd rfl hclear.1
      | admitted other =>
          obtain ⟨later, hnewer⟩ := ih hlegal.2 hclear.2 hopen'
          by_cases hother : other = token
          · exact ⟨0, by simp [latest, hother]⟩
          · exact ⟨later, by simpa [latest, hother] using hnewer⟩
      | retained other otherResult =>
          obtain ⟨later, hnewer⟩ := ih hlegal.2 hclear.2 hopen'
          have hother : other ≠ token := by
            rintro rfl
            exact hopen otherResult List.mem_cons_self
          exact ⟨later + 1, by simp [latest, hother, hnewer]⟩

/-- The newest result of a token splits the log. -/
theorem exists_split_of_latest {token : Token} {result : AckResultV1} {later : ℕ}
    {log : List (Event Token)} (hlatest : latest token log = some (some result, later)) :
    ∃ front back, log = front ++ .retained token result :: back ∧ .cleared ∉ front ∧
      retentions front = later := by
  induction log generalizing later with
  | nil => simp [latest] at hlatest
  | cons event older ih =>
      cases event with
      | cleared => simp [latest] at hlatest
      | admitted other =>
          by_cases hother : other = token
          · simp [latest, hother] at hlatest
          · rw [latest, if_neg hother] at hlatest
            obtain ⟨front, back, rfl, hclear, hcount⟩ := ih hlatest
            exact ⟨.admitted other :: front, back, rfl, by simp [hclear],
              by simpa [retentions] using hcount⟩
      | retained other otherResult =>
          by_cases hother : other = token
          · simp only [latest, hother, if_true, Option.some.injEq, Prod.mk.injEq] at hlatest
            obtain ⟨rfl, rfl⟩ := hlatest
            exact ⟨[], older, by simp [hother], by simp, rfl⟩
          · simp only [latest, hother, if_false, Option.map_eq_some_iff, Prod.mk.injEq,
              Prod.exists] at hlatest
            obtain ⟨_, before, hbefore, rfl, rfl⟩ := hlatest
            obtain ⟨front, back, rfl, hclear, hcount⟩ := ih hbefore
            exact ⟨.retained other otherResult :: front, back, rfl, by simp [hclear],
              by simpa [retentions] using hcount⟩

/-- Nothing was recorded about the token since the last `Clear`. -/
theorem cleared_of_latest_none {token : Token} {newer older : List (Event Token)}
    {event : Event Token} (hevent : event.About token)
    (hlatest : latest token (newer ++ event :: older) = none) : .cleared ∈ newer := by
  induction newer with
  | nil => cases event <;> simp_all [latest, Event.About]
  | cons head newer ih =>
      cases head with
      | cleared => exact List.mem_cons_self
      | admitted other =>
          by_cases hother : other = token
          · simp [latest, hother] at hlatest
          · exact List.mem_cons_of_mem _ (ih (by simpa [latest, hother] using hlatest))
      | retained other otherResult =>
          by_cases hother : other = token
          · simp [latest, hother] at hlatest
          · exact List.mem_cons_of_mem _ (ih (by simpa [latest, hother] using hlatest))

/-! ## The invariant -/

/-- A registry and its log. -/
structure Observed (Token Fingerprint : Type) where
  registry : AckRegistry Token Fingerprint
  log : List (Event Token)

structure Consistent (state : Observed Token Fingerprint) : Prop where
  legal : Legal state.registry.completionOrder.capacity state.log
  entries_eq : ∀ token, (state.registry.entries token).map Entry.result =
    standing state.registry.completionOrder.capacity token state.log
  ring_eq : (contents state.registry.completionOrder).reverse =
    (retainedSince state.log).take state.registry.completionOrder.capacity
  ring_nodup : (contents state.registry.completionOrder).Nodup
  mem_ring : ∀ token, token ∈ contents state.registry.completionOrder ↔
    ∃ entry, state.registry.entries token = some entry ∧ entry.result.isSome
  lane_iff : ∀ lane token, state.registry.processingByLane lane = some token ↔
    ∃ entry, state.registry.entries token = some entry ∧ entry.result = none ∧
      entry.lane = some lane

theorem consistent_create (capacity : ℕ) :
    Consistent (⟨create capacity, []⟩ : Observed Token Fingerprint) where
  legal := trivial
  entries_eq := fun _ => rfl
  ring_eq := by simp [create, retainedSince]
  ring_nodup := List.nodup_nil
  mem_ring := by simp [create]
  lane_iff := by simp [create]

/-- The token about to be overwritten is the one with `capacity - 1` later
retentions. -/
theorem Consistent.latest_oldest {state : Observed Token Fingerprint}
    (hstate : Consistent state) {token : Token}
    (holdest : oldest state.registry.completionOrder = some token) :
    ∃ result, latest token state.log =
      some (some result, state.registry.completionOrder.capacity - 1) := by
  obtain ⟨entry, hentry, hresult⟩ :=
    (hstate.mem_ring token).mp (mem_contents_of_oldest holdest)
  obtain ⟨result, hresult⟩ := Option.isSome_iff_exists.mp hresult
  have hstanding := hstate.entries_eq token
  rw [hentry, Option.map_some, hresult, standing] at hstanding
  cases hlatest : latest token state.log with
  | none => simp [hlatest] at hstanding
  | some newest =>
      obtain ⟨newestResult, later⟩ := newest
      cases newestResult with
      | none => simp [hlatest] at hstanding
      | some newestResult =>
          simp only [hlatest] at hstanding
          split_ifs at hstanding with hlater
          have hplace := retainedSince_latest hlatest
          have hnodup := List.nodup_reverse.mpr hstate.ring_nodup
          rw [oldest_eq] at holdest
          rw [hstate.ring_eq] at hnodup holdest
          have htaken : ((retainedSince state.log).take
              state.registry.completionOrder.capacity)[later]? = some token := by
            rw [List.getElem?_take_of_lt hlater, hplace]
          have hsame : later = state.registry.completionOrder.capacity - 1 :=
            (List.getElem?_inj (List.getElem?_eq_some_iff.mp htaken).1 hnodup).mp
              (htaken.trans holdest.symm)
          exact ⟨newestResult, by rw [hsame]⟩

/-- A result with `capacity - 1` later retentions is the next one to go. -/
theorem Consistent.oldest_of_latest {state : Observed Token Fingerprint}
    (hstate : Consistent state) {token : Token} {result : AckResultV1}
    (hlatest : latest token state.log =
      some (some result, state.registry.completionOrder.capacity - 1)) :
    oldest state.registry.completionOrder = some token := by
  have hpos := state.registry.completionOrder.capacity_pos
  rw [oldest_eq, hstate.ring_eq, List.getElem?_take_of_lt (Nat.sub_lt hpos Nat.one_pos)]
  exact retainedSince_latest hlatest

/-- Retaining one more result ages every other one by one. -/
theorem Consistent.standing_retained {state : Observed Token Fingerprint}
    (hstate : Consistent state) {token other : Token} (hother : other ≠ token)
    (result : AckResultV1) :
    standing state.registry.completionOrder.capacity other
        (.retained token result :: state.log) =
      if oldest state.registry.completionOrder = some other then none
      else standing state.registry.completionOrder.capacity other state.log := by
  have hpos := state.registry.completionOrder.capacity_pos
  rw [standing, latest, if_neg hother.symm]
  split_ifs with holdest
  · obtain ⟨oldResult, hlatest⟩ := hstate.latest_oldest holdest
    simp [hlatest, Nat.sub_add_cancel hpos]
  · rw [standing]
    cases hlatest : latest other state.log with
    | none => rfl
    | some newest =>
        obtain ⟨newestResult, later⟩ := newest
        cases newestResult with
        | none => rfl
        | some newestResult =>
            have hnot : later ≠ state.registry.completionOrder.capacity - 1 := by
              intro hlater
              exact holdest (hstate.oldest_of_latest (hlater ▸ hlatest))
            have hiff : later + 1 < state.registry.completionOrder.capacity ↔
                later < state.registry.completionOrder.capacity := by omega
            simp [hiff]

/-- The entries after a retention: the token has its result, the overwritten
token is gone, the others are as they were. -/
theorem retain_entries {registry : AckRegistry Token Fingerprint} {token : Token}
    (hfresh : token ∉ contents registry.completionOrder) (entry : Entry Fingerprint)
    (lanes : UInt64 → Option Token) (other : Token) :
    (retainCompletedLocked
        { registry with
          entries := Function.update registry.entries token (some entry)
          processingByLane := lanes } token).entries other =
      if other = token then some entry
      else if oldest registry.completionOrder = some other then none
      else registry.entries other := by
  simp only [retainCompletedLocked]
  cases holdest : oldest registry.completionOrder with
  | none => by_cases hother : other = token <;> simp [Function.update, hother]
  | some evicted =>
      have hevicted : evicted ≠ token := by
        rintro rfl
        exact hfresh (mem_contents_of_oldest holdest)
      by_cases hother : other = token
      · simp [hother, Function.update, hevicted.symm]
      · by_cases hgone : evicted = other
        · simp [hother, hgone]
        · simp [hother, hgone, Function.update, Ne.symm hgone]

/-- A token without a result is not in the ring. -/
theorem Consistent.fresh_of_open {state : Observed Token Fingerprint}
    (hstate : Consistent state) {token : Token}
    (hopen : ∀ before, state.registry.entries token = some before → before.result = none) :
    token ∉ contents state.registry.completionOrder := by
  intro hmem
  obtain ⟨before, hbefore, hsome⟩ := (hstate.mem_ring token).mp hmem
  simp [hopen before hbefore] at hsome

/-- The token was not Completed: it becomes the newest retained one. -/
theorem Consistent.retain {state : Observed Token Fingerprint} (hstate : Consistent state)
    {token : Token} {entry : Entry Fingerprint} {result : AckResultV1}
    (hresult : entry.result = some result)
    (hopen : ∀ before, state.registry.entries token = some before → before.result = none)
    {lanes : UInt64 → Option Token}
    (hlanes : ∀ lane other, lanes lane = some other ↔
      other ≠ token ∧ state.registry.processingByLane lane = some other) :
    Consistent (⟨retainCompletedLocked
        { state.registry with
          entries := Function.update state.registry.entries token (some entry)
          processingByLane := lanes } token,
      .retained token result :: state.log⟩ : Observed Token Fingerprint) := by
  have hfresh := hstate.fresh_of_open hopen
  have hentries := retain_entries hfresh entry lanes
  refine ⟨?_, ?_, ?_, ?_, ?_, ?_⟩
  · simp only [retainCompletedLocked, capacity_push]
    refine ⟨fun before hstanding => ?_, hstate.legal⟩
    rw [← hstate.entries_eq, Option.map_eq_some_iff] at hstanding
    obtain ⟨entryBefore, hentry, hbefore⟩ := hstanding
    simp [hopen entryBefore hentry] at hbefore
  · intro other
    rw [hentries]
    by_cases hother : other = token
    · simp [hother, hresult, standing, latest, retainCompletedLocked,
        state.registry.completionOrder.capacity_pos]
    · simp only [hother, if_false, retainCompletedLocked, capacity_push]
      rw [hstate.standing_retained hother]
      split_ifs
      · rfl
      · exact hstate.entries_eq other
  · simp only [retainCompletedLocked, capacity_push, retainedSince]
    rw [reverse_contents_push, hstate.ring_eq, take_cons_capacity, take_cons_capacity,
      List.take_take, Nat.min_eq_left (Nat.sub_le _ _)]
  · exact nodup_contents_push hstate.ring_nodup hfresh
  · intro other
    rw [hentries]
    simp only [retainCompletedLocked]
    rw [mem_contents_push hstate.ring_nodup, hstate.mem_ring]
    by_cases hother : other = token
    · simp [hother, hresult]
    · by_cases hgone : oldest state.registry.completionOrder = some other
      · simp [hother, hgone]
      · simp [hother, hgone]
  · intro lane other
    rw [hentries]
    show lanes lane = some other ↔ _
    rw [hlanes, hstate.lane_iff]
    by_cases hother : other = token
    · simp [hother, hresult]
    · by_cases hgone : oldest state.registry.completionOrder = some other
      · obtain ⟨before, hbefore, hsome⟩ :=
          (hstate.mem_ring other).mp (mem_contents_of_oldest hgone)
        obtain ⟨_, hsome⟩ := Option.isSome_iff_exists.mp hsome
        simp [hother, hgone, hbefore, hsome]
      · simp [hother, hgone]

/-- An absent token whose lane is free becomes Processing. -/
theorem Consistent.admitToken {state : Observed Token Fingerprint}
    (hstate : Consistent state) {token : Token} {fingerprint : Fingerprint}
    {lane : Option UInt64} (habsent : state.registry.entries token = none)
    (hfree : lane.bind state.registry.processingByLane = none) :
    Consistent (⟨{ state.registry with
        entries := Function.update state.registry.entries token
          (some ⟨fingerprint, lane, none⟩)
        processingByLane := occupyLane state.registry.processingByLane token lane },
      .admitted token :: state.log⟩ : Observed Token Fingerprint) := by
  have hstanding := hstate.entries_eq token
  rw [habsent, Option.map_none] at hstanding
  refine ⟨⟨hstanding.symm, hstate.legal⟩, ?_, hstate.ring_eq, hstate.ring_nodup, ?_, ?_⟩
  · intro other
    by_cases hother : other = token
    · simp [hother, standing, latest]
    · simpa [hother, standing, latest, Ne.symm hother] using hstate.entries_eq other
  · intro other
    rw [hstate.mem_ring]
    by_cases hother : other = token
    · simp [hother, habsent]
    · simp [hother]
  · intro otherLane other
    have hlane := hstate.lane_iff otherLane other
    have hunmapped : state.registry.processingByLane otherLane ≠ some token := by
      simp [hstate.lane_iff, habsent]
    cases lane with
    | none =>
        by_cases hother : other = token
        · simp [occupyLane, hother, hunmapped]
        · simp [occupyLane, hother, hlane]
    | some lane =>
        have hidle : state.registry.processingByLane lane = none := hfree
        by_cases hsame : otherLane = lane
        · subst hsame
          by_cases hother : other = token
          · simp [occupyLane, hother]
          · simpa [occupyLane, hother, Ne.symm hother, hidle] using hlane
        · by_cases hother : other = token
          · simp [occupyLane, hother, hsame, hunmapped, Ne.symm hsame]
          · simp [occupyLane, hother, hsame, hlane]

theorem Consistent.clear {state : Observed Token Fingerprint} (hstate : Consistent state) :
    Consistent (⟨clear state.registry, .cleared :: state.log⟩ :
      Observed Token Fingerprint) where
  legal := hstate.legal
  entries_eq := fun _ => rfl
  ring_eq := by simp [Registry.clear, retainedSince]
  ring_nodup := List.nodup_nil
  mem_ring := by simp [Registry.clear]
  lane_iff := by simp [Registry.clear]

/-! ## Operations -/

variable [DecidableEq Fingerprint]

/-- What a claim can do: refuse a known token, find its lane busy, run out of
memory or admit. -/
theorem claimLocked_cases (memory : Memory) (registry : AckRegistry Token Fingerprint)
    (token : Token) (fingerprint : Fingerprint) (lane : Option UInt64)
    (busy : Option AckResultV1) :
    (registry.entries token ≠ none ∧ ∃ outcome, outcome ≠ .admitted ∧ outcome ≠ .laneBusy ∧
      claimLocked memory registry token fingerprint lane busy = (registry, some outcome)) ∨
    (registry.entries token = none ∧ busy = none ∧
      claimLocked memory registry token fingerprint lane busy = (registry, some .laneBusy)) ∨
    (registry.entries token = none ∧ ∃ result, busy = some result ∧
      claimLocked memory registry token fingerprint lane busy =
        (retainCompletedLocked
          { registry with
            entries := Function.update registry.entries token
              (some ⟨fingerprint, lane, some result⟩) } token, some .laneBusy)) ∨
    (registry.entries token = none ∧
      claimLocked memory registry token fingerprint lane busy = (registry, none)) ∨
    (registry.entries token = none ∧ lane.bind registry.processingByLane = none ∧
      claimLocked memory registry token fingerprint lane busy =
        ({ registry with
            entries := Function.update registry.entries token
              (some ⟨fingerprint, lane, none⟩)
            processingByLane := occupyLane registry.processingByLane token lane },
          some .admitted)) := by
  cases hentry : registry.entries token with
  | some entry =>
      left
      simp only [claimLocked, hentry]
      split_ifs
      · exact ⟨by simp, .collision, by simp, by simp, rfl⟩
      · exact ⟨by simp, .duplicateCompleted, by simp, by simp, rfl⟩
      · exact ⟨by simp, .duplicateProcessing, by simp, by simp, rfl⟩
  | none =>
      right
      by_cases hbusy : (lane.bind registry.processingByLane).isSome
      · cases busy with
        | none => exact .inl ⟨rfl, rfl, by simp [claimLocked, hentry, hbusy]⟩
        | some result =>
            exact .inr (.inl ⟨rfl, result, rfl, by simp [claimLocked, hentry, hbusy]⟩)
      · have hfree : lane.bind registry.processingByLane = none := by simpa using hbusy
        cases memory with
        | exhausted =>
            -- taking the entry back restores the map
            have hrestored : Function.update registry.entries token none =
                registry.entries := by
              rw [← hentry, Function.update_eq_self]
            exact .inr (.inr (.inl ⟨rfl, by
              simp [claimLocked, hentry, hfree, hrestored]⟩))
        | available =>
            exact .inr (.inr (.inr ⟨rfl, hfree, by simp [claimLocked, hentry, hfree]⟩))

inductive Operation (Token Fingerprint : Type) where
  | claim (memory : Memory) (token : Token) (fingerprint : Fingerprint) (lane : UInt64)
  | claimIndependent (memory : Memory) (token : Token) (fingerprint : Fingerprint)
  | claimOrReject (memory : Memory) (token : Token) (fingerprint : Fingerprint)
      (lane : UInt64) (laneBusyResult : AckResultV1)
  | complete (token : Token) (result : AckResultV1)
  | recordRejected (token : Token) (fingerprint : Fingerprint) (result : AckResultV1)
  | find (token : Token)
  | clear

/-- What a claim adds to the log. -/
def claimEvents (token : Token) (busy : Option AckResultV1) :
    Option ClaimOutcome → List (Event Token)
  | some .admitted => [.admitted token]
  | some .laneBusy => busy.toList.map (.retained token)
  | _ => []

def applyClaim (state : Observed Token Fingerprint) (memory : Memory) (token : Token)
    (fingerprint : Fingerprint) (lane : Option UInt64) (busy : Option AckResultV1) :
    Observed Token Fingerprint :=
  let (registry, outcome) := claimLocked memory state.registry token fingerprint lane busy
  ⟨registry, claimEvents token busy outcome ++ state.log⟩

/-- Applies an operation and logs what it did. -/
def apply (state : Observed Token Fingerprint) :
    Operation Token Fingerprint → Observed Token Fingerprint
  | .claim memory token fingerprint lane =>
      applyClaim state memory token fingerprint (some lane) none
  | .claimIndependent memory token fingerprint =>
      applyClaim state memory token fingerprint none none
  | .claimOrReject memory token fingerprint lane laneBusyResult =>
      applyClaim state memory token fingerprint (some lane) (some laneBusyResult)
  | .complete token result =>
      let (registry, done) := complete state.registry token result
      ⟨registry, if done then .retained token result :: state.log else state.log⟩
  | .recordRejected token fingerprint result =>
      let (registry, done) := recordRejected state.registry token fingerprint result
      ⟨registry, if done then .retained token result :: state.log else state.log⟩
  | .find _ => state
  | .clear => ⟨clear state.registry, .cleared :: state.log⟩

/-- The registry and its log after a sequence of operations. -/
def runFrom (state : Observed Token Fingerprint) (operations : List (Operation Token Fingerprint)) :
    Observed Token Fingerprint :=
  operations.foldl apply state

theorem Consistent.applyClaim {state : Observed Token Fingerprint}
    (hstate : Consistent state) (memory : Memory) (token : Token)
    (fingerprint : Fingerprint) (lane : Option UInt64) (busy : Option AckResultV1) :
    Consistent (applyClaim state memory token fingerprint lane busy) := by
  rcases claimLocked_cases memory state.registry token fingerprint lane busy with
    ⟨_, outcome, hadmitted, hbusy, hclaim⟩ | ⟨_, rfl, hclaim⟩ |
    ⟨habsent, result, rfl, hclaim⟩ | ⟨_, hclaim⟩ | ⟨habsent, hfree, hclaim⟩
  · have hnothing : claimEvents token busy (some outcome) = [] := by
      cases outcome <;> first | rfl | contradiction
    simpa [AckHistory.applyClaim, hclaim, hnothing] using hstate
  · simpa [AckHistory.applyClaim, hclaim, claimEvents] using hstate
  · simp only [AckHistory.applyClaim, hclaim, claimEvents]
    have hopen : ∀ before, state.registry.entries token = some before → before.result = none := by
      simp [habsent]
    refine hstate.retain rfl hopen fun otherLane other => ?_
    have hlane := hstate.lane_iff otherLane other
    constructor
    · intro hother
      refine ⟨?_, hother⟩
      rintro rfl
      simp [hlane, habsent] at hother
    · exact fun hother => hother.2
  · simpa [AckHistory.applyClaim, hclaim, claimEvents] using hstate
  · simpa [AckHistory.applyClaim, hclaim, claimEvents] using
      hstate.admitToken habsent hfree

theorem releaseLane_iff {processingByLane : UInt64 → Option Token} {token : Token}
    {lane : Option UInt64}
    (howner : ∀ other, processingByLane other = some token ↔ lane = some other)
    (otherLane : UInt64) (other : Token) :
    releaseLane processingByLane token lane otherLane = some other ↔
      other ≠ token ∧ processingByLane otherLane = some other := by
  by_cases hother : other = token
  · subst hother
    cases lane with
    | none => simpa [releaseLane] using howner otherLane
    | some lane =>
        have hmapped : processingByLane lane = some other := (howner lane).mpr rfl
        by_cases hsame : otherLane = lane
        · simp [releaseLane, hmapped, hsame]
        · have := howner otherLane
          simp [releaseLane, hmapped, hsame, this, Ne.symm hsame]
  · cases lane with
    | none => simp [releaseLane, hother]
    | some lane =>
        have hmapped : processingByLane lane = some token := (howner lane).mpr rfl
        by_cases hsame : otherLane = lane
        · simp [releaseLane, hmapped, hsame, Ne.symm hother]
        · simp [releaseLane, hmapped, hsame, hother]

theorem Consistent.complete {state : Observed Token Fingerprint}
    (hstate : Consistent state) (token : Token) (result : AckResultV1) :
    Consistent (apply state (.complete token result)) := by
  cases hentry : state.registry.entries token with
  | none => simpa [AckHistory.apply, Registry.complete, hentry] using hstate
  | some entry =>
      by_cases hdone : entry.result.isSome
      · simpa [AckHistory.apply, Registry.complete, hentry, hdone] using hstate
      · have hopen : entry.result = none := by simpa using hdone
        simp only [AckHistory.apply, Registry.complete, hentry, hdone]
        refine hstate.retain rfl (by simp [hentry, hopen]) ?_
        apply releaseLane_iff
        intro lane
        simp [hstate.lane_iff, hentry, hopen]

theorem Consistent.recordRejected {state : Observed Token Fingerprint}
    (hstate : Consistent state) (token : Token) (fingerprint : Fingerprint)
    (result : AckResultV1) :
    Consistent (apply state (.recordRejected token fingerprint result)) := by
  cases hentry : state.registry.entries token with
  | some entry => simpa [AckHistory.apply, Registry.recordRejected, hentry] using hstate
  | none =>
      simp only [AckHistory.apply, Registry.recordRejected, hentry]
      refine hstate.retain rfl (by simp [hentry]) fun lane other => ?_
      refine ⟨fun hother => ⟨?_, hother⟩, fun hother => hother.2⟩
      rintro rfl
      simp [hstate.lane_iff, hentry] at hother

theorem consistent_runFrom {state : Observed Token Fingerprint} (hstate : Consistent state)
    (operations : List (Operation Token Fingerprint)) :
    Consistent (runFrom state operations) := by
  induction operations generalizing state with
  | nil => exact hstate
  | cons operation operations ih =>
      apply ih
      cases operation with
      | claim memory token fingerprint lane =>
          exact hstate.applyClaim memory token fingerprint (some lane) none
      | claimIndependent memory token fingerprint =>
          exact hstate.applyClaim memory token fingerprint none none
      | claimOrReject memory token fingerprint lane result =>
          exact hstate.applyClaim memory token fingerprint (some lane) (some result)
      | complete token result => exact hstate.complete token result
      | recordRejected token fingerprint result =>
          exact hstate.recordRejected token fingerprint result
      | find token => exact hstate
      | clear => exact hstate.clear

/-! ## What an operation leaves of the other tokens -/

/-- The other tokens keep their entries, except that a Completed one may be
evicted. -/
def KeepsOthers (before after : AckRegistry Token Fingerprint) (token : Token) : Prop :=
  ∀ other, other ≠ token → after.entries other = before.entries other ∨
    (after.entries other = none ∧
      ∃ entry, before.entries other = some entry ∧ entry.result.isSome)

omit [DecidableEq Fingerprint] in
theorem Consistent.keepsOthers_retain {state : Observed Token Fingerprint}
    (hstate : Consistent state) {token : Token}
    (hopen : ∀ before, state.registry.entries token = some before → before.result = none)
    (entry : Entry Fingerprint) (lanes : UInt64 → Option Token) :
    KeepsOthers state.registry (retainCompletedLocked
      { state.registry with
        entries := Function.update state.registry.entries token (some entry)
        processingByLane := lanes } token) token := by
  intro other hother
  rw [retain_entries (hstate.fresh_of_open hopen) entry lanes other, if_neg hother]
  by_cases holdest : oldest state.registry.completionOrder = some other
  · right
    exact ⟨if_pos holdest, (hstate.mem_ring other).mp (mem_contents_of_oldest holdest)⟩
  · left
    exact if_neg holdest

omit [DecidableEq Fingerprint] in
/-- A rejection is retained exactly when the token is unknown. -/
theorem Consistent.recordRejected_cases {state : Observed Token Fingerprint}
    (hstate : Consistent state) (token : Token) (fingerprint : Fingerprint)
    (result : AckResultV1) :
    Registry.recordRejected state.registry token fingerprint result = (state.registry, false) ∨
    ∃ registry, Registry.recordRejected state.registry token fingerprint result = (registry, true) ∧
      state.registry.entries token = none ∧
      registry.entries token = some ⟨fingerprint, none, some result⟩ ∧
      KeepsOthers state.registry registry token := by
  cases hentry : state.registry.entries token with
  | some entry =>
      left
      simp [Registry.recordRejected, hentry]
  | none =>
      right
      have hopen : ∀ before, state.registry.entries token = some before →
          before.result = none := by simp [hentry]
      refine ⟨_, by simp only [Registry.recordRejected, hentry]; rfl, rfl, ?_,
        hstate.keepsOthers_retain hopen _ _⟩
      exact (retain_entries (hstate.fresh_of_open hopen) _ _ token).trans (if_pos rfl)

omit [DecidableEq Fingerprint] in
/-- Completing a Processing token publishes its result. -/
theorem Consistent.complete_entries {state : Observed Token Fingerprint}
    (hstate : Consistent state) {token : Token} {entry : Entry Fingerprint}
    (hentry : state.registry.entries token = some entry) (hopen : entry.result = none)
    (result : AckResultV1) :
    (Registry.complete state.registry token result).1.entries token =
        some { entry with result := some result } ∧
      KeepsOthers state.registry (Registry.complete state.registry token result).1 token := by
  have hbefore : ∀ before, state.registry.entries token = some before →
      before.result = none := by simp [hentry, hopen]
  simp only [Registry.complete, hentry, hopen]
  exact ⟨(retain_entries (hstate.fresh_of_open hbefore) _ _ token).trans (if_pos rfl),
    hstate.keepsOthers_retain hbefore _ _⟩

/-! ## Whole runs -/

/-- A new registry after a sequence of operations, with its log. -/
def runNew (capacity : ℕ) (operations : List (Operation Token Fingerprint)) :
    Observed Token Fingerprint :=
  runFrom ⟨create capacity, []⟩ operations

theorem consistent_runNew (capacity : ℕ) (operations : List (Operation Token Fingerprint)) :
    Consistent (runNew capacity operations) :=
  consistent_runFrom (consistent_create capacity) operations

theorem capacity_applyClaim (state : Observed Token Fingerprint) (memory : Memory)
    (token : Token) (fingerprint : Fingerprint) (lane : Option UInt64)
    (busy : Option AckResultV1) :
    (applyClaim state memory token fingerprint lane busy).registry.completionOrder.capacity =
      state.registry.completionOrder.capacity := by
  rcases claimLocked_cases memory state.registry token fingerprint lane busy with
    ⟨_, outcome, _, _, hclaim⟩ | ⟨_, _, hclaim⟩ | ⟨_, result, _, hclaim⟩ | ⟨_, hclaim⟩ |
    ⟨_, _, hclaim⟩ <;>
    simp [applyClaim, hclaim, retainCompletedLocked]

theorem capacity_runFrom (state : Observed Token Fingerprint)
    (operations : List (Operation Token Fingerprint)) :
    (runFrom state operations).registry.completionOrder.capacity =
      state.registry.completionOrder.capacity := by
  induction operations generalizing state with
  | nil => rfl
  | cons operation operations ih =>
      refine (ih (apply state operation)).trans ?_
      cases operation with
      | claim memory token fingerprint lane =>
          exact capacity_applyClaim state memory token fingerprint (some lane) none
      | claimIndependent memory token fingerprint =>
          exact capacity_applyClaim state memory token fingerprint none none
      | claimOrReject memory token fingerprint lane result =>
          exact capacity_applyClaim state memory token fingerprint (some lane) (some result)
      | complete token result =>
          simp only [apply, complete]
          split
          · rfl
          · split_ifs <;> simp [retainCompletedLocked]
      | recordRejected token fingerprint result =>
          simp only [apply, recordRejected]
          split_ifs <;> simp [retainCompletedLocked]
      | find token => rfl
      | clear => rfl

/-- The token's last result was followed by `capacity` or more retentions. -/
def Evicted (capacity : ℕ) (token : Token) (log : List (Event Token)) : Prop :=
  ∃ result newer older, log = newer ++ .retained token result :: older ∧
    .cleared ∉ newer ∧ capacity ≤ retentions newer

/-- Whatever was recorded about the token was followed by a `Clear`. -/
def ClearedSince (token : Token) (log : List (Event Token)) : Prop :=
  ∀ newer event older, log = newer ++ event :: older → event.About token → .cleared ∈ newer

/-- An absent token was cleared or evicted. -/
theorem cleared_or_evicted {capacity : ℕ} {token : Token} {log : List (Event Token)}
    (hstanding : standing capacity token log = none) :
    ClearedSince token log ∨ Evicted capacity token log := by
  cases hlatest : latest token log with
  | none =>
      left
      intro newer event older hlog habout
      rw [hlog] at hlatest
      exact cleared_of_latest_none habout hlatest
  | some newest =>
      obtain ⟨newestResult, later⟩ := newest
      cases newestResult with
      | none => simp [standing, hlatest] at hstanding
      | some result =>
          right
          have hlater : capacity ≤ later := by
            simpa [standing, hlatest] using hstanding
          obtain ⟨newer, older, hlog, hclear, hcount⟩ := exists_split_of_latest hlatest
          exact ⟨result, newer, older, hlog, hclear, hcount ▸ hlater⟩

theorem legal_of_append {capacity : ℕ} {newer older : List (Event Token)}
    (hlegal : Legal capacity (newer ++ older)) : Legal capacity older := by
  induction newer with
  | nil => exact hlegal
  | cons event newer ih =>
      cases event with
      | cleared => exact ih hlegal
      | admitted token => exact ih hlegal.2
      | retained token result => exact ih hlegal.2

/-- The whole-run guarantees of the registry: its ring, its lanes, how long
results are kept, that Processing tokens stay, which claims change nothing, and
when a token can be admitted again. -/
theorem registry_whole_run (capacity : ℕ) (operations : List (Operation Token Fingerprint)) :
    ((contents (runNew capacity operations).registry.completionOrder).Nodup ∧
      (contents (runNew capacity operations).registry.completionOrder).length ≤
        (if capacity = 0 then 1 else capacity) ∧
      (contents (runNew capacity operations).registry.completionOrder).reverse =
        (retainedSince (runNew capacity operations).log).take
          (if capacity = 0 then 1 else capacity) ∧
      ∀ token, token ∈ contents (runNew capacity operations).registry.completionOrder ↔
        ∃ entry, (runNew capacity operations).registry.entries token = some entry ∧
          entry.result.isSome) ∧
    (∀ lane token,
      (runNew capacity operations).registry.processingByLane lane = some token ↔
        ∃ entry, (runNew capacity operations).registry.entries token = some entry ∧
          entry.result = none ∧ entry.lane = some lane) ∧
    (∀ token result newer older,
      (runNew capacity operations).log = newer ++ .retained token result :: older →
      .cleared ∉ newer → retentions newer < (if capacity = 0 then 1 else capacity) →
      find (runNew capacity operations).registry token = some result) ∧
    (∀ token newer older,
      (runNew capacity operations).log = newer ++ .admitted token :: older →
      .cleared ∉ newer → (∀ result, .retained token result ∉ newer) →
      ∃ entry, (runNew capacity operations).registry.entries token = some entry ∧
        entry.result = none) ∧
    (∀ memory token fingerprint lane busy registry outcome,
      claimLocked memory (runNew capacity operations).registry token fingerprint lane busy =
        (registry, outcome) →
      outcome = none ∨ outcome = some .collision ∨ outcome = some .duplicateProcessing ∨
        outcome = some .duplicateCompleted →
      registry = (runNew capacity operations).registry) ∧
    (∀ token newer older,
      (runNew capacity operations).log = newer ++ .admitted token :: older →
      ClearedSince token older ∨
        Evicted (if capacity = 0 then 1 else capacity) token older) := by
  have hstate := consistent_runNew capacity operations
  have hcapacity : (runNew capacity operations).registry.completionOrder.capacity =
      if capacity = 0 then 1 else capacity := capacity_runFrom _ operations
  refine ⟨⟨hstate.ring_nodup, ?_, ?_, hstate.mem_ring⟩, hstate.lane_iff, ?_, ?_, ?_, ?_⟩
  · exact hcapacity ▸ length_contents_le _
  · exact hcapacity ▸ hstate.ring_eq
  · intro token result newer older hlog hclear hfew
    have hlegal := hstate.legal
    have hentry := hstate.entries_eq token
    rw [hlog, hcapacity] at hlegal hentry
    have hlatest := latest_of_retained hlegal hclear hfew
    simp only [standing, hlatest, if_pos hfew, Option.map_eq_some_iff] at hentry
    obtain ⟨entry, hentry, hresult⟩ := hentry
    simpa [find, hentry] using hresult
  · intro token newer older hlog hclear hopen
    have hlegal := hstate.legal
    have hentry := hstate.entries_eq token
    rw [hlog] at hlegal hentry
    obtain ⟨later, hlatest⟩ := latest_of_admitted hlegal hclear hopen
    simpa [standing, hlatest, Option.map_eq_some_iff] using hentry
  · intro memory token fingerprint lane busy registry outcome hclaim houtcome
    rcases claimLocked_cases memory (runNew capacity operations).registry token fingerprint
        lane busy with
      ⟨_, _, _, _, hcase⟩ | ⟨_, _, hcase⟩ | ⟨_, _, _, hcase⟩ | ⟨_, hcase⟩ | ⟨_, _, hcase⟩
    · exact (Prod.mk.inj (hclaim.symm.trans hcase)).1
    · exact (Prod.mk.inj (hclaim.symm.trans hcase)).1
    · simp [← (Prod.mk.inj (hcase.symm.trans hclaim)).2] at houtcome
    · exact (Prod.mk.inj (hclaim.symm.trans hcase)).1
    · simp [← (Prod.mk.inj (hcase.symm.trans hclaim)).2] at houtcome
  · intro token newer older hlog
    have hlegal := hstate.legal
    rw [hlog] at hlegal
    have hadmitted := (legal_of_append hlegal).1
    rw [← hcapacity]
    exact cleared_or_evicted hadmitted

end Sitos.AckHistory

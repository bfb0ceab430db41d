import Sitos.Core.Machine
import Sitos.Core.Recency
import Sitos.Wire.KeySpace
import Sitos.Wire.Sample

/-!
# Recovery of a cache

An attached cache follows the generations that its session announces.  The liveliness
callback, the attaching caller and the recovery worker share one record under one mutex; a
build of the cache's state runs outside that mutex and is kept only if no event was counted
since it began.  One step below is one hold of the mutex or one step of a thread between two
holds.  The counter of events is a number; wrapping it would take 2^64 events.
-/

namespace Sitos.CacheRecovery

open Sitos.Bytes
open Sitos.Key
open Sitos.Machine
open Sitos.Recency
open Sitos.Sample

/-- `Impl::Recovery` of one attachment.  The history is the events counted so far. -/
structure Recovery where
  sid : ByteString
  live : List ByteString
  bound : ByteString
  events : ℕ
  armed : Bool
  stop : Bool
  stale : Bool
  history : List (Event ByteString)
  deriving DecidableEq

def freshRecovery (sid : ByteString) : Recovery :=
  { sid, live := [], bound := [], events := 0, armed := false, stop := false, stale := true,
    history := [] }

def onLiveliness (keyPrefix : ByteString) (recovery : Recovery) (sample : TransportSample) :
    Recovery :=
  match parseSessionLivelinessKey keyPrefix recovery.sid sample.key with
  | none => recovery
  | some generation =>
      let announced := sample.kind == .put
      let unbinds := (announced && recovery.bound != generation) ||
        (!announced && recovery.bound == generation)
      { recovery with
        events := recovery.events + 1
        live := note recovery.live ⟨generation, announced⟩
        bound := if unbinds then [] else recovery.bound
        stale := if unbinds then true else recovery.stale
        history := recovery.history ++ [⟨generation, announced⟩] }

/-- A build of the cache's state.  The target and the count were read when it began; how many
events had been counted then, and when each Get was issued, is kept for the proofs. -/
structure Build where
  recovery : ℕ
  target : ByteString
  events : ℕ
  startedAt : ℕ
  gets : List ℕ
  deriving DecidableEq

/-- The most recently announced generation, with an empty text for none. -/
def newest (recovery : Recovery) : ByteString := recovery.live.getLast?.getD []

def beginBuild (id : ℕ) (recovery : Recovery) : Build :=
  { recovery := id, target := newest recovery, events := recovery.events,
    startedAt := recovery.history.length, gets := [] }

/-- A build reads the snapshot and then the overlay. -/
def kGets : ℕ := 2

def issueGet (recovery : Recovery) (build : Build) : Build :=
  { build with gets := build.gets ++ [recovery.history.length] }

/-- Where the recovery worker of one attachment stands. -/
inductive Worker where
  | absent
  | waiting
  | building (build : Build)
  | built (build : Build) (ok : Bool)
  | quiescing
  | cleaning (build : Build) (ok : Bool)
  | retrying
  | exited
  deriving DecidableEq

/-- Where the holder of the lifecycle mutex stands. -/
inductive Lifecycle where
  | idle
  | declared (id : ℕ)
  | building (build : Build)
  | candidate (build : Build)
  | started (build : Build)
  | published (build : Build)
  | bound (id : ℕ)
  | stopping (id : ℕ)
  | joining (id : ℕ)
  | quiescing
  deriving DecidableEq

/-- Attachments are numbered.  A late callback may still reach an earlier one. -/
structure Cache where
  count : ℕ
  recoveries : ℕ → Recovery
  workers : ℕ → Worker
  lifecycle : Lifecycle
  activeState : Option Build
  recovery : Option ℕ

def start : Cache :=
  { count := 0, recoveries := fun _ => freshRecovery [], workers := fun _ => .absent,
    lifecycle := .idle, activeState := none, recovery := none }

inductive Action where
  | liveliness (id : ℕ) (sample : TransportSample)
  | attach (sid : ByteString) (declared : Bool)
  | capture
  | attachGet
  | attachBuilt (ok : Bool)
  | startWorker (ok : Bool)
  | publish
  | bind
  | storeRecovery
  | detach
  | stop
  | join
  | quiesce
  | worker (id : ℕ) (ok : Bool)
  deriving DecidableEq

def Cache.setRecovery (cache : Cache) (id : ℕ) (recovery : Recovery) : Cache :=
  { cache with recoveries := Function.update cache.recoveries id recovery }

def Cache.setWorker (cache : Cache) (id : ℕ) (worker : Worker) : Cache :=
  { cache with workers := Function.update cache.workers id worker }

/-- The critical section that ends an attach. -/
def bindAttached (recovery : Recovery) (build : Build) : Recovery :=
  let bound :=
    if build.target ≠ [] ∧ recovery.events = build.events then build.target else recovery.bound
  { recovery with bound, stale := bound.isEmpty, armed := true }

/-- The bind of a rebuild that saw every event. -/
def bindRebuilt (recovery : Recovery) (build : Build) : Recovery :=
  { recovery with bound := build.target, stale := false }

/-- One step of the recovery loop.  A refused step is a wait; `ok` is false when the build fails
or throws at this point. -/
def workerStep (cache : Cache) (id : ℕ) (ok : Bool) : Option Cache :=
  let recovery := cache.recoveries id
  match cache.workers id with
  | .absent | .exited => none
  | .waiting =>
      if recovery.stop then some (cache.setWorker id .exited)
      else if recovery.armed ∧ recovery.bound = [] ∧ recovery.live ≠ [] then
        some (cache.setWorker id (.building (beginBuild id recovery)))
      else none
  | .building build =>
      if !ok then some (cache.setWorker id (.built build false))
      else if build.gets.length = kGets then some (cache.setWorker id (.built build true))
      else if recovery.stop then some (cache.setWorker id (.built build false))
      else some (cache.setWorker id (.building (issueGet recovery build)))
  | .built build ok =>
      if ok ∧ !recovery.stop ∧ recovery.events = build.events then
        -- the check, the swap and the bind are one step with respect to the callbacks
        let cache := cache.setRecovery id (bindRebuilt recovery build)
        some { cache.setWorker id .quiescing with activeState := some build }
      else some (cache.setWorker id (.cleaning build ok))
  | .quiescing => some (cache.setWorker id .waiting)
  | .cleaning build ok =>
      if !ok ∧ recovery.events = build.events then some (cache.setWorker id .retrying)
      else some (cache.setWorker id .waiting)
  | .retrying => some (cache.setWorker id .waiting)

def step (keyPrefix : ByteString) (cache : Cache) : Action → Option Cache
  | .liveliness id sample =>
      if id < cache.count then
        some (cache.setRecovery id (onLiveliness keyPrefix (cache.recoveries id) sample))
      else none
  | .attach sid declared =>
      if cache.lifecycle ≠ .idle then none
      else if !isValidSessionId sid ∨ cache.activeState.isSome ∨ !declared then some cache
      else
        some { cache.setRecovery cache.count (freshRecovery sid) with
          count := cache.count + 1, lifecycle := .declared cache.count }
  | .capture =>
      match cache.lifecycle with
      | .declared id =>
          some { cache with lifecycle := .building (beginBuild id (cache.recoveries id)) }
      | _ => none
  | .attachGet =>
      match cache.lifecycle with
      | .building build =>
          if build.gets.length = kGets then none
          else
            some { cache with
              lifecycle := .building (issueGet (cache.recoveries build.recovery) build) }
      | _ => none
  | .attachBuilt ok =>
      match cache.lifecycle with
      | .building build =>
          if !ok then some { cache with lifecycle := .idle }
          else if build.gets.length = kGets then some { cache with lifecycle := .candidate build }
          else none
      | _ => none
  | .startWorker ok =>
      match cache.lifecycle with
      | .candidate build =>
          if !ok then some { cache with lifecycle := .idle }
          else
            some { cache.setWorker build.recovery .waiting with lifecycle := .started build }
      | _ => none
  | .publish =>
      match cache.lifecycle with
      | .started build =>
          some { cache with activeState := some build, lifecycle := .published build }
      | _ => none
  | .bind =>
      match cache.lifecycle with
      | .published build =>
          some { cache.setRecovery build.recovery
              (bindAttached (cache.recoveries build.recovery) build) with
            lifecycle := .bound build.recovery }
      | _ => none
  | .storeRecovery =>
      match cache.lifecycle with
      | .bound id => some { cache with recovery := some id, lifecycle := .idle }
      | _ => none
  | .detach =>
      if cache.lifecycle ≠ .idle then none
      else
        match cache.recovery with
        | some id => some { cache with recovery := none, lifecycle := .stopping id }
        | none => some { cache with lifecycle := .quiescing }
  | .stop =>
      match cache.lifecycle with
      | .stopping id =>
          some { cache.setRecovery id { cache.recoveries id with stop := true } with
            lifecycle := .joining id }
      | _ => none
  | .join =>
      match cache.lifecycle with
      | .joining id =>
          if cache.workers id = .exited then some { cache with lifecycle := .quiescing } else none
      | _ => none
  | .quiesce =>
      match cache.lifecycle with
      | .quiescing => some { cache with activeState := none, lifecycle := .idle }
      | _ => none
  | .worker id ok => if id < cache.count then workerStep cache id ok else none

/-! ## What every recovery satisfies -/

structure Sound (recovery : Recovery) : Prop where
  counted : recovery.events = recovery.history.length
  lists : Lists recovery.history recovery.live
  named : ∀ event ∈ recovery.history, event.key ≠ []
  bound_last : recovery.bound ≠ [] → recovery.live.getLast? = some recovery.bound
  stale_iff : recovery.armed = true → (recovery.stale = true ↔ recovery.bound = [])
  unarmed : recovery.armed = false → recovery.bound = []

/-- What a build relies on while it runs outside the mutex. -/
structure Kept (recovery : Recovery) (build : Build) : Prop where
  events_eq : build.events = build.startedAt
  started : build.startedAt ≤ recovery.history.length
  announced : build.target ≠ [] →
    ∃ i < build.startedAt, recovery.history[i]? = some ⟨build.target, true⟩
  newest : recovery.history.length = build.startedAt → build.target ≠ [] →
    recovery.live.getLast? = some build.target
  later : ∀ time ∈ build.gets, build.startedAt ≤ time

/-- A recovery only gains events, and stays armed. -/
structure Grows (recovery next : Recovery) : Prop where
  history : recovery.history <+: next.history
  armed : recovery.armed = true → next.armed = true
  live : next.history = recovery.history → next.live = recovery.live

theorem sound_freshRecovery (sid : ByteString) : Sound (freshRecovery sid) where
  counted := rfl
  lists := lists_nil
  named _ hmem := absurd hmem List.not_mem_nil
  bound_last hbound := absurd rfl hbound
  stale_iff harmed := nomatch harmed
  unarmed _ := rfl

theorem Kept.grows {recovery next : Recovery} {build : Build} (hkept : Kept recovery build)
    (hgrows : Grows recovery next) : Kept next build where
  events_eq := hkept.events_eq
  started := hkept.started.trans hgrows.history.length_le
  announced htarget := by
    obtain ⟨i, hi, hannounced⟩ := hkept.announced htarget
    refine ⟨i, hi, ?_⟩
    obtain ⟨more, hmore⟩ := hgrows.history
    rw [← hmore, List.getElem?_append_left (hi.trans_le hkept.started)]
    exact hannounced
  newest hlength htarget := by
    -- no event was counted since, so the list is the one the build saw
    have hsame : recovery.history.length = build.startedAt :=
      le_antisymm (hlength ▸ hgrows.history.length_le) hkept.started
    have hhistory : recovery.history = next.history :=
      hgrows.history.eq_of_length (hsame.trans hlength.symm)
    rw [hgrows.live hhistory.symm]
    exact hkept.newest hsame htarget
  later := hkept.later

theorem newest_eq_of_ne {recovery : Recovery} (hnewest : newest recovery ≠ []) :
    recovery.live.getLast? = some (newest recovery) := by
  unfold newest at hnewest ⊢
  cases hlast : recovery.live.getLast? with
  | none => simp [hlast] at hnewest
  | some generation => rfl

theorem Sound.kept_beginBuild {recovery : Recovery} (hsound : Sound recovery) (id : ℕ) :
    Kept recovery (beginBuild id recovery) where
  events_eq := hsound.counted
  started := le_refl _
  announced htarget := by
    have hmem := List.mem_of_getLast? (newest_eq_of_ne htarget)
    obtain ⟨before, after, hhistory, -⟩ := (hsound.lists.mem_iff _).mp hmem
    refine ⟨before.length, ?_, ?_⟩
    · simp [beginBuild, hhistory]
    · rw [hhistory]
      simp [beginBuild]
  newest _ htarget := newest_eq_of_ne htarget
  later _ hmem := absurd hmem List.not_mem_nil

theorem Sound.newest_ne {recovery : Recovery} (hsound : Sound recovery) (hlive : recovery.live ≠ []) :
    newest recovery ≠ [] := by
  have hlast : recovery.live.getLast? = some (recovery.live.getLast hlive) :=
    List.getLast?_eq_some_getLast hlive
  have hmem := List.mem_of_getLast? hlast
  obtain ⟨before, after, hhistory, -⟩ := (hsound.lists.mem_iff _).mp hmem
  have hnamed := hsound.named ⟨recovery.live.getLast hlive, true⟩ (by rw [hhistory]; simp)
  rw [newest, hlast]
  exact hnamed

theorem Kept.issueGet {recovery : Recovery} {build : Build} (hkept : Kept recovery build) :
    Kept recovery (issueGet recovery build) where
  events_eq := hkept.events_eq
  started := hkept.started
  announced := hkept.announced
  newest := hkept.newest
  later time hmem := by
    rcases List.mem_append.mp hmem with hmem | hmem
    · exact hkept.later time hmem
    · rw [List.mem_singleton.mp hmem]
      exact hkept.started

theorem grows_onLiveliness (keyPrefix : ByteString) (recovery : Recovery) (sample : TransportSample) :
    Grows recovery (onLiveliness keyPrefix recovery sample) ∧
      (onLiveliness keyPrefix recovery sample).armed = recovery.armed := by
  unfold onLiveliness
  cases parseSessionLivelinessKey keyPrefix recovery.sid sample.key with
  | none => exact ⟨⟨List.prefix_refl _, id, fun _ => rfl⟩, rfl⟩
  | some generation =>
      refine ⟨⟨List.prefix_append _ _, id, fun hsame => ?_⟩, rfl⟩
      have hlength := congrArg List.length hsame
      simp at hlength

/-- The callback keeps what the recovery satisfies. -/
theorem Sound.onLiveliness {recovery : Recovery} (hsound : Sound recovery) (keyPrefix : ByteString)
    (sample : TransportSample) : Sound (onLiveliness keyPrefix recovery sample) := by
  unfold CacheRecovery.onLiveliness
  cases hparsed : parseSessionLivelinessKey keyPrefix recovery.sid sample.key with
  | none => exact hsound
  | some generation =>
      have hgeneration : generation ≠ [] :=
        (FenceWire.isChunk_of_isValidId (parseSessionLivelinessKey_eq_some_iff.mp hparsed).1).1
      refine ⟨by simp [hsound.counted], hsound.lists.note _, fun event hevent => ?_, ?_, ?_, ?_⟩
      · rcases List.mem_append.mp hevent with hevent | hevent
        · exact hsound.named event hevent
        · rw [List.mem_singleton.mp hevent]
          exact hgeneration
      · intro hbound
        dsimp only at hbound ⊢
        split_ifs at hbound ⊢ with hunbinds
        · exact absurd rfl hbound
        · cases hannounced : sample.kind == .put with
          | true =>
              have hsame : recovery.bound = generation := by simpa [hannounced] using hunbinds
              rw [hsame]
              exact getLast?_note_of_announced rfl
          | false =>
              have hother : recovery.bound ≠ generation := by simpa [hannounced] using hunbinds
              exact getLast?_note_of_withdrawn (hsound.bound_last hbound) (Ne.symm hother) rfl
      · intro harmed
        dsimp only
        split_ifs
        · simp
        · exact hsound.stale_iff harmed
      · intro hunarmed
        dsimp only
        split_ifs
        · rfl
        · exact hsound.unarmed hunarmed

/-! ## The invariant of the cache -/

/-- A build that the worker of an armed recovery runs. -/
structure Rebuilds (cache : Cache) (id : ℕ) (build : Build) : Prop where
  own : build.recovery = id
  target : build.target ≠ []
  armed : (cache.recoveries id).armed = true
  kept : Kept (cache.recoveries id) build

def WorkerAt (cache : Cache) (id : ℕ) : Worker → Prop
  | .absent => True
  | .waiting | .exited => id < cache.count
  | .quiescing | .retrying => id < cache.count ∧ (cache.recoveries id).armed = true
  | .building build => id < cache.count ∧ Rebuilds cache id build
  | .built build ok =>
      id < cache.count ∧ Rebuilds cache id build ∧ (ok = true → build.gets.length = kGets)
  | .cleaning build _ => id < cache.count ∧ Rebuilds cache id build

/-- A build of an attaching caller, whose recovery is not armed yet. -/
structure Attaches (cache : Cache) (build : Build) : Prop where
  known : build.recovery < cache.count
  unarmed : (cache.recoveries build.recovery).armed = false
  kept : Kept (cache.recoveries build.recovery) build

/-- No thread of the recovery can touch the cache: it has not begun or it is over. -/
def Dormant (worker : Worker) : Prop := worker = .absent ∨ worker = .exited

def LifecycleAt (cache : Cache) : Lifecycle → Prop
  | .idle => ∀ id, cache.recovery = some id → id < cache.count ∧ cache.activeState.isSome = true
  | .declared id =>
      cache.recovery = none ∧ id < cache.count ∧ (cache.recoveries id).armed = false ∧
        cache.workers id = .absent
  | .building build =>
      cache.recovery = none ∧ Attaches cache build ∧ cache.workers build.recovery = .absent
  | .candidate build =>
      cache.recovery = none ∧ Attaches cache build ∧ cache.workers build.recovery = .absent ∧
        build.gets.length = kGets
  | .started build =>
      cache.recovery = none ∧ Attaches cache build ∧ build.gets.length = kGets ∧
        (cache.workers build.recovery = .waiting ∨ cache.workers build.recovery = .exited)
  | .published build =>
      cache.recovery = none ∧ Attaches cache build ∧ build.gets.length = kGets ∧
        (cache.workers build.recovery = .waiting ∨ cache.workers build.recovery = .exited) ∧
        cache.activeState = some build
  | .bound id => cache.recovery = none ∧ id < cache.count ∧ cache.activeState.isSome = true
  | .stopping id | .joining id => cache.recovery = none ∧ id < cache.count
  | .quiescing => cache.recovery = none

/-- The attachment whose worker may be running. -/
def attached (cache : Cache) : Option ℕ :=
  match cache.lifecycle with
  | .idle => cache.recovery
  | .declared id | .bound id | .stopping id | .joining id => some id
  | .building build | .candidate build | .started build | .published build => some build.recovery
  | .quiescing => none

structure Inv (cache : Cache) : Prop where
  sound : ∀ id < cache.count, Sound (cache.recoveries id)
  workers : ∀ id, WorkerAt cache id (cache.workers id)
  lifecycle : LifecycleAt cache cache.lifecycle
  alone : ∀ id, attached cache ≠ some id → Dormant (cache.workers id)

theorem inv_start : Inv start where
  sound _ hid := absurd hid (Nat.not_lt_zero _)
  workers _ := trivial
  lifecycle _ hid := nomatch hid
  alone _ _ := .inl rfl

theorem WorkerAt.known {cache : Cache} {id : ℕ} {worker : Worker} (hat : WorkerAt cache id worker)
    (habsent : worker ≠ .absent) : id < cache.count := by
  cases worker with
  | absent => exact absurd rfl habsent
  | waiting => exact hat
  | exited => exact hat
  | quiescing => exact hat.1
  | retrying => exact hat.1
  | building build => exact hat.1
  | built build ok => exact hat.1
  | cleaning build ok => exact hat.1

/-- What a worker knows survives when the counts and the recoveries only grow. -/
theorem WorkerAt.mono {cache next : Cache} {id : ℕ} {worker : Worker} (hat : WorkerAt cache id worker)
    (hcount : cache.count ≤ next.count)
    (hgrows : id < cache.count → Grows (cache.recoveries id) (next.recoveries id)) :
    WorkerAt next id worker := by
  have hrebuilds : ∀ {build}, id < cache.count → Rebuilds cache id build → Rebuilds next id build :=
    fun hid hbuild =>
      ⟨hbuild.own, hbuild.target, (hgrows hid).armed hbuild.armed, hbuild.kept.grows (hgrows hid)⟩
  cases worker with
  | absent => exact trivial
  | waiting => exact lt_of_lt_of_le hat hcount
  | exited => exact lt_of_lt_of_le hat hcount
  | quiescing => exact ⟨hat.1.trans_le hcount, (hgrows hat.1).armed hat.2⟩
  | retrying => exact ⟨hat.1.trans_le hcount, (hgrows hat.1).armed hat.2⟩
  | building build => exact ⟨hat.1.trans_le hcount, hrebuilds hat.1 hat.2⟩
  | built build ok => exact ⟨hat.1.trans_le hcount, hrebuilds hat.1 hat.2.1, hat.2.2⟩
  | cleaning build ok => exact ⟨hat.1.trans_le hcount, hrebuilds hat.1 hat.2⟩

theorem grows_refl (recovery : Recovery) : Grows recovery recovery :=
  ⟨List.prefix_refl _, id, fun _ => rfl⟩

section Cache

variable {cache : Cache} (hinv : Inv cache)
include hinv

theorem sound_setRecovery {id : ℕ} {recovery : Recovery} (hsound : Sound recovery) :
    ∀ other < cache.count, Sound ((cache.setRecovery id recovery).recoveries other) := by
  intro other hother
  by_cases hid : other = id
  · subst hid
    simpa [Cache.setRecovery] using hsound
  · simpa [Cache.setRecovery, hid] using hinv.sound other hother

omit hinv in
theorem grows_setRecovery {id : ℕ} {recovery : Recovery} (hgrows : Grows (cache.recoveries id) recovery)
    (other : ℕ) :
    Grows (cache.recoveries other) ((cache.setRecovery id recovery).recoveries other) := by
  by_cases hid : other = id
  · subst hid
    simpa [Cache.setRecovery] using hgrows
  · simpa [Cache.setRecovery, hid] using grows_refl (cache.recoveries other)

theorem workers_setRecovery {id : ℕ} {recovery : Recovery}
    (hgrows : Grows (cache.recoveries id) recovery) (other : ℕ) :
    WorkerAt (cache.setRecovery id recovery) other (cache.workers other) :=
  (hinv.workers other).mono (le_refl _) fun _ => grows_setRecovery hgrows other

omit hinv in
theorem Attaches.mono {next : Cache} {build : Build} (hattaches : Attaches cache build)
    (hcount : cache.count ≤ next.count)
    (hgrows : Grows (cache.recoveries build.recovery) (next.recoveries build.recovery))
    (harmed : (next.recoveries build.recovery).armed =
      (cache.recoveries build.recovery).armed) : Attaches next build :=
  ⟨hattaches.known.trans_le hcount, harmed.trans hattaches.unarmed, hattaches.kept.grows hgrows⟩

/-- A critical section that leaves the arming alone. -/
theorem Inv.setRecovery {id : ℕ} {recovery : Recovery} (hsound : Sound recovery)
    (hgrows : Grows (cache.recoveries id) recovery)
    (harmed : recovery.armed = (cache.recoveries id).armed) :
    Inv (cache.setRecovery id recovery) := by
  have hgrow := grows_setRecovery hgrows
  have harm : ∀ other, ((cache.setRecovery id recovery).recoveries other).armed =
      (cache.recoveries other).armed := by
    intro other
    by_cases hid : other = id
    · subst hid
      simpa [Cache.setRecovery] using harmed
    · simp [Cache.setRecovery, hid]
  have hattaches : ∀ {build}, Attaches cache build →
      Attaches (cache.setRecovery id recovery) build := fun hattaches =>
    hattaches.mono (le_refl _) (hgrow _) (harm _)
  refine ⟨sound_setRecovery hinv hsound, workers_setRecovery hinv hgrows, ?_, hinv.alone⟩
  have hat := hinv.lifecycle
  show LifecycleAt (cache.setRecovery id recovery) cache.lifecycle
  generalize cache.lifecycle = lifecycle at hat ⊢
  cases lifecycle with
  | idle => exact hat
  | declared other => exact ⟨hat.1, hat.2.1, (harm other).trans hat.2.2.1, hat.2.2.2⟩
  | building build => exact ⟨hat.1, hattaches hat.2.1, hat.2.2⟩
  | candidate build => exact ⟨hat.1, hattaches hat.2.1, hat.2.2⟩
  | started build => exact ⟨hat.1, hattaches hat.2.1, hat.2.2⟩
  | published build => exact ⟨hat.1, hattaches hat.2.1, hat.2.2⟩
  | bound other => exact hat
  | stopping other => exact hat
  | joining other => exact hat
  | quiescing => exact hat

/-- The worker of an armed recovery runs while no caller attaches. -/
theorem lifecycle_of_armed {id : ℕ} (hattached : attached cache = some id)
    (harmed : (cache.recoveries id).armed = true) :
    (cache.lifecycle = .idle ∧ cache.recovery = some id) ∨ cache.lifecycle = .bound id ∨
      cache.lifecycle = .stopping id ∨ cache.lifecycle = .joining id := by
  have hat := hinv.lifecycle
  have hunarmed : ∀ {build : Build}, build.recovery = id → Attaches cache build → False := by
    intro build hid hattaches
    have hfalse := hattaches.unarmed
    rw [hid, harmed] at hfalse
    cases hfalse
  unfold attached at hattached
  cases hlifecycle : cache.lifecycle with
  | idle => simp_all
  | declared other =>
      simp only [hlifecycle, Option.some.injEq] at hattached
      rw [hlifecycle, hattached] at hat
      have hfalse := hat.2.2.1
      rw [harmed] at hfalse
      cases hfalse
  | building build =>
      simp only [hlifecycle, Option.some.injEq] at hattached
      rw [hlifecycle] at hat
      exact absurd hat.2.1 (hunarmed hattached)
  | candidate build =>
      simp only [hlifecycle, Option.some.injEq] at hattached
      rw [hlifecycle] at hat
      exact absurd hat.2.1 (hunarmed hattached)
  | started build =>
      simp only [hlifecycle, Option.some.injEq] at hattached
      rw [hlifecycle] at hat
      exact absurd hat.2.1 (hunarmed hattached)
  | published build =>
      simp only [hlifecycle, Option.some.injEq] at hattached
      rw [hlifecycle] at hat
      exact absurd hat.2.1 (hunarmed hattached)
  | bound other => simp_all
  | stopping other => simp_all
  | joining other => simp_all
  | quiescing => simp_all

theorem attached_of_running {id : ℕ} (hrunning : ¬Dormant (cache.workers id)) :
    attached cache = some id := by
  by_contra hother
  exact hrunning (hinv.alone id hother)

/-- A worker moves on, and the caller that attaches may move with it. -/
theorem Inv.moveWorker {id : ℕ} {worker : Worker} {lifecycle : Lifecycle}
    (hattached : attached cache = some id)
    (hstays : attached { cache with lifecycle := lifecycle } = some id)
    (hat : WorkerAt cache id worker)
    (hlifecycle : LifecycleAt { cache.setWorker id worker with lifecycle := lifecycle } lifecycle) :
    Inv { cache.setWorker id worker with lifecycle := lifecycle } := by
  refine ⟨hinv.sound, fun other => ?_, hlifecycle, fun other hother => ?_⟩
  · show WorkerAt _ other (Function.update cache.workers id worker other)
    by_cases hid : other = id
    · subst hid
      rw [Function.update_self]
      exact hat.mono (le_refl _) fun _ => grows_refl _
    · rw [Function.update_of_ne hid]
      exact (hinv.workers other).mono (le_refl _) fun _ => grows_refl _
  · have hne : other ≠ id := by
      rintro rfl
      exact hother hstays
    have hdormant := hinv.alone other (fun hsame => hne (Option.some.inj (hsame.symm.trans hattached)))
    simpa [Cache.setWorker, hne] using hdormant

theorem Inv.setWorker {id : ℕ} {worker : Worker} (hattached : attached cache = some id)
    (hat : WorkerAt cache id worker)
    (hlifecycle : LifecycleAt (cache.setWorker id worker) cache.lifecycle) :
    Inv (cache.setWorker id worker) :=
  hinv.moveWorker hattached hattached hat hlifecycle

/-- The worker of an armed recovery moves on. -/
theorem Inv.setArmedWorker {id : ℕ} {worker : Worker} (hattached : attached cache = some id)
    (harmed : (cache.recoveries id).armed = true) (hat : WorkerAt cache id worker) :
    Inv (cache.setWorker id worker) := by
  have hlife := hinv.lifecycle
  apply hinv.setWorker hattached hat
  rcases lifecycle_of_armed hinv hattached harmed with ⟨hidle, -⟩ | hbound | hstopping | hjoining
  · rw [hidle] at hlife ⊢
    exact hlife
  · rw [hbound] at hlife ⊢
    exact hlife
  · rw [hstopping] at hlife ⊢
    exact hlife
  · rw [hjoining] at hlife ⊢
    exact hlife

/-- A caller that started the worker may find it gone. -/
theorem lifecycleAt_exited {id : ℕ} (hattached : attached cache = some id)
    (hworker : cache.workers id = .waiting) :
    LifecycleAt (cache.setWorker id .exited) cache.lifecycle := by
  have hat := hinv.lifecycle
  have hexited : (cache.setWorker id .exited).workers id = .exited := by simp [Cache.setWorker]
  have hpresent : cache.workers id ≠ .absent := by simp [hworker]
  unfold attached at hattached
  cases hlifecycle : cache.lifecycle with
  | idle =>
      rw [hlifecycle] at hat
      exact hat
  | declared other =>
      rw [hlifecycle] at hat hattached
      obtain rfl := Option.some.inj hattached
      exact absurd hat.2.2.2 hpresent
  | building build =>
      rw [hlifecycle] at hat hattached
      obtain rfl := Option.some.inj hattached
      exact absurd hat.2.2 hpresent
  | candidate build =>
      rw [hlifecycle] at hat hattached
      obtain rfl := Option.some.inj hattached
      exact absurd hat.2.2.1 hpresent
  | started build =>
      rw [hlifecycle] at hat hattached
      obtain rfl := Option.some.inj hattached
      exact ⟨hat.1, hat.2.1.mono (le_refl _) (grows_refl _) rfl, hat.2.2.1, .inr hexited⟩
  | published build =>
      rw [hlifecycle] at hat hattached
      obtain rfl := Option.some.inj hattached
      exact ⟨hat.1, hat.2.1.mono (le_refl _) (grows_refl _) rfl, hat.2.2.1, .inr hexited,
        hat.2.2.2.2⟩
  | bound other =>
      rw [hlifecycle] at hat
      exact hat
  | stopping other =>
      rw [hlifecycle] at hat
      exact hat
  | joining other =>
      rw [hlifecycle] at hat
      exact hat
  | quiescing =>
      rw [hlifecycle] at hat
      exact hat

/-- A build of an armed recovery replaces the state of the cache. -/
theorem Inv.setActiveState {id : ℕ} (hattached : attached cache = some id)
    (harmed : (cache.recoveries id).armed = true) (build : Build) :
    Inv { cache with activeState := some build } := by
  have hlife := hinv.lifecycle
  refine ⟨hinv.sound, fun other => (hinv.workers other).mono (le_refl _) fun _ => grows_refl _, ?_,
    hinv.alone⟩
  show LifecycleAt { cache with activeState := some build } cache.lifecycle
  rcases lifecycle_of_armed hinv hattached harmed with ⟨hidle, -⟩ | hbound | hstopping | hjoining
  · rw [hidle] at hlife ⊢
    exact fun other hother => ⟨(hlife other hother).1, rfl⟩
  · rw [hbound] at hlife ⊢
    exact ⟨hlife.1, hlife.2.1, rfl⟩
  · rw [hstopping] at hlife ⊢
    exact hlife
  · rw [hjoining] at hlife ⊢
    exact hlife

/-- A build that saw every event binds its target. -/
theorem Rebuilds.sound {id : ℕ} {build : Build} (hid : id < cache.count)
    (hbuild : Rebuilds cache id build) (hevents : (cache.recoveries id).events = build.events) :
    Sound (bindRebuilt (cache.recoveries id) build) := by
  have hsound := hinv.sound id hid
  have hlength : (cache.recoveries id).history.length = build.startedAt := by
    rw [← hsound.counted, hevents, hbuild.kept.events_eq]
  refine ⟨hsound.counted, hsound.lists, hsound.named,
    fun _ => hbuild.kept.newest hlength hbuild.target, fun _ => ?_, fun hunarmed => ?_⟩
  · exact ⟨(fun hstale => nomatch hstale), fun hnone => absurd hnone hbuild.target⟩
  · exact absurd (hbuild.armed.symm.trans hunarmed) (by decide)

/-- The check, the swap and the bind of a rebuild. -/
theorem Inv.rebind {id : ℕ} {build : Build} (hattached : attached cache = some id)
    (hid : id < cache.count) (hbuild : Rebuilds cache id build)
    (hevents : (cache.recoveries id).events = build.events) :
    Inv { (cache.setRecovery id (bindRebuilt (cache.recoveries id) build)).setWorker id .quiescing
      with activeState := some build } := by
  have hrecord : Inv (cache.setRecovery id (bindRebuilt (cache.recoveries id) build)) :=
    hinv.setRecovery (hbuild.sound hinv hid hevents)
      ⟨List.prefix_refl _, fun harmed => harmed, fun _ => rfl⟩ rfl
  have harmed : ((cache.setRecovery id (bindRebuilt (cache.recoveries id) build)).recoveries
      id).armed = true := by
    simpa [Cache.setRecovery, bindRebuilt] using hbuild.armed
  have hat : WorkerAt (cache.setRecovery id (bindRebuilt (cache.recoveries id) build)) id
      .quiescing := ⟨hid, harmed⟩
  have hworker := hrecord.setArmedWorker hattached harmed hat
  exact hworker.setActiveState hattached harmed build

theorem Inv.workerStep {id : ℕ} {ok : Bool} {next : Cache}
    (hstep : workerStep cache id ok = some next) : Inv next := by
  have hat := hinv.workers id
  have hrunning : ¬Dormant (cache.workers id) → attached cache = some id := attached_of_running hinv
  unfold CacheRecovery.workerStep at hstep
  dsimp only at hstep
  cases hworker : cache.workers id with
  | absent => simp [hworker] at hstep
  | exited => simp [hworker] at hstep
  | waiting =>
      have hattached := hrunning (by simp [Dormant, hworker])
      rw [hworker] at hat
      simp only [hworker] at hstep
      split_ifs at hstep with hstop hready
      · obtain rfl := Option.some.inj hstep
        apply hinv.setWorker hattached (show WorkerAt cache id .exited from hat)
        exact lifecycleAt_exited hinv hattached hworker
      · obtain rfl := Option.some.inj hstep
        have htarget := (hinv.sound id hat).newest_ne hready.2.2
        exact hinv.setArmedWorker hattached hready.1
          (show WorkerAt cache id (.building _) from ⟨hat, rfl, htarget, hready.1,
            (hinv.sound id hat).kept_beginBuild id⟩)
  | building build =>
      have hattached := hrunning (by simp [Dormant, hworker])
      rw [hworker] at hat
      obtain ⟨hid, hbuild⟩ := hat
      simp only [hworker] at hstep
      split_ifs at hstep with hok hgets hstop
      · obtain rfl := Option.some.inj hstep
        exact hinv.setArmedWorker hattached hbuild.armed
          (show WorkerAt cache id (.built build false) from ⟨hid, hbuild, (fun h => nomatch h)⟩)
      · obtain rfl := Option.some.inj hstep
        exact hinv.setArmedWorker hattached hbuild.armed
          (show WorkerAt cache id (.built build true) from ⟨hid, hbuild, fun _ => hgets⟩)
      · obtain rfl := Option.some.inj hstep
        exact hinv.setArmedWorker hattached hbuild.armed
          (show WorkerAt cache id (.built build false) from ⟨hid, hbuild, (fun h => nomatch h)⟩)
      · obtain rfl := Option.some.inj hstep
        exact hinv.setArmedWorker hattached hbuild.armed
          (show WorkerAt cache id (.building _) from
            ⟨hid, hbuild.own, hbuild.target, hbuild.armed, hbuild.kept.issueGet⟩)
  | built build built =>
      have hattached := hrunning (by simp [Dormant, hworker])
      rw [hworker] at hat
      obtain ⟨hid, hbuild, -⟩ := hat
      simp only [hworker] at hstep
      split_ifs at hstep with hkept
      · obtain rfl := Option.some.inj hstep
        exact hinv.rebind hattached hid hbuild hkept.2.2
      · obtain rfl := Option.some.inj hstep
        exact hinv.setArmedWorker hattached hbuild.armed
          (show WorkerAt cache id (.cleaning build built) from ⟨hid, hbuild⟩)
  | quiescing =>
      have hattached := hrunning (by simp [Dormant, hworker])
      rw [hworker] at hat
      simp only [hworker] at hstep
      obtain rfl := Option.some.inj hstep
      exact hinv.setArmedWorker hattached hat.2 (show WorkerAt cache id .waiting from hat.1)
  | cleaning build built =>
      have hattached := hrunning (by simp [Dormant, hworker])
      rw [hworker] at hat
      simp only [hworker] at hstep
      split_ifs at hstep
      · obtain rfl := Option.some.inj hstep
        exact hinv.setArmedWorker hattached hat.2.armed
          (show WorkerAt cache id .retrying from ⟨hat.1, hat.2.armed⟩)
      · obtain rfl := Option.some.inj hstep
        exact hinv.setArmedWorker hattached hat.2.armed (show WorkerAt cache id .waiting from hat.1)
  | retrying =>
      have hattached := hrunning (by simp [Dormant, hworker])
      rw [hworker] at hat
      simp only [hworker] at hstep
      obtain rfl := Option.some.inj hstep
      exact hinv.setArmedWorker hattached hat.2 (show WorkerAt cache id .waiting from hat.1)

/-- A step of the caller that leaves the recoveries and the workers alone. -/
theorem Inv.move {lifecycle : Lifecycle} {activeState : Option Build} {recovery : Option ℕ}
    (hlifecycle : LifecycleAt { cache with lifecycle, activeState, recovery } lifecycle)
    (hstays : ∀ id, attached cache = some id →
      attached { cache with lifecycle, activeState, recovery } = some id ∨
        Dormant (cache.workers id)) :
    Inv { cache with lifecycle, activeState, recovery } := by
  refine ⟨hinv.sound, fun id => (hinv.workers id).mono (le_refl _) fun _ => grows_refl _,
    hlifecycle, fun id hother => ?_⟩
  by_cases hid : attached cache = some id
  · exact (hstays id hid).resolve_left hother
  · exact hinv.alone id hid

theorem recovery_eq_none_of_idle (hidle : cache.lifecycle = .idle)
    (hnone : cache.activeState = none) : cache.recovery = none := by
  have hat := hinv.lifecycle
  rw [hidle] at hat
  cases hrecovery : cache.recovery with
  | none => rfl
  | some id =>
      have hactive := (hat id hrecovery).2
      rw [hnone] at hactive
      cases hactive

theorem Inv.attach (hidle : cache.lifecycle = .idle) (hnone : cache.activeState = none)
    (sid : ByteString) :
    Inv { cache.setRecovery cache.count (freshRecovery sid) with
      count := cache.count + 1, lifecycle := .declared cache.count } := by
  have hrecovery := recovery_eq_none_of_idle hinv hidle hnone
  have hother : ∀ id < cache.count,
      (cache.setRecovery cache.count (freshRecovery sid)).recoveries id = cache.recoveries id :=
    fun id hid => Function.update_of_ne (ne_of_lt hid) _ _
  have hself : (cache.setRecovery cache.count (freshRecovery sid)).recoveries cache.count =
      freshRecovery sid := Function.update_self _ _ _
  have habsent : cache.workers cache.count = .absent := by
    by_contra hpresent
    exact lt_irrefl _ ((hinv.workers cache.count).known hpresent)
  refine ⟨fun id hid => ?_, fun id => ?_, ?_, fun id _ => ?_⟩
  · show Sound ((cache.setRecovery cache.count (freshRecovery sid)).recoveries id)
    rcases Nat.lt_succ_iff_lt_or_eq.mp hid with hid | rfl
    · rw [hother id hid]
      exact hinv.sound id hid
    · rw [hself]
      exact sound_freshRecovery sid
  · refine (hinv.workers id).mono (Nat.le_succ _) fun hid => ?_
    show Grows _ ((cache.setRecovery cache.count (freshRecovery sid)).recoveries id)
    rw [hother id hid]
    exact grows_refl _
  · refine ⟨hrecovery, Nat.lt_succ_self _, ?_, habsent⟩
    show ((cache.setRecovery cache.count (freshRecovery sid)).recoveries cache.count).armed = false
    rw [hself]
    rfl
  · apply hinv.alone id
    rw [attached, hidle]
    simp [hrecovery]

omit hinv in
/-- The critical section that ends an attach binds what the build was for, if anything. -/
theorem Sound.bindAttached {recovery : Recovery} {build : Build} (hsound : Sound recovery)
    (hunarmed : recovery.armed = false) (hkept : Kept recovery build) :
    Sound (bindAttached recovery build) := by
  refine ⟨hsound.counted, hsound.lists, hsound.named, fun hbound => ?_, fun _ => ?_,
    fun harmed => nomatch harmed⟩
  · unfold CacheRecovery.bindAttached at hbound ⊢
    dsimp only at hbound ⊢
    split_ifs at hbound ⊢ with hbinds
    · have hlength : recovery.history.length = build.startedAt := by
        rw [← hsound.counted, hbinds.2, hkept.events_eq]
      exact hkept.newest hlength hbinds.1
    · exact absurd (hsound.unarmed hunarmed) hbound
  · exact List.isEmpty_iff

theorem Inv.bind {build : Build} (hlifecycle : cache.lifecycle = .published build) :
    Inv { cache.setRecovery build.recovery
        (bindAttached (cache.recoveries build.recovery) build) with
      lifecycle := .bound build.recovery } := by
  have hat := hinv.lifecycle
  rw [hlifecycle] at hat
  obtain ⟨hrecovery, hattaches, -, -, hactive⟩ := hat
  have hsound := (hinv.sound _ hattaches.known).bindAttached hattaches.unarmed hattaches.kept
  have hgrows : Grows (cache.recoveries build.recovery)
      (bindAttached (cache.recoveries build.recovery) build) :=
    ⟨List.prefix_refl _, fun _ => rfl, fun _ => rfl⟩
  refine ⟨sound_setRecovery hinv hsound, fun id => ?_, ?_, fun id hother => ?_⟩
  · exact (hinv.workers id).mono (le_refl _) fun _ => grows_setRecovery hgrows id
  · exact ⟨hrecovery, hattaches.known, by simp [Cache.setRecovery, hactive]⟩
  · apply hinv.alone id
    rw [attached, hlifecycle]
    exact hother

theorem Inv.step {keyPrefix : ByteString} {action : Action} {next : Cache}
    (hstep : step keyPrefix cache action = some next) : Inv next := by
  have hat := hinv.lifecycle
  unfold CacheRecovery.step at hstep
  cases action with
  | liveliness id sample =>
      dsimp only at hstep
      split_ifs at hstep with hid
      obtain rfl := Option.some.inj hstep
      obtain ⟨hgrows, harmed⟩ := grows_onLiveliness keyPrefix (cache.recoveries id) sample
      exact hinv.setRecovery ((hinv.sound id hid).onLiveliness keyPrefix sample) hgrows harmed
  | attach sid declared =>
      dsimp only at hstep
      split_ifs at hstep with hbusy hrefused
      · obtain rfl := Option.some.inj hstep
        exact hinv
      · obtain rfl := Option.some.inj hstep
        have hnone : cache.activeState = none := by
          cases hactive : cache.activeState with
          | none => rfl
          | some build => simp [hactive] at hrefused
        exact hinv.attach (not_not.mp hbusy) hnone sid
  | capture =>
      cases hlifecycle : cache.lifecycle with
      | declared id =>
          simp only [hlifecycle] at hstep
          obtain rfl := Option.some.inj hstep
          rw [hlifecycle] at hat
          obtain ⟨hrecovery, hid, hunarmed, habsent⟩ := hat
          apply hinv.move
          · exact ⟨hrecovery, ⟨hid, hunarmed, (hinv.sound id hid).kept_beginBuild id⟩, habsent⟩
          · intro other hother
            rw [attached, hlifecycle] at hother
            exact .inl hother
      | _ => simp [hlifecycle] at hstep
  | attachGet =>
      cases hlifecycle : cache.lifecycle with
      | building build =>
          simp only [hlifecycle] at hstep
          split_ifs at hstep
          obtain rfl := Option.some.inj hstep
          rw [hlifecycle] at hat
          obtain ⟨hrecovery, hattaches, habsent⟩ := hat
          apply hinv.move
          · exact ⟨hrecovery, ⟨hattaches.known, hattaches.unarmed, hattaches.kept.issueGet⟩, habsent⟩
          · intro other hother
            rw [attached, hlifecycle] at hother
            exact .inl hother
      | _ => simp [hlifecycle] at hstep
  | attachBuilt ok =>
      cases hlifecycle : cache.lifecycle with
      | building build =>
          simp only [hlifecycle] at hstep
          rw [hlifecycle] at hat
          obtain ⟨hrecovery, hattaches, habsent⟩ := hat
          have hattached : attached cache = some build.recovery := by rw [attached, hlifecycle]
          split_ifs at hstep with hok hgets
          · obtain rfl := Option.some.inj hstep
            apply hinv.move
            · exact fun id hid => absurd (hrecovery.symm.trans hid) (by simp)
            · intro other hother
              obtain rfl := Option.some.inj (hattached.symm.trans hother)
              exact .inr (.inl habsent)
          · obtain rfl := Option.some.inj hstep
            apply hinv.move
            · exact ⟨hrecovery, hattaches.mono (le_refl _) (grows_refl _) rfl, habsent, hgets⟩
            · intro other hother
              exact .inl (hattached.symm.trans hother)
      | _ => simp [hlifecycle] at hstep
  | startWorker ok =>
      cases hlifecycle : cache.lifecycle with
      | candidate build =>
          simp only [hlifecycle] at hstep
          rw [hlifecycle] at hat
          obtain ⟨hrecovery, hattaches, habsent, hgets⟩ := hat
          have hattached : attached cache = some build.recovery := by rw [attached, hlifecycle]
          split_ifs at hstep with hok
          · obtain rfl := Option.some.inj hstep
            apply hinv.move
            · exact fun id hid => absurd (hrecovery.symm.trans hid) (by simp)
            · intro other hother
              obtain rfl := Option.some.inj (hattached.symm.trans hother)
              exact .inr (.inl habsent)
          · obtain rfl := Option.some.inj hstep
            have hwaiting : WorkerAt cache build.recovery .waiting := hattaches.known
            refine hinv.moveWorker hattached rfl hwaiting ⟨hrecovery, ?_, hgets, .inl ?_⟩
            · exact hattaches.mono (le_refl _) (grows_refl _) rfl
            · simp [Cache.setWorker]
      | _ => simp [hlifecycle] at hstep
  | publish =>
      cases hlifecycle : cache.lifecycle with
      | started build =>
          simp only [hlifecycle] at hstep
          obtain rfl := Option.some.inj hstep
          rw [hlifecycle] at hat
          obtain ⟨hrecovery, hattaches, hgets, hworker⟩ := hat
          apply hinv.move
          · exact ⟨hrecovery, hattaches.mono (le_refl _) (grows_refl _) rfl, hgets, hworker, rfl⟩
          · intro other hother
            rw [attached, hlifecycle] at hother
            exact .inl hother
      | _ => simp [hlifecycle] at hstep
  | bind =>
      cases hlifecycle : cache.lifecycle with
      | published build =>
          simp only [hlifecycle] at hstep
          obtain rfl := Option.some.inj hstep
          exact hinv.bind hlifecycle
      | _ => simp [hlifecycle] at hstep
  | storeRecovery =>
      cases hlifecycle : cache.lifecycle with
      | bound id =>
          simp only [hlifecycle] at hstep
          obtain rfl := Option.some.inj hstep
          rw [hlifecycle] at hat
          obtain ⟨-, hid, hactive⟩ := hat
          apply hinv.move
          · intro other hother
            obtain rfl := Option.some.inj hother
            exact ⟨hid, hactive⟩
          · intro other hother
            rw [attached, hlifecycle] at hother
            exact .inl hother
      | _ => simp [hlifecycle] at hstep
  | detach =>
      dsimp only at hstep
      split_ifs at hstep with hbusy
      have hidle : cache.lifecycle = .idle := not_not.mp hbusy
      rw [hidle] at hat
      cases hrecovery : cache.recovery with
      | some id =>
          simp only [hrecovery] at hstep
          obtain rfl := Option.some.inj hstep
          apply hinv.move
          · exact ⟨rfl, (hat id hrecovery).1⟩
          · intro other hother
            rw [attached, hidle] at hother
            exact .inl (hrecovery.symm.trans hother)
      | none =>
          simp only [hrecovery] at hstep
          obtain rfl := Option.some.inj hstep
          apply hinv.move
          · exact rfl
          · intro other hother
            rw [attached, hidle] at hother
            exact absurd (hrecovery.symm.trans hother) (by simp)
  | stop =>
      cases hlifecycle : cache.lifecycle with
      | stopping id =>
          simp only [hlifecycle] at hstep
          obtain rfl := Option.some.inj hstep
          rw [hlifecycle] at hat
          have hsound := hinv.sound id hat.2
          have hstopped : Inv (cache.setRecovery id { cache.recoveries id with stop := true }) :=
            hinv.setRecovery
              ⟨hsound.counted, hsound.lists, hsound.named, hsound.bound_last, hsound.stale_iff,
                hsound.unarmed⟩
              ⟨List.prefix_refl _, fun harmed => harmed, fun _ => rfl⟩ rfl
          apply hstopped.move
          · exact hat
          · intro other hother
            rw [attached] at hother
            simp only [Cache.setRecovery, hlifecycle] at hother
            exact .inl hother
      | _ => simp [hlifecycle] at hstep
  | join =>
      cases hlifecycle : cache.lifecycle with
      | joining id =>
          simp only [hlifecycle] at hstep
          split_ifs at hstep with hexited
          obtain rfl := Option.some.inj hstep
          rw [hlifecycle] at hat
          apply hinv.move
          · exact hat.1
          · intro other hother
            rw [attached, hlifecycle] at hother
            obtain rfl := Option.some.inj hother
            exact .inr (.inr hexited)
      | _ => simp [hlifecycle] at hstep
  | quiesce =>
      cases hlifecycle : cache.lifecycle with
      | quiescing =>
          simp only [hlifecycle] at hstep
          obtain rfl := Option.some.inj hstep
          rw [hlifecycle] at hat
          have hrecovery : cache.recovery = none := hat
          apply hinv.move
          · exact fun id hid => absurd (hrecovery.symm.trans hid) (by simp)
          · intro other hother
            rw [attached, hlifecycle] at hother
            cases hother
      | _ => simp [hlifecycle] at hstep
  | worker id ok =>
      dsimp only at hstep
      split_ifs at hstep with hid
      exact hinv.workerStep hstep

end Cache

theorem inv_run {keyPrefix : ByteString} {actions : List Action} {cache : Cache}
    (hrun : run (step keyPrefix) start actions = some cache) : Inv cache :=
  run_invariant (fun _ _ _ hinv hstep => Inv.step hinv hstep) inv_start hrun

/-! ## When a recovery is bound -/

section Binding

variable {cache next : Cache} {id : ℕ}

end Binding

end Sitos.CacheRecovery

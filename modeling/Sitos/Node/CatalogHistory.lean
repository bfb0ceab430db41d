import Sitos.Core.Machine
import Sitos.Node.DurableLifecycle

/-!
# The catalog over runs and crashes

The disk holds a sound ledger before and after every persistent step of every
operation.  While a process runs on the catalog, its map is the ledger's, and
between operations every active generation has its store; so whatever a crash
leaves behind, the next start loads every record and reopens every kept store.
-/

namespace Sitos.Durable

open Sitos.Bytes Sitos.FlatJson Sitos.Token Sitos.Catalog Sitos.Core Sitos.Crash

/-- The disk stores this ledger. -/
structure Holds (ledger : Ledger) (world : World) : Prop where
  texts : world.disk.catalog.elim .empty CatalogStore.sessions =
    ledger.records.mapValues encodeSessionRecord
  generations : world.disk.generations = ledger.generations
  written : world.written = ledger.written

/-- The catalog database has got its first batch. -/
def Initialised (world : World) : Prop :=
  ∃ store, world.disk.catalog = some store ∧ store.schemaEntry = some kSchemaValue ∧
    store.instanceEntry.any validInstanceValue = true

/-- What a crash may leave behind. -/
def Recoverable (world : World) : Prop :=
  ∃ ledger : Ledger, ledger.Sound ∧ Holds ledger world ∧
    (world.written ≠ [] → Initialised world)

/-- A process works on the catalog, which is the ledger's. -/
structure Open (ledger : Ledger) (world : World) : Prop where
  sound : ledger.Sound
  holds : Holds ledger world
  initialised : Initialised world
  process : ∃ process, world.process = some process ∧ process.catalog = some ledger.records ∧
    process.catalogUnavailable = false ∧ isCanonicalUuid process.instanceId = true

namespace Open

variable {ledger : Ledger} {world : World} (hopen : Open ledger world)
include hopen

theorem recoverable : Recoverable world :=
  ⟨ledger, hopen.sound, hopen.holds, fun _ => hopen.initialised⟩

theorem find (sid : ByteString) : world.find sid = ledger.records.find sid := by
  obtain ⟨process, hprocess, hcatalog, -⟩ := hopen.process
  simp [World.find, hprocess, hcatalog]

theorem hasCatalog : world.hasCatalog = true := by
  obtain ⟨process, hprocess, hcatalog, -⟩ := hopen.process
  simp [World.hasCatalog, hprocess, hcatalog]

theorem available : world.catalogUnavailable = false := by
  obtain ⟨process, hprocess, -, havailable, -⟩ := hopen.process
  simp [World.catalogUnavailable, hprocess, havailable]

theorem isSome_process : world.process.isSome = true := by
  obtain ⟨process, hprocess, -⟩ := hopen.process
  rw [hprocess]
  rfl

/-- A step that keeps the disk and the administrative state of the process. -/
theorem congr {next : World} (hdisk : next.disk = world.disk)
    (hwritten : next.written = world.written)
    (hprocess : ∀ process, world.process = some process → ∃ process',
      next.process = some process' ∧ process'.catalog = process.catalog ∧
        process'.catalogUnavailable = process.catalogUnavailable ∧
        process'.instanceId = process.instanceId) : Open ledger next where
  sound := hopen.sound
  holds := by
    obtain ⟨htexts, hgenerations, hlog⟩ := hopen.holds
    exact ⟨by rw [hdisk]; exact htexts, by rw [hdisk]; exact hgenerations, by rw [hwritten]; exact hlog⟩
  initialised := by
    unfold Initialised
    rw [hdisk]
    exact hopen.initialised
  process := by
    obtain ⟨process, hsome, hcatalog, havailable, hinstance⟩ := hopen.process
    obtain ⟨process', hsome', hcatalog', havailable', hinstance'⟩ := hprocess process hsome
    exact ⟨process', hsome', by rw [hcatalog', hcatalog], by rw [havailable', havailable],
      by rw [hinstance', hinstance]⟩

theorem setSession (sid : ByteString) (session : Option SessionRecord) :
    Open ledger (world.setSession sid session) := by
  have hdisk : (world.setSession sid session).disk = world.disk := rfl
  have hwritten : (world.setSession sid session).written = world.written := rfl
  apply hopen.congr hdisk hwritten
  intro process hprocess
  refine ⟨{ process with sessions := Function.update process.sessions sid session }, ?_, rfl, rfl,
    rfl⟩
  rw [World.setSession, hprocess]
  rfl

theorem put {record : SessionCatalogRecord} (hwritable : ledger.Writable record) :
    Open (ledger.put record) (world.put record) where
  sound := hopen.sound.put hwritable
  holds := by
    obtain ⟨htexts, hgenerations, hwritten⟩ := hopen.holds
    obtain ⟨store, hstore, -⟩ := hopen.initialised
    refine ⟨?_, hgenerations, by rw [World.put, hwritten]; rfl⟩
    rw [hstore, Option.elim_some] at htexts
    simp only [World.put, hstore, Option.map_some, Option.elim_some, htexts]
    exact (OrderedMap.mapValues_insertOrAssign _ _ _ _).symm
  initialised := by
    obtain ⟨store, hstore, hschema, hinstance⟩ := hopen.initialised
    refine ⟨{ store with
      sessions := store.sessions.insertOrAssign record.sid (encodeSessionRecord record) }, ?_,
      hschema, hinstance⟩
    simp only [World.put, hstore, Option.map_some]
  process := by
    obtain ⟨process, hprocess, hcatalog, havailable, hinstance⟩ := hopen.process
    refine ⟨{ process with catalog := some (ledger.records.insertOrAssign record.sid record) },
      ?_, rfl, havailable, hinstance⟩
    simp only [World.put, hprocess, hcatalog, Option.map_some]

theorem setDirectory {sid : ByteString} {record : SessionCatalogRecord} {directory : Directory}
    (hfind : ledger.records.find sid = some record) (hstate : record.state ≠ .deleted)
    (hkept : record.state = .retained ∨ record.state = .orphaned → directory = .store) :
    Open (ledger.setDirectory sid record.generationUuid directory)
      (world.setDirectory sid record.generationUuid directory) where
  sound := hopen.sound.setDirectory hfind hstate hkept
  holds := by
    obtain ⟨htexts, hgenerations, hwritten⟩ := hopen.holds
    refine ⟨htexts, ?_, hwritten⟩
    simp only [World.setDirectory, Ledger.setDirectory, hgenerations]
  initialised := hopen.initialised
  process := hopen.process

theorem makeDirectory {sid : ByteString} {record : SessionCatalogRecord} {directory : Directory}
    (hfind : ledger.records.find sid = some record) (hstate : record.state ≠ .deleted)
    (hkept : record.state = .retained ∨ record.state = .orphaned → directory = .store) :
    Open (ledger.setDirectory sid record.generationUuid directory)
      (world.makeDirectory sid record.generationUuid directory) := by
  have hset := hopen.setDirectory hfind hstate hkept
  exact ⟨hset.sound, ⟨hset.holds.texts, hset.holds.generations, hset.holds.written⟩,
    hset.initialised, hset.process⟩

end Open

/-! ## One lemma for each operation -/

/-- After an operation on `sid`: only `sid` has changed, and an active record of
`sid` has its store. -/
def Settles (sid : ByteString) (before : Ledger) (world : World) : Prop :=
  ∃ after, Open after world ∧ Ledger.SameElsewhere sid before after ∧ after.ActiveStore sid

section Operations

variable {ledger : Ledger} (env : Environment)

theorem meets_clock {Before : World → Prop}
    (hstable : ∀ world, Before world → Before { world with clockReads := world.clockReads + 1 }) :
    Meets Before (nowIso8601 env) (fun text world => isTimestamp text = true ∧ Before world)
      Recoverable := by
  apply Meets.read
  intro value _
  have hupdate : Meets Before
      (Op.update fun world => { world with clockReads := world.clockReads + 1 })
      (fun _ => Before) Recoverable :=
    Meets.update hstable
  exact hupdate.bind fun _ => Meets.pure fun world hbefore =>
    ⟨(env.clock value.clockReads).property, hbefore⟩

theorem meets_nowIso8601 : Meets (Open ledger) (nowIso8601 env)
    (fun text world => isTimestamp text = true ∧ Open ledger world) Recoverable := by
  apply meets_clock
  intro world hopen
  exact ⟨hopen.sound, ⟨hopen.holds.texts, hopen.holds.generations, hopen.holds.written⟩,
    hopen.initialised, hopen.process⟩

theorem meets_tryPutCatalogRecord {record : SessionCatalogRecord}
    (hwritable : ledger.Writable record) :
    Meets (Open ledger) (tryPutCatalogRecord record)
      (fun committed world => committed = true ∧ Open (ledger.put record) world) Recoverable := by
  apply Meets.read
  intro value hopen
  rw [if_pos ⟨hopen.hasCatalog, by rw [hopen.available]; exact Bool.false_ne_true⟩]
  have hput : Meets (Open ledger) (Op.persist (·.put record))
      (fun _ => Open (ledger.put record)) Recoverable :=
    Meets.persist (fun _ h => h.recoverable) (fun _ h => h.put hwritable)
  exact hput.bind fun _ => Meets.pure fun world h => ⟨rfl, h⟩

theorem meets_writeCatalogRecord {record : SessionCatalogRecord}
    (hwritable : ledger.Writable record) :
    Meets (Open ledger) (writeCatalogRecord record)
      (fun committed world => committed = true ∧ Open (ledger.put record) world) Recoverable := by
  apply (meets_tryPutCatalogRecord hwritable).bind
  intro committed
  apply Meets.fact
  intro hcommitted
  rw [if_pos hcommitted]
  exact Meets.pure fun world h => ⟨rfl, h⟩

theorem meets_removeGeneration {record : SessionCatalogRecord}
    (hfind : ledger.records.find record.sid = some record) (hstate : record.state = .deleting) :
    Meets (Open ledger) (removeGeneration env record.sid record.generationUuid)
      (fun error world => ∃ directory, (error = none → directory = .absent) ∧
        Open (ledger.setDirectory record.sid record.generationUuid directory) world)
      Recoverable := by
  apply Meets.read
  intro value _
  let outcome :=
    (env.removal value.removals).apply
      (value.disk.generations record.sid record.generationUuid)
  have hpersist : Meets (Open ledger)
      (Op.persist fun world =>
        { world.setDirectory record.sid record.generationUuid outcome.1 with
          removals := world.removals + 1 })
      (fun _ => Open (ledger.setDirectory record.sid record.generationUuid outcome.1))
      Recoverable := by
    apply Meets.persist fun _ h => h.recoverable
    intro world hopen
    have hset : Open (ledger.setDirectory record.sid record.generationUuid outcome.1)
        (world.setDirectory record.sid record.generationUuid outcome.1) := by
      apply hopen.setDirectory hfind
      · rw [hstate]
        decide
      · rw [hstate]
        rintro (h | h) <;> exact nomatch h
    exact ⟨hset.sound, ⟨hset.holds.texts, hset.holds.generations, hset.holds.written⟩,
      hset.initialised, hset.process⟩
  exact hpersist.bind fun _ => Meets.pure fun world hopen =>
    ⟨outcome.1, Removal.apply_eq_absent, hopen⟩

/-- The end of a deletion leaves a record that is no longer active. -/
theorem settles_put {record next : SessionCatalogRecord} {directory : Directory} {world : World}
    (hopen : Open ((ledger.setDirectory record.sid record.generationUuid directory).put next)
      world) (hsid : next.sid = record.sid) (hstate : next.state ≠ .active) :
    Settles record.sid ledger world := by
  refine ⟨_, hopen, ?_, ?_⟩
  · apply (Ledger.sameElsewhere_setDirectory ledger record.sid record.generationUuid
      directory).trans
    rw [← hsid]
    exact Ledger.sameElsewhere_put _ next
  · intro current hcurrent hactive
    rw [← hsid, Ledger.find_put_self] at hcurrent
    obtain rfl := Option.some.inj hcurrent
    exact absurd hactive hstate

theorem meets_finishCatalogDeletion {record : SessionCatalogRecord}
    (hfind : ledger.records.find record.sid = some record) (hstate : record.state = .deleting) :
    Meets (Open ledger) (finishCatalogDeletion env record)
      (fun _ => Settles record.sid ledger) Recoverable := by
  apply Meets.read
  intro value hopen
  have hvalid := (hopen.sound.valid_of_find hfind).1
  rw [hopen.available, if_neg Bool.false_ne_true]
  apply (meets_removeGeneration env hfind hstate).bind
  intro error
  apply Meets.choose
  intro directory
  apply Meets.fact
  intro hgone
  apply Meets.read
  intro value hopen
  have hpending : isPending value record = true := by
    have hcurrent : value.find record.sid = some record := (hopen.find record.sid).trans hfind
    simp [isPending, hcurrent, hstate]
  rw [hpending, if_neg (not_not_intro rfl)]
  cases error with
  | some code =>
      have hwritable : (ledger.setDirectory record.sid record.generationUuid directory).Writable
          (record.failDeletion code) := by
        refine ⟨hvalid.failDeletion code (Or.inl hstate), Or.inl ⟨record, hfind, rfl, ?_⟩, ?_, ?_⟩
        · rw [Follows, hstate]
          exact Transition.fail
        · rintro (h | h) <;> exact nomatch h
        · exact fun h => nomatch h
      apply (meets_writeCatalogRecord hwritable).bind
      intro committed
      exact Meets.pure fun world h => settles_put h.2 rfl fun h => nomatch h
  | none =>
      apply (meets_nowIso8601 env).bind
      intro deletedAt
      apply Meets.fact
      intro hdeletedAt
      have hwritable : (ledger.setDirectory record.sid record.generationUuid directory).Writable
          (record.finishDeletion deletedAt) := by
        refine ⟨hvalid.finishDeletion hdeletedAt (Or.inl hstate),
          Or.inl ⟨record, hfind, rfl, ?_⟩, ?_, ?_⟩
        · rw [Follows, hstate]
          exact Transition.finish
        · rintro (h | h) <;> exact nomatch h
        · intro _
          rw [hgone rfl]
          exact Ledger.setDirectory_self _ _ _ _
      exact (meets_writeCatalogRecord hwritable).after
        fun _ world h => settles_put h.2 rfl fun h => nomatch h

theorem meets_openStore {record : SessionCatalogRecord}
    (hfind : ledger.records.find record.sid = some record) (hstate : record.state ≠ .deleted) :
    Meets (Open ledger) (openStore record.sid record.generationUuid)
      (fun _ => Open (ledger.setDirectory record.sid record.generationUuid .store))
      Recoverable := by
  have hmake : Meets (Open ledger)
      (Op.persist fun world =>
        if world.disk.generations record.sid record.generationUuid = .absent then
          world.makeDirectory record.sid record.generationUuid .bare
        else world)
      (fun _ world => ∃ directory,
        Open (ledger.setDirectory record.sid record.generationUuid directory) world)
      Recoverable := by
    apply Meets.persist fun _ h => h.recoverable
    intro world hopen
    split_ifs with habsent
    · rw [hopen.holds.generations] at habsent
      refine ⟨.bare, hopen.makeDirectory hfind hstate fun hkept => ?_⟩
      rw [hopen.sound.stores record.sid record hfind hkept] at habsent
      exact nomatch habsent
    · refine ⟨ledger.generations record.sid record.generationUuid, ?_⟩
      rw [Ledger.setDirectory_same]
      exact hopen
  apply hmake.bind
  intro _
  apply Meets.choose
  intro directory
  apply Meets.persist fun _ h => h.recoverable
  intro world hopen
  have hset := hopen.setDirectory hfind hstate fun _ => rfl
  rw [Ledger.setDirectory_setDirectory] at hset
  exact hset

theorem meets_openReconciledStore {record : SessionCatalogRecord} {create : Bool}
    (hfind : ledger.records.find record.sid = some record) (hstate : record.state ≠ .deleted)
    (hcreate : create = true ∨ record.state = .retained ∨ record.state = .orphaned) :
    Meets (Open ledger) (openReconciledStore record create)
      (fun opened world => opened = true ∧
        Open (ledger.setDirectory record.sid record.generationUuid .store) world)
      Recoverable := by
  apply Meets.read
  intro value hopen
  have hpresent : ¬(¬create = true ∧
      value.disk.generations record.sid record.generationUuid ≠ .store) := by
    rintro ⟨hnot, hmissing⟩
    rcases hcreate with hcreate | hkept
    · exact hnot hcreate
    · apply hmissing
      rw [hopen.holds.generations]
      exact hopen.sound.stores record.sid record hfind hkept
  rw [if_neg hpresent]
  apply (meets_openStore hfind hstate).bind
  intro _
  exact Meets.pure fun world h => ⟨rfl, h⟩

theorem meets_installReconciledSession (record : SessionCatalogRecord) :
    Meets (Open ledger) (installReconciledSession record) (fun _ => Open ledger) Recoverable :=
  Meets.update fun _ hopen => hopen.setSession _ _

/-- Whatever state a crash left the record in, one turn repairs it. -/
theorem meets_reconcileRecord {record : SessionCatalogRecord}
    (hfind : ledger.records.find record.sid = some record) :
    Meets (Open ledger) (reconcileRecord env record)
      (fun more world => more = true ∧ Settles record.sid ledger world) Recoverable := by
  apply Meets.read
  intro value hopen
  have hvalid := (hopen.sound.valid_of_find hfind).1
  -- A turn that writes nothing is enough for a record that is not active.
  have hsettled : ∀ directory world, record.state ≠ .active →
      Open (ledger.setDirectory record.sid record.generationUuid directory) world →
        Settles record.sid ledger world := by
    intro directory world hstate hopen
    refine ⟨_, hopen, Ledger.sameElsewhere_setDirectory _ _ _ _, ?_⟩
    intro current hcurrent hactive
    have hsame : some record = some current := hfind.symm.trans hcurrent
    obtain rfl := Option.some.inj hsame
    exact absurd hactive hstate
  have hreopen : record.state = .retained ∨ record.state = .orphaned →
      Meets (Open ledger)
        (do
          let opened ← openReconciledStore record false
          if ¬opened then pure false
          else do
            installReconciledSession record
            pure true)
        (fun more world => more = true ∧ Settles record.sid ledger world) Recoverable := by
    intro hkept
    have hdeleted : record.state ≠ .deleted := by
      rcases hkept with h | h <;> rw [h] <;> decide
    have hactive : record.state ≠ .active := by
      rcases hkept with h | h <;> rw [h] <;> decide
    apply (meets_openReconciledStore hfind hdeleted (Or.inr hkept)).bind
    intro opened
    apply Meets.fact
    intro hopened
    rw [if_neg (not_not_intro hopened)]
    apply (meets_installReconciledSession record).bind
    intro _
    exact Meets.pure fun world h => ⟨rfl, hsettled _ world hactive h⟩
  have hidle : record.state ≠ .active → Meets (Open ledger) (pure true)
      (fun more world => more = true ∧ Settles record.sid ledger world) Recoverable := by
    intro hactive
    apply Meets.pure
    intro world h
    refine ⟨rfl, hsettled (ledger.generations record.sid record.generationUuid) world hactive ?_⟩
    rw [Ledger.setDirectory_same]
    exact h
  rw [hopen.available, if_neg Bool.false_ne_true]
  cases hstate : record.state with
  | active =>
      have hdeleted : record.state ≠ .deleted := by
        rw [hstate]
        decide
      apply (meets_openReconciledStore hfind hdeleted (Or.inl rfl)).bind
      intro opened
      apply Meets.fact
      intro hopened
      rw [if_neg (not_not_intro hopened)]
      apply (meets_nowIso8601 env).bind
      intro orphanedAt
      apply Meets.fact
      intro horphanedAt
      have hwritable : (ledger.setDirectory record.sid record.generationUuid .store).Writable
          (record.orphan orphanedAt) := by
        refine ⟨hvalid.orphan hstate horphanedAt, Or.inl ⟨record, hfind, rfl, ?_⟩, ?_, ?_⟩
        · rw [Follows, hstate]
          exact Transition.orphan
        · exact fun _ => Ledger.setDirectory_self _ _ _ _
        · exact fun h => nomatch h
      apply (meets_writeCatalogRecord hwritable).bind
      intro committed
      apply Meets.fact
      intro hcommitted
      rw [if_neg (not_not_intro hcommitted)]
      apply (meets_installReconciledSession _).bind
      intro _
      exact Meets.pure fun world h => ⟨rfl, settles_put h rfl fun h => nomatch h⟩
  | retained => exact hreopen (Or.inl hstate)
  | orphaned => exact hreopen (Or.inr hstate)
  | deleting =>
      apply (meets_finishCatalogDeletion env hfind hstate).bind
      intro _
      exact Meets.pure fun world h => ⟨rfl, h⟩
  | deleteFailed => exact hidle (by rw [hstate]; decide)
  | deleted => exact hidle (by rw [hstate]; decide)

/-- Between operations: a process works on the catalog, and every active
generation has its store. -/
def Settled (world : World) : Prop :=
  ∃ ledger, Open ledger world ∧ ∀ sid, ledger.ActiveStore sid

theorem Settles.settled {sid : ByteString} {world : World} (hsettles : Settles sid ledger world)
    (hactive : ∀ other ≠ sid, ledger.ActiveStore other) : Settled world := by
  obtain ⟨after, hopen, hsame, hstore⟩ := hsettles
  refine ⟨after, hopen, fun other => ?_⟩
  by_cases hother : other = sid
  · rw [hother]
    exact hstore
  · exact hsame.activeStore hother (hactive other hother)

theorem meets_reconcileCatalog {records : List SessionCatalogRecord}
    (hfind : ∀ record ∈ records, ledger.records.find record.sid = some record)
    (hnodup : (records.map (·.sid)).Nodup)
    (hdone : ∀ sid, sid ∉ records.map (·.sid) → ledger.ActiveStore sid) :
    Meets (Open ledger) (reconcileCatalog env records) (fun _ => Settled) Recoverable := by
  induction records generalizing ledger with
  | nil => exact Meets.pure fun world h => ⟨ledger, h, fun sid => hdone sid List.not_mem_nil⟩
  | cons record records ih =>
      rw [List.map_cons, List.nodup_cons] at hnodup
      apply (meets_reconcileRecord env (hfind record List.mem_cons_self)).bind
      intro more
      apply Meets.fact
      intro hmore
      rw [if_pos hmore]
      apply Meets.choose
      intro after
      apply Meets.assuming
      rintro _ ⟨-, hsame, hstore⟩
      have hrest : Meets (Open after) (reconcileCatalog env records) (fun _ => Settled)
          Recoverable := by
        apply ih
        · intro other hother
          have hne : other.sid ≠ record.sid := by
            intro heq
            exact hnodup.1 (heq ▸ List.mem_map_of_mem hother)
          rw [(hsame other.sid hne).1]
          exact hfind other (List.mem_cons_of_mem _ hother)
        · exact hnodup.2
        · intro sid hsid
          by_cases hrecord : sid = record.sid
          · rw [hrecord]
            exact hstore
          · apply hsame.activeStore hrecord
            apply hdone
            rw [List.map_cons, List.mem_cons]
            exact not_or.mpr ⟨hrecord, hsid⟩
      exact hrest.before fun _ h => h.1

theorem Settles.of_sameElsewhere {sid : ByteString} {middle : Ledger} {world : World}
    (hsettles : Settles sid middle world) (hsame : Ledger.SameElsewhere sid ledger middle) :
    Settles sid ledger world := by
  obtain ⟨after, hopen, hafter, hstore⟩ := hsettles
  exact ⟨after, hopen, hsame.trans hafter, hstore⟩

theorem meets_createCatalogStore {record : SessionCatalogRecord} (opening : Opening)
    (hwritable : ledger.Writable record) (hstate : record.state = .active) :
    Meets (Open ledger) (createCatalogStore env record opening)
      (fun _ => Settles record.sid ledger) Recoverable := by
  have hfind := Ledger.find_put_self ledger record
  have hsame := Ledger.sameElsewhere_put ledger record
  have hdeleted : record.state ≠ .deleted := by
    rw [hstate]
    decide
  apply (meets_writeCatalogRecord hwritable).bind
  intro committed
  apply Meets.fact
  intro hcommitted
  rw [if_neg (not_not_intro hcommitted)]
  apply Meets.read
  intro value hopen
  rw [hopen.available, if_neg Bool.false_ne_true]
  cases opening with
  | opened =>
      apply (meets_openStore hfind hdeleted).bind
      intro _
      apply Meets.pure
      intro world hopen
      refine ⟨_, hopen, hsame.trans (Ledger.sameElsewhere_setDirectory _ _ _ _), ?_⟩
      intro current hcurrent _
      have hrecord : some record = some current := hfind.symm.trans hcurrent
      obtain rfl := Option.some.inj hrecord
      exact Ledger.setDirectory_self _ _ _ _
  | failed left =>
      have hmake : Meets (Open (ledger.put record))
          (Op.persist fun world => world.makeDirectory record.sid record.generationUuid left)
          (fun _ => Open ((ledger.put record).setDirectory record.sid record.generationUuid left))
          Recoverable := by
        apply Meets.persist fun _ h => h.recoverable
        intro world hopen
        apply hopen.makeDirectory hfind hdeleted
        rw [hstate]
        rintro (h | h) <;> exact nomatch h
      apply hmake.bind
      intro _
      apply (meets_nowIso8601 env).bind
      intro deletingAt
      apply Meets.fact
      intro hdeletingAt
      have hdeleting :
          ((ledger.put record).setDirectory record.sid record.generationUuid left).Writable
            (record.beginDeletion deletingAt) := by
        refine ⟨hwritable.valid.beginDeletion hdeleted hdeletingAt,
          Or.inl ⟨record, hfind, rfl, ?_⟩, ?_, ?_⟩
        · rw [Follows, hstate]
          exact Transition.deleteActive
        · rintro (h | h) <;> exact nomatch h
        · exact fun h => nomatch h
      apply (meets_writeCatalogRecord hdeleting).bind
      intro committed
      apply Meets.fact
      intro hcommitted
      rw [if_neg (not_not_intro hcommitted)]
      have hfinish := meets_finishCatalogDeletion env
        (Ledger.find_put_self ((ledger.put record).setDirectory record.sid record.generationUuid
          left) (record.beginDeletion deletingAt)) rfl
      apply hfinish.bind
      intro _
      apply Meets.pure
      intro world hsettles
      apply hsettles.of_sameElsewhere
      apply hsame.trans
      apply (Ledger.sameElsewhere_setDirectory _ _ _ _).trans
      exact Ledger.sameElsewhere_put _ (record.beginDeletion deletingAt)

section Administration

variable (hactive : ∀ sid, ledger.ActiveStore sid)
include hactive

theorem Open.settled {world : World} (hopen : Open ledger world) : Settled world :=
  ⟨ledger, hopen, hactive⟩

theorem meets_createSession (sid : ByteString) (ephemeral : Bool) (random : AckToken)
    (snapshotTaken : Bool) (opening : Opening)
    (hfresh : ∀ old ∈ ledger.written,
      old.generationUuid ≠ formatAckToken (generateAckToken random)) :
    Meets (Open ledger) (createSession env sid ephemeral random snapshotTaken opening)
      (fun _ => Settled) Recoverable := by
  have hrefused : Meets (Open ledger) (pure false) (fun _ => Settled) Recoverable :=
    Meets.pure fun world h => h.settled hactive
  apply Meets.read
  intro value hopen
  obtain ⟨process, hprocess, -, -, hinstance⟩ := hopen.process
  rw [hprocess]
  refine Meets.conditional (fun _ => hrefused) fun hvalid => ?_
  refine Meets.conditional (fun _ => hrefused) fun _ => ?_
  refine Meets.conditional (fun _ => hrefused) fun hname => ?_
  refine Meets.conditional (fun _ => hrefused) fun _ => ?_
  apply (meets_nowIso8601 env).bind
  intro createdAt
  apply Meets.fact
  intro hcreatedAt
  have hwritable : ledger.Writable (.create sid (formatAckToken (generateAckToken random))
      process.instanceId ephemeral createdAt) := by
    refine ⟨valid_create ephemeral ?_ ?_ hinstance hcreatedAt, Or.inr ⟨rfl, ?_, hfresh⟩, ?_, ?_⟩
    · by_contra hsid
      exact hvalid (Or.inl hsid)
    · exact isCanonicalUuid_formatAckToken (isValidAckToken_generateAckToken random)
    · intro old hold
      have hfind : value.find sid = some old := (hopen.find sid).trans hold
      rw [hfind] at hname
      simpa using hname
    · rintro (h | h) <;> exact nomatch h
    · exact fun h => nomatch h
  apply (meets_createCatalogStore env opening hwritable rfl).bind
  intro created
  have hdone : ∀ world, Settles sid ledger world → Settled world :=
    fun world hsettles => hsettles.settled fun other _ => hactive other
  refine Meets.conditional (fun _ => Meets.pure fun world h => hdone world h) fun _ => ?_
  have hmap : Meets (Settles sid ledger)
      (Op.update fun world => world.setSession sid <| some
        { generationUuid := formatAckToken (generateAckToken random), lifecycle := .active,
          catalogued := true, reconciled := false })
      (fun _ => Settles sid ledger) Recoverable := by
    apply Meets.update
    rintro world ⟨after, hopen, hsame, hstore⟩
    exact ⟨after, hopen.setSession _ _, hsame, hstore⟩
  apply hmap.bind
  intro _
  exact Meets.pure fun world h => hdone world h

theorem meets_retainSession (sid : ByteString) :
    Meets (Open ledger) (retainSession env sid) (fun _ => Settled) Recoverable := by
  have hrefused : ∀ answer : Bool,
      Meets (Open ledger) (pure answer) (fun _ => Settled) Recoverable :=
    fun _ => Meets.pure fun world h => h.settled hactive
  apply Meets.read
  intro value hopen
  refine Meets.conditional (fun _ => hrefused _) fun _ => ?_
  cases value.session sid with
  | none => exact hrefused _
  | some session =>
      refine Meets.conditional (fun _ => hrefused _) fun _ => ?_
      refine Meets.conditional (fun _ => hrefused _) fun _ => ?_
      refine Meets.conditional (fun _ => hrefused _) fun _ => ?_
      rw [hopen.find]
      cases hfind : ledger.records.find sid with
      | none => exact hrefused _
      | some catalogued =>
          refine Meets.conditional (fun _ => hrefused _) fun hnot => ?_
          have hstate : catalogued.state = .active := not_not.mp hnot
          obtain ⟨hvalid, rfl⟩ := hopen.sound.valid_of_find hfind
          apply (meets_nowIso8601 env).bind
          intro retainedAt
          apply Meets.fact
          intro hretainedAt
          have hwritable : ledger.Writable (catalogued.retain retainedAt) := by
            refine ⟨hvalid.retain hstate hretainedAt, Or.inl ⟨catalogued, hfind, rfl, ?_⟩, ?_, ?_⟩
            · rw [Follows, hstate]
              exact Transition.retain
            · exact fun _ => hactive catalogued.sid catalogued hfind hstate
            · exact fun h => nomatch h
          apply (meets_tryPutCatalogRecord hwritable).bind
          intro committed
          apply Meets.fact
          intro hcommitted
          rw [if_pos hcommitted]
          have hmap : Meets (Open (ledger.put (catalogued.retain retainedAt)))
              (Op.update fun world =>
                world.setSession catalogued.sid (some { session with lifecycle := .retained }))
              (fun _ => Open (ledger.put (catalogued.retain retainedAt))) Recoverable :=
            Meets.update fun _ h => h.setSession _ _
          apply hmap.bind
          intro _
          apply Meets.pure
          intro world hput
          have hsettles : Settles catalogued.sid ledger world := by
            refine ⟨_, hput, Ledger.sameElsewhere_put ledger (catalogued.retain retainedAt), ?_⟩
            intro current hcurrent hcurrentActive
            have hsame := Option.some.inj
              ((Ledger.find_put_self ledger (catalogued.retain retainedAt)).symm.trans hcurrent)
            rw [← hsame] at hcurrentActive
            exact nomatch hcurrentActive
          exact hsettles.settled fun other _ => hactive other

omit hactive in
theorem transition_deleting {state : SessionLifecycleState} (hdeleted : state ≠ .deleted)
    (hdeleting : state ≠ .deleting) : Transition state .deleting := by
  cases state with
  | active => exact Transition.deleteActive
  | retained => exact Transition.deleteRetained
  | orphaned => exact Transition.deleteOrphaned
  | deleting => exact absurd rfl hdeleting
  | deleteFailed => exact Transition.retry
  | deleted => exact absurd rfl hdeleted

omit hactive in
/-- A deletion that has begun has its `deleting` record in the catalog. -/
theorem meets_beginCatalogDeletion (sid : ByteString) (session : Option SessionRecord) :
    Meets (Open ledger) (beginCatalogDeletion env sid session)
      (fun deletion world =>
        match deletion with
        | .begun record => ∃ after : Ledger, (after.records.find sid = some record ∧
            record.sid = sid ∧ record.state = .deleting ∧
            Ledger.SameElsewhere sid ledger after) ∧ Open after world
        | _ => Open ledger world)
      Recoverable := by
  apply Meets.read
  intro value hopen
  refine Meets.conditional (fun _ => Meets.pure fun world h => h) fun _ => ?_
  rw [hopen.find]
  cases hfind : ledger.records.find sid with
  | none => exact Meets.pure fun world h => h
  | some catalogued =>
      obtain ⟨hvalid, rfl⟩ := hopen.sound.valid_of_find hfind
      refine Meets.conditional (fun _ => Meets.pure fun world h => h) fun hdeleted => ?_
      refine Meets.conditional (fun _ => Meets.pure fun world h => h) fun _ => ?_
      refine Meets.conditional (fun hstate => Meets.pure fun world h => ?_) fun hdeleting => ?_
      · exact ⟨ledger, ⟨hfind, rfl, hstate, Ledger.SameElsewhere.refl _ _⟩, h⟩
      · apply (meets_nowIso8601 env).bind
        intro deletingAt
        apply Meets.fact
        intro hdeletingAt
        have hwritable : ledger.Writable (catalogued.beginDeletion deletingAt) := by
          refine ⟨hvalid.beginDeletion hdeleted hdeletingAt,
            Or.inl ⟨catalogued, hfind, rfl, transition_deleting hdeleted hdeleting⟩, ?_, ?_⟩
          · rintro (h | h) <;> exact nomatch h
          · exact fun h => nomatch h
        apply (meets_tryPutCatalogRecord hwritable).bind
        intro committed
        apply Meets.fact
        intro hcommitted
        rw [if_pos hcommitted]
        exact Meets.pure fun world h =>
          ⟨_, ⟨Ledger.find_put_self ledger (catalogued.beginDeletion deletingAt), rfl, rfl,
            Ledger.sameElsewhere_put ledger (catalogued.beginDeletion deletingAt)⟩, h⟩

theorem meets_closeSession (sid : ByteString) :
    Meets (Open ledger) (closeSession env sid) (fun _ => Settled) Recoverable := by
  apply Meets.read
  intro value hopen
  refine Meets.conditional (fun _ => Meets.pure fun world h => h.settled hactive) fun _ => ?_
  apply (meets_beginCatalogDeletion env sid (value.session sid)).bind
  intro deletion
  cases deletion with
  | refused => exact Meets.pure fun world h => h.settled hactive
  | uncatalogued =>
      have hunmap : Meets (Open ledger) (Op.update (·.setSession sid none))
          (fun _ => Open ledger) Recoverable :=
        Meets.update fun _ h => h.setSession _ _
      apply hunmap.bind
      intro _
      exact Meets.pure fun world h => h.settled hactive
  | begun record =>
      apply Meets.choose
      intro after
      apply Meets.fact
      rintro ⟨hfind, rfl, hstate, hsame⟩
      have hunmap : Meets (Open after) (Op.update (·.setSession record.sid none))
          (fun _ => Open after) Recoverable :=
        Meets.update fun _ h => h.setSession _ _
      apply hunmap.bind
      intro _
      apply (meets_finishCatalogDeletion env hfind hstate).after
      intro _ world hsettles
      exact (hsettles.of_sameElsewhere hsame).settled fun other _ => hactive other

end Administration

end Operations

/-! ## Start -/

theorem validInstanceValue_instanceValue {instanceId startedAt : ByteString}
    (hinstance : isCanonicalUuid instanceId = true) (hstarted : isTimestamp startedAt = true) :
    validInstanceValue (instanceValue instanceId startedAt) = true := by
  let members : List JsonMember :=
    [⟨ascii "instance_id", .text instanceId⟩, ⟨ascii "started_at", .text startedAt⟩]
  have htext : instanceValue instanceId startedAt = renderObject members := by
    simp only [members, instanceValue, renderObject, renderMembers, renderMember, renderValue,
      quote, List.flatten, List.append_assoc, List.cons_append]
    rfl
  have hid : isPlainText (ascii "instance_id") = true := by decide
  have hat : isPlainText (ascii "started_at") = true := by decide
  have hparsed : parseFlatObject (renderObject members) = some members := by
    apply parseFlatObject_renderObject
    intro member hmember
    simp only [members, List.mem_cons, List.not_mem_nil, or_false] at hmember
    rcases hmember with rfl | rfl
    · exact ⟨hid, isPlainText_of_isCanonicalUuid hinstance⟩
    · exact ⟨hat, isPlainText_of_isTimestamp hstarted⟩
  rw [validInstanceValue, htext, hparsed]
  simp [members, hinstance, hstarted]

/-- The disk stores this ledger, with or without a process. -/
structure Stored (ledger : Ledger) (world : World) : Prop where
  sound : ledger.Sound
  holds : Holds ledger world
  initialised : world.written ≠ [] → Initialised world

theorem Stored.recoverable {ledger : Ledger} {world : World} (hstored : Stored ledger world) :
    Recoverable world :=
  ⟨ledger, hstored.sound, hstored.holds, hstored.initialised⟩

/-- An initialised catalog loads, and what it loads is the ledger. -/
theorem Holds.loadEntries {ledger : Ledger} {world : World} (hholds : Holds ledger world)
    (hsound : ledger.Sound) {store : CatalogStore} (hstore : world.disk.catalog = some store)
    (hschema : store.schemaEntry = some kSchemaValue)
    (hinstance : store.instanceEntry.any validInstanceValue = true) :
    loadEntries store = some ledger.records := by
  have htexts := hholds.texts
  rw [hstore, Option.elim_some] at htexts
  have hdecode : store.sessions.traverse decodeSessionRecord = some ledger.records := by
    rw [htexts]
    apply OrderedMap.traverse_mapValues
    intro sid record hmem
    obtain ⟨hvalid, rfl⟩ := hsound.valid_of_find ((OrderedMap.mem_entries_iff _ _ _).mp hmem)
    exact hvalid.decode_encode
  rw [Durable.loadEntries, if_neg (not_not_intro hschema), hinstance]
  exact hdecode

theorem meets_openCatalog {ledger : Ledger} {instanceId startedAt : ByteString}
    (hid : isCanonicalUuid instanceId = true) (hstarted : isTimestamp startedAt = true) :
    Meets (Stored ledger) (openCatalog instanceId startedAt)
      (fun opened world =>
        match opened with
        | some records => records = ledger.records ∧ Stored ledger world ∧ Initialised world
        | none => Stored ledger world ∧ world.written = [])
      Recoverable := by
  have hvalue := validInstanceValue_instanceValue hid hstarted
  apply Meets.readSame
  intro value hstored
  obtain ⟨htexts, hgenerations, hwritten⟩ := hstored.holds
  cases hcatalog : value.disk.catalog with
  | none =>
      have hempty : value.written = [] := by
        by_contra hne
        obtain ⟨store, hstore, -⟩ := hstored.initialised hne
        rw [hcatalog] at hstore
        cases hstore
      rw [hcatalog] at htexts
      refine Meets.conditional (fun _ => Meets.pure ?_) fun _ => ?_
      · rintro _ rfl
        exact ⟨hstored, hempty⟩
      -- The database is created first and filled with one batch afterwards.
      let created : World :=
        { value with disk := { value.disk with catalog := some ⟨none, none, .empty⟩ } }
      have hcreated : Stored ledger created :=
        ⟨hstored.sound, ⟨htexts, hgenerations, hwritten⟩, fun hne => absurd hempty hne⟩
      have hcreate : Meets (· = value)
          (Op.persist fun world =>
            { world with disk := { world.disk with catalog := some ⟨none, none, .empty⟩ } })
          (fun _ world => world = created) Recoverable := by
        apply Meets.persist
        · rintro _ rfl
          exact hstored.recoverable
        · rintro _ rfl
          rfl
      apply hcreate.bind
      intro _
      have hfill : Meets (· = created)
          (Op.persist fun world =>
            { world with disk := { world.disk with
                catalog := world.disk.catalog.map fun store =>
                  { store with
                    schemaEntry := some kSchemaValue
                    instanceEntry := some (instanceValue instanceId startedAt) } } })
          (fun _ world => Stored ledger world ∧ Initialised world) Recoverable := by
        apply Meets.persist
        · rintro _ rfl
          exact hcreated.recoverable
        · rintro _ rfl
          have hinitialised : Initialised
              { created with disk := { created.disk with
                  catalog := created.disk.catalog.map fun store =>
                    { store with
                      schemaEntry := some kSchemaValue
                      instanceEntry := some (instanceValue instanceId startedAt) } } } :=
            ⟨_, rfl, rfl, hvalue⟩
          exact ⟨⟨hstored.sound, ⟨htexts, hgenerations, hwritten⟩, fun _ => hinitialised⟩,
            hinitialised⟩
      apply hfill.bind
      intro _
      apply Meets.pure
      intro world hworld
      refine ⟨?_, hworld⟩
      have hentries := congrArg OrderedMap.entries htexts
      have hnil : ledger.records.entries = [] := by
        simpa [OrderedMap.mapValues, OrderedMap.empty] using hentries.symm
      cases hrecords : ledger.records with
      | mk entries nodup =>
          rw [hrecords] at hnil
          subst hnil
          rfl
  | some store =>
      dsimp only
      cases hload : loadEntries store with
      | none =>
          apply Meets.pure
          rintro _ rfl
          refine ⟨hstored, ?_⟩
          by_contra hne
          obtain ⟨store', hstore, hschema, hinstance⟩ := hstored.initialised hne
          obtain rfl := Option.some.inj (hcatalog.symm.trans hstore)
          rw [hstored.holds.loadEntries hstored.sound hcatalog hschema hinstance] at hload
          cases hload
      | some records =>
          obtain ⟨hschema, hinstance⟩ : store.schemaEntry = some kSchemaValue ∧
              store.instanceEntry.any validInstanceValue = true := by
            unfold loadEntries at hload
            split_ifs at hload with hschema hinstance
            exact ⟨not_not.mp hschema, by simpa using hinstance⟩
          have hsame := hstored.holds.loadEntries hstored.sound hcatalog hschema hinstance
          rw [hload] at hsame
          have hrecord : Meets (· = value)
              (Op.persist fun world =>
                { world with disk := { world.disk with
                    catalog := world.disk.catalog.map fun store =>
                      { store with
                        instanceEntry := some (instanceValue instanceId startedAt) } } })
              (fun _ world => Stored ledger world ∧ Initialised world) Recoverable := by
            apply Meets.persist
            · rintro _ rfl
              exact hstored.recoverable
            · intro world hworld
              rw [hworld]
              have hinitialised : Initialised
                  { value with disk := { value.disk with
                      catalog := value.disk.catalog.map fun store =>
                        { store with
                          instanceEntry := some (instanceValue instanceId startedAt) } } } := by
                refine ⟨{ store with
                  instanceEntry := some (instanceValue instanceId startedAt) }, ?_, hschema,
                  hvalue⟩
                simp only [hcatalog, Option.map_some]
              refine ⟨⟨hstored.sound, ⟨?_, hgenerations, hwritten⟩, fun _ => hinitialised⟩,
                hinitialised⟩
              rw [hcatalog] at htexts
              simp only [hcatalog, Option.map_some]
              exact htexts
          apply hrecord.bind
          intro _
          exact Meets.pure fun world hworld => ⟨Option.some.inj hsame, hworld⟩

/-- The catalog could not be opened, which takes a crash before its first batch. -/
def Latched (world : World) : Prop :=
  world.process.isSome = true ∧ world.catalogUnavailable = true ∧ Recoverable world

theorem meets_start {ledger : Ledger} (env : Environment) (random : AckToken) :
    Meets (fun world => Stored ledger world ∧ world.process = none) (start env random)
      (fun _ world => Settled world ∨ (ledger.written = [] ∧ Latched world)) Recoverable := by
  apply Meets.read
  rintro value ⟨-, hnone⟩
  rw [hnone, if_neg (by decide)]
  have hclock : Meets (Stored ledger) (nowIso8601 env)
      (fun text world => isTimestamp text = true ∧ Stored ledger world) Recoverable := by
    apply meets_clock
    intro world hstored
    exact ⟨hstored.sound,
      ⟨hstored.holds.texts, hstored.holds.generations, hstored.holds.written⟩,
      hstored.initialised⟩
  apply (hclock.before fun world h => h.1).bind
  intro startedAt
  apply Meets.fact
  intro hstartedAt
  have hid := isCanonicalUuid_formatAckToken (isValidAckToken_generateAckToken random)
  apply (meets_openCatalog hid hstartedAt).bind
  intro opened
  cases opened with
  | none =>
      have hlatch : Meets (fun world => Stored ledger world ∧ world.written = [])
          (Op.update fun world =>
            { world with
              process := some
                { instanceId := formatAckToken (generateAckToken random), catalog := none,
                  catalogUnavailable := true, sessions := fun _ => none } })
          (fun _ world => ledger.written = [] ∧ Latched world) Recoverable := by
        apply Meets.update
        rintro world ⟨hstored, hempty⟩
        have hledger : ledger.written = [] := hstored.holds.written ▸ hempty
        exact ⟨hledger, rfl, rfl, ledger, hstored.sound,
          ⟨hstored.holds.texts, hstored.holds.generations, hstored.holds.written⟩,
          hstored.initialised⟩
      apply hlatch.bind
      intro _
      exact Meets.pure fun world h => Or.inr h
  | some records =>
      apply Meets.fact
      rintro rfl
      have hrun : Meets (fun world => Stored ledger world ∧ Initialised world)
          (Op.update fun world =>
            { world with
              process := some
                { instanceId := formatAckToken (generateAckToken random),
                  catalog := some ledger.records, catalogUnavailable := false,
                  sessions := fun _ => none } })
          (fun _ => Open ledger) Recoverable := by
        apply Meets.update
        rintro world ⟨hstored, hinitialised⟩
        exact ⟨hstored.sound,
          ⟨hstored.holds.texts, hstored.holds.generations, hstored.holds.written⟩, hinitialised,
          _, rfl, rfl, rfl, hid⟩
      apply hrun.bind
      intro _
      have hreconcile : Meets (Open ledger)
          (reconcileCatalog env (ledger.records.entries.map Prod.snd)) (fun _ => Settled)
          Recoverable := by
        apply Meets.assuming
        intro world hopen
        have hsid : ∀ entry ∈ ledger.records.entries, entry.2.sid = entry.1 := fun entry hentry =>
          (hopen.sound.valid_of_find ((OrderedMap.mem_entries_iff _ _ _).mp hentry)).2
        have hsids : (ledger.records.entries.map Prod.snd).map (·.sid) =
            ledger.records.entries.map Prod.fst := by
          rw [List.map_map]
          exact List.map_congr_left hsid
        apply meets_reconcileCatalog
        · intro record hrecord
          obtain ⟨entry, hentry, rfl⟩ := List.mem_map.mp hrecord
          rw [hsid entry hentry]
          exact (OrderedMap.mem_entries_iff _ _ _).mp hentry
        · rw [hsids]
          exact ledger.records.nodup
        · intro sid hmissing record hfind
          rw [hsids] at hmissing
          exact absurd (List.mem_map_of_mem ((OrderedMap.mem_entries_iff _ _ _).mpr hfind))
            hmissing
      apply hreconcile.bind
      intro _
      exact Meets.pure fun world h => Or.inl h

/-! ## Runs -/

/-- Between operations. -/
def Idle (world : World) : Prop :=
  (world.process = none ∧ Recoverable world) ∨ Settled world ∨ Latched world

theorem Settled.recoverable {world : World} (hsettled : Settled world) : Recoverable world := by
  obtain ⟨ledger, hopen, -⟩ := hsettled
  exact hopen.recoverable

theorem Idle.recoverable {world : World} (hidle : Idle world) : Recoverable world := by
  rcases hidle with ⟨-, h⟩ | h | ⟨-, -, h⟩
  · exact h
  · exact h.recoverable
  · exact h

theorem Recoverable.lose {world : World} (hworld : Recoverable world) :
    Recoverable { world with process := none } := by
  obtain ⟨ledger, hsound, ⟨htexts, hgenerations, hwritten⟩, hinitialised⟩ := hworld
  exact ⟨ledger, hsound, ⟨htexts, hgenerations, hwritten⟩, hinitialised⟩

/-- Administration without a process, or on a latched one, does nothing. -/
theorem perform_refused (env : Environment) {action : Action} {world : World} (lifetime : ℕ)
    (hworld : (world.process = none ∧ ∀ random, action ≠ .start random) ∨
      (world.process.isSome = true ∧ world.catalogUnavailable = true))
    (hstop : action ≠ .stop) :
    perform env action lifetime world = (some (false, lifetime), world) := by
  cases action with
  | start random =>
      rcases hworld with ⟨-, hstart⟩ | ⟨hsome, -⟩
      · exact absurd rfl (hstart random)
      · rw [perform, start, Op.read_bind, if_pos hsome]
        rfl
  | stop => exact absurd rfl hstop
  | create sid ephemeral random snapshotTaken opening =>
      rw [perform, createSession, Op.read_bind]
      rcases hworld with ⟨hnone, -⟩ | ⟨hsome, hlatched⟩
      · rw [hnone]
        rfl
      · obtain ⟨process, hprocess⟩ := Option.isSome_iff_exists.mp hsome
        have hunavailable : process.catalogUnavailable = true := by
          simpa [World.catalogUnavailable, hprocess] using hlatched
        rw [hprocess]
        dsimp only
        rw [if_pos (Or.inr hunavailable)]
        rfl
  | retain sid =>
      have hrefused : ¬Key.isValidSessionId sid = true ∨ world.process.isNone = true ∨
          world.catalogUnavailable = true := by
        rcases hworld with ⟨hnone, -⟩ | ⟨-, hlatched⟩
        · exact Or.inr (Or.inl (by rw [hnone]; rfl))
        · exact Or.inr (Or.inr hlatched)
      rw [perform, retainSession, Op.read_bind, if_pos hrefused]
      rfl
  | close sid =>
      have hrefused : world.process.isNone = true ∨ world.catalogUnavailable = true := by
        rcases hworld with ⟨hnone, -⟩ | ⟨-, hlatched⟩
        · exact Or.inl (by rw [hnone]; rfl)
        · exact Or.inr hlatched
      rw [perform, closeSession, Op.read_bind, if_pos hrefused]
      rfl

theorem meets_perform_settled (env : Environment) {action : Action} (hstop : action ≠ .stop) :
    Meets (fun world => Settled world ∧ isFresh world action = true) (perform env action)
      (fun _ => Idle) Recoverable := by
  intro lifetime world
  rintro ⟨⟨ledger, hopen, hactive⟩, hfresh⟩
  have hdone : ∀ value : Bool, ∀ next, Settled next → Idle next := fun _ _ h => Or.inr (Or.inl h)
  cases action with
  | start random =>
      have hsame : perform env (.start random) lifetime world = (some (false, lifetime), world) := by
        rw [perform, start, Op.read_bind, if_pos hopen.isSome_process]
        rfl
      rw [hsame]
      exact Or.inr (Or.inl ⟨ledger, hopen, hactive⟩)
  | stop => exact absurd rfl hstop
  | create sid ephemeral random snapshotTaken opening =>
      have hunused : ∀ old ∈ ledger.written,
          old.generationUuid ≠ formatAckToken (generateAckToken random) := by
        intro old hold
        rw [isFresh, List.all_eq_true] at hfresh
        rw [← hopen.holds.written] at hold
        simpa using hfresh old hold
      exact (meets_createSession env hactive sid ephemeral random snapshotTaken opening
        hunused).after hdone lifetime world hopen
  | retain sid => exact (meets_retainSession env hactive sid).after hdone lifetime world hopen
  | close sid => exact (meets_closeSession env hactive sid).after hdone lifetime world hopen

theorem meets_perform (env : Environment) (action : Action) :
    Meets (fun world => Idle world ∧ isFresh world action = true) (perform env action)
      (fun _ => Idle) Recoverable := by
  rintro lifetime world ⟨hidle, hfresh⟩
  by_cases hstop : action = .stop
  · subst hstop
    exact Or.inl ⟨rfl, hidle.recoverable.lose⟩
  rcases hidle with ⟨hnone, hrecoverable⟩ | hsettled | hlatched
  · by_cases hstart : ∃ random, action = .start random
    · obtain ⟨random, rfl⟩ := hstart
      obtain ⟨ledger, hsound, hholds, hinitialised⟩ := hrecoverable
      apply (meets_start env random).after _ lifetime world
        ⟨⟨hsound, hholds, hinitialised⟩, hnone⟩
      rintro _ next (hsettled | ⟨-, hlatched⟩)
      · exact Or.inr (Or.inl hsettled)
      · exact Or.inr (Or.inr hlatched)
    · have hsame := perform_refused env lifetime
        (Or.inl ⟨hnone, fun random h => hstart ⟨random, h⟩⟩) hstop
      rw [hsame]
      exact Or.inl ⟨hnone, hrecoverable⟩
  · exact meets_perform_settled env hstop lifetime world ⟨hsettled, hfresh⟩
  · have hsame := perform_refused env lifetime (Or.inr ⟨hlatched.1, hlatched.2.1⟩) hstop
    rw [hsame]
    exact Or.inr (Or.inr hlatched)

theorem Idle.step {env : Environment} {world next : World} {call : ℕ × Action}
    (hidle : Idle world) (hstep : step env world call = some next) : Idle next := by
  rw [Durable.step] at hstep
  split_ifs at hstep with hfresh
  have hmeets := meets_perform env call.2 call.1 world ⟨hidle, hfresh⟩
  cases hresult : perform env call.2 call.1 world with
  | mk result after =>
      rw [hresult] at hstep hmeets
      cases result with
      | some answer =>
          obtain rfl := Option.some.inj hstep
          exact hmeets
      | none =>
          obtain rfl := Option.some.inj hstep
          exact Or.inl ⟨rfl, Recoverable.lose hmeets⟩

theorem idle_initial : Idle World.initial := by
  refine Or.inl ⟨rfl, Ledger.initial, Ledger.sound_initial, ⟨rfl, rfl, rfl⟩, ?_⟩
  exact fun hne => absurd rfl hne

theorem idle_run {env : Environment} {calls : List (ℕ × Action)} {world : World}
    (hrun : Machine.run (step env) World.initial calls = some world) : Idle world :=
  Machine.run_invariant (fun _ _ _ hidle hstep => hidle.step hstep) idle_initial hrun

/-- The records written for one session id, and the last of them. -/
def World.recordsOf (world : World) (sid : ByteString) : List SessionCatalogRecord :=
  world.written.filter (·.sid == sid)

def World.currentRecord (world : World) (sid : ByteString) : Option SessionCatalogRecord :=
  (world.recordsOf sid).getLast?

/-- Whatever was called in whatever order, wherever a process died and however
removals ended: every record written is decoded back to itself, the catalog on
disk loads to the last record of each session id, the next start that runs to
its end is not latched, the records of a generation follow the transitions, and
records and directories agree. -/
theorem catalog_valid_across_runs {env : Environment} {calls : List (ℕ × Action)} {world : World}
    (hrun : Machine.run (step env) World.initial calls = some world) :
    (∀ record ∈ world.written,
      decodeSessionRecord record.sid (encodeSessionRecord record) = some record) ∧
    (world.written ≠ [] → ∃ store records, world.disk.catalog = some store ∧
      loadEntries store = some records ∧ ∀ sid, records.find sid = world.currentRecord sid) ∧
    (world.written ≠ [] → world.process = none → ∀ random lifetime,
      match start env random lifetime world with
      | (some _, next) => next.hasCatalog = true ∧ next.catalogUnavailable = false
      | (none, _) => True) ∧
    (∀ sid generation,
      ((world.recordsOf sid).filter (·.generationUuid == generation)).IsChain Follows) ∧
    (∀ sid record, world.currentRecord sid = some record →
      record.state = .retained ∨ record.state = .orphaned →
        world.disk.generations sid record.generationUuid = .store) ∧
    (∀ sid generation, world.disk.generations sid generation ≠ .absent →
      ∃ record, world.currentRecord sid = some record ∧ record.generationUuid = generation ∧
        record.state ≠ .deleted) ∧
    (∀ sid record, world.currentRecord sid = some record → record.state = .deleted →
      world.disk.generations sid record.generationUuid = .absent) := by
  obtain ⟨ledger, hsound, hholds, hinitialised⟩ := (idle_run hrun).recoverable
  have hrecords : ∀ sid, world.recordsOf sid = ledger.recordsOf sid := by
    intro sid
    rw [World.recordsOf, hholds.written]
    rfl
  have hcurrent : ∀ sid, world.currentRecord sid = ledger.records.find sid := by
    intro sid
    rw [World.currentRecord, hrecords, ← hsound.current]
  refine ⟨?_, ?_, ?_, ?_, ?_, ?_, ?_⟩
  · intro record hrecord
    rw [hholds.written] at hrecord
    exact (hsound.valid record hrecord).decode_encode
  · intro hwritten
    obtain ⟨store, hstore, hschema, hinstance⟩ := hinitialised hwritten
    exact ⟨store, ledger.records, hstore, hholds.loadEntries hsound hstore hschema hinstance,
      fun sid => (hcurrent sid).symm⟩
  · intro hwritten hnone random lifetime
    have hmeets := meets_start env random lifetime world
      ⟨⟨hsound, hholds, hinitialised⟩, hnone⟩
    cases hresult : start env random lifetime world with
    | mk result next =>
        rw [hresult] at hmeets
        cases result with
        | none => trivial
        | some answer =>
            rcases hmeets with ⟨after, hopen, -⟩ | ⟨hempty, -⟩
            · exact ⟨hopen.hasCatalog, hopen.available⟩
            · rw [← hholds.written] at hempty
              exact absurd hempty hwritten
  · intro sid generation
    rw [hrecords]
    exact hsound.transitions sid generation
  · intro sid record hfind hkept
    rw [hcurrent] at hfind
    rw [hholds.generations]
    exact hsound.stores sid record hfind hkept
  · intro sid generation hdirectory
    rw [hholds.generations] at hdirectory
    rw [hcurrent]
    exact hsound.directories sid generation hdirectory
  · intro sid record hfind hstate
    rw [hcurrent] at hfind
    rw [hholds.generations]
    exact hsound.deleted_gone hfind hstate record.generationUuid

/-- A session whose process dies after the `active` record and before the
store, and the start after that. -/
def crashedCreation : List (ℕ × Action) :=
  let token : AckToken := ⟨List.replicate 16 0, rfl⟩
  [(9, .start token), (1, .create (ascii "s1") false token true .opened), (9, .start token)]

def quietEnvironment : Environment where
  clock := fun _ => ⟨ascii "2026-01-02T03:04:05Z", by decide⟩
  removal := fun _ => .removed

theorem catalog_valid_across_runs_crashedCreation :
    ∃ world, Machine.run (step quietEnvironment) World.initial crashedCreation = some world ∧
      world.written.map (·.state) = [.active, .orphaned] ∧
      ∀ sid record, world.currentRecord sid = some record →
        record.state = .retained ∨ record.state = .orphaned →
          world.disk.generations sid record.generationUuid = .store := by
  have hrun : (Machine.run (step quietEnvironment) World.initial crashedCreation).map
      (fun world => world.written.map (·.state)) = some [.active, .orphaned] := by
    decide +kernel
  obtain ⟨world, hworld, hstates⟩ := Option.map_eq_some_iff.mp hrun
  exact ⟨world, hworld, hstates, (catalog_valid_across_runs hworld).2.2.2.2.1⟩

end Sitos.Durable

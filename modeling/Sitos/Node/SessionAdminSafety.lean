import Sitos.Core.Machine
import Sitos.Node.SessionAdmin

/-!
# Safety of concurrent administration

What each task may rely on between its blocks.  A creator relies on the record
it has published: nobody else changes the catalog while it is creating.  A
closer relies on its generation being under deletion, which nothing takes back:
no block writes `active` or `retained` over it, opens an engine on it or
creates its directory again.
-/

namespace Sitos.Admin

open Sitos.Bytes Sitos.Catalog Sitos.Tasks

/-! ## Invariant -/

/-- The deletion of this generation has been recorded and is never taken back. -/
def Pending (shared : Shared) (generation : ByteString) : Prop :=
  generation ∈ shared.written ∧
    ∀ record, shared.catalog = some record → record.generationUuid = generation →
      record.state = .deleting ∨ record.state = .deleteFailed ∨ record.state = .deleted

/-- No record owns an engine on this generation. -/
def NoEngine (shared : Shared) (generation : ByteString) : Prop :=
  ∀ handle < shared.allocated, (shared.records handle).generation = generation →
    (shared.records handle).engine = false

/-- The session id is free in the catalog. -/
def Free (shared : Shared) : Prop :=
  ∀ record, shared.catalog = some record → record.state = .deleted

/-- What a creator has found or left in the catalog before its store is open. -/
def Creatable (shared : Shared) : Prop :=
  Free shared ∨ ∃ record, shared.catalog = some record ∧ record.state = .active

/-- Records made since `seen` records existed have other generations. -/
def Older (shared : Shared) (seen : ℕ) (generation : ByteString) : Prop :=
  ∀ handle, seen ≤ handle → handle < shared.allocated →
    (shared.records handle).generation ≠ generation

/-- The mapped record, in this phase. -/
structure Mapped (shared : Shared) (handle : ℕ) (phase : Phase) : Prop where
  allocated : handle < shared.allocated
  sessions : shared.sessions = some handle
  phase : (shared.records handle).phase = phase

structure SharedInv (shared : Shared) : Prop where
  distinct : ∀ first < shared.allocated, ∀ second < shared.allocated,
    (shared.records first).generation = (shared.records second).generation → first = second
  used : ∀ handle < shared.allocated, (shared.records handle).generation ∈ shared.used
  written : ∀ generation ∈ shared.written, generation ∈ shared.used
  catalog : ∀ record, shared.catalog = some record → record.generationUuid ∈ shared.written
  directories : ∀ generation ∈ shared.written, shared.directories generation ≠ .absent →
    ∃ record, shared.catalog = some record ∧ record.generationUuid = generation ∧
      record.state ≠ .deleted
  engine : ∀ handle < shared.allocated, (shared.records handle).engine = true →
    shared.sessions = some handle
  active : ∀ handle < shared.allocated, (shared.records handle).phase = .active →
    shared.sessions = some handle
  mapped : ∀ handle, shared.sessions = some handle → handle < shared.allocated

/-- The record a task alone may change: the one it creates, or the one it
closes. -/
def owner : Task → Option ℕ
  | .publish handle | .takeSnapshot handle | .writeActive handle _ | .makeDirectory handle _
  | .openStore handle _ | .abandonStore handle _ | .activate handle | .rollBack handle
  | .withdraw handle | .drain handle _ _ | .release handle _ _ | .unmap handle _ _ => some handle
  | .removeGeneration _ (.rollBack handle) | .recordRemoval _ _ (.rollBack handle) => some handle
  | .latch next => owner next
  | _ => none

/-- The generation a closer deletes: that of the record it closes. -/
def Deleting (shared : Shared) (handle seen : ℕ) (record : SessionCatalogRecord) : Prop :=
  Pending shared record.generationUuid ∧
    record.generationUuid = (shared.records handle).generation ∧
    Older shared seen record.generationUuid

def AtContinuation (shared : Shared) (generation : ByteString) : Continuation → Prop
  | .rollBack handle => Mapped shared handle .creating
  | .done seen => Older shared seen generation

/-- What a task relies on. -/
def At (shared : Shared) : Task → Prop
  | .publish handle =>
      handle < shared.allocated ∧ (shared.records handle).phase = .creating ∧
        shared.sessions ≠ some handle ∧ (shared.records handle).engine = false ∧
        (shared.records handle).generation ∉ shared.written
  | .takeSnapshot handle | .writeActive handle _ =>
      Mapped shared handle .creating ∧ (shared.records handle).engine = false ∧
        (shared.records handle).generation ∉ shared.written ∧ Free shared
  | .makeDirectory handle record | .openStore handle record | .abandonStore handle record =>
      Mapped shared handle .creating ∧ (shared.records handle).engine = false ∧
        shared.catalog = some record ∧
        record.generationUuid = (shared.records handle).generation ∧ record.state = .active
  | .activate handle | .rollBack handle => Mapped shared handle .creating
  | .withdraw handle =>
      Mapped shared handle .creating ∧ (shared.records handle).engine = false
  | .beginDeletion session seen =>
      seen ≤ shared.allocated ∧ ∀ handle, session = some handle → handle < seen
  | .drain handle record seen | .release handle record seen =>
      Mapped shared handle .closing ∧
        ∀ deleted, record = some deleted → Deleting shared handle seen deleted
  | .unmap handle record seen =>
      Mapped shared handle .closing ∧ (shared.records handle).engine = false ∧
        ∀ deleted, record = some deleted → Deleting shared handle seen deleted
  | .removeGeneration record next =>
      Pending shared record.generationUuid ∧ NoEngine shared record.generationUuid ∧
        AtContinuation shared record.generationUuid next
  | .recordRemoval record error next =>
      Pending shared record.generationUuid ∧ NoEngine shared record.generationUuid ∧
        (error = none → shared.directories record.generationUuid = .absent) ∧
        AtContinuation shared record.generationUuid next
  | .retain handle | .leave handle => handle < shared.allocated
  | .latch next => At shared next
  | .idle | .select | .beginClose _ | .acquire => True

/-- Two tasks never own the same record. -/
def Apart (first second : Task) : Prop :=
  ∀ handle, owner first = some handle → owner second ≠ some handle

theorem Apart.symm {first second : Task} (hapart : Apart first second) : Apart second first :=
  fun handle hsecond hfirst => hapart handle hfirst hsecond

abbrev Inv : State → Prop := Invariant SharedInv At Apart

/-! ## What a block leaves alone -/

/-- What every block of a task that owns `acting` guarantees to the others. -/
structure Frame (acting : Option ℕ) (before after : Shared) : Prop where
  allocated : before.allocated ≤ after.allocated
  generation : ∀ handle < before.allocated,
    (after.records handle).generation = (before.records handle).generation
  fresh : ∀ handle, before.allocated ≤ handle → handle < after.allocated →
    (after.records handle).generation ∉ before.used
  phase : ∀ handle < before.allocated, acting ≠ some handle →
    (before.records handle).phase ≠ .active →
      (after.records handle).phase = (before.records handle).phase
  engine : ∀ handle < before.allocated, acting ≠ some handle →
    (before.records handle).engine = false → (after.records handle).engine = false
  sessions : ∀ handle < before.allocated, acting ≠ some handle →
    (after.sessions = some handle ↔ before.sessions = some handle)
  written : ∀ generation ∈ before.written, generation ∈ after.written
  writer : ∀ generation ∈ after.written, generation ∈ before.written ∨
    ∃ handle < before.allocated, acting = some handle ∧
      generation = (before.records handle).generation
  catalog : ∀ handle, acting ≠ some handle → Mapped before handle .creating →
    Creatable before → after.catalog = before.catalog
  pending : ∀ generation, Pending before generation → Pending after generation
  quiet : ∀ generation, Pending before generation → NoEngine before generation →
    NoEngine after generation
  gone : ∀ generation, Pending before generation → before.directories generation = .absent →
    after.directories generation = .absent

section Frame

variable {acting : Option ℕ} {before after : Shared} (hframe : Frame acting before after)
include hframe

theorem Frame.mapped {handle : ℕ} {phase : Phase} (hother : acting ≠ some handle)
    (hphase : phase ≠ .active) (hmapped : Mapped before handle phase) :
    Mapped after handle phase where
  allocated := lt_of_lt_of_le hmapped.allocated hframe.allocated
  sessions := (hframe.sessions handle hmapped.allocated hother).mpr hmapped.sessions
  phase := by
    rw [hframe.phase handle hmapped.allocated hother (by rw [hmapped.phase]; exact hphase)]
    exact hmapped.phase

theorem Frame.older (hinv : SharedInv before) {seen : ℕ} {generation : ByteString}
    (hwritten : generation ∈ before.written) (holder : Older before seen generation) :
    Older after seen generation := by
  intro handle hseen hhandle
  by_cases hold : handle < before.allocated
  · rw [hframe.generation handle hold]
    exact holder handle hseen hold
  · intro hsame
    apply hframe.fresh handle (Nat.le_of_not_lt hold) hhandle
    rw [hsame]
    exact hinv.written generation hwritten

theorem Frame.deleting (hinv : SharedInv before) {handle seen : ℕ}
    {record : SessionCatalogRecord} (hhandle : handle < before.allocated)
    (hdeleting : Deleting before handle seen record) : Deleting after handle seen record := by
  obtain ⟨hpending, hgeneration, holder⟩ := hdeleting
  refine ⟨hframe.pending _ hpending, ?_, hframe.older hinv hpending.1 holder⟩
  rw [hframe.generation handle hhandle]
  exact hgeneration

theorem Frame.unwritten (hinv : SharedInv before) {handle : ℕ} (hother : acting ≠ some handle)
    (hhandle : handle < before.allocated)
    (hunwritten : (before.records handle).generation ∉ before.written) :
    (after.records handle).generation ∉ after.written := by
  rw [hframe.generation handle hhandle]
  intro hafter
  rcases hframe.writer _ hafter with hbefore | ⟨writer, hwriter, hacting, hsame⟩
  · exact hunwritten hbefore
  · have heq := hinv.distinct handle hhandle writer hwriter hsame
    exact hother (heq ▸ hacting)

theorem Frame.continuation (hinv : SharedInv before) {generation : ByteString}
    {next : Continuation} (hwritten : generation ∈ before.written)
    (hother : ∀ handle, next = .rollBack handle → acting ≠ some handle)
    (hat : AtContinuation before generation next) : AtContinuation after generation next := by
  cases next with
  | rollBack handle => exact hframe.mapped (hother handle rfl) (by decide) hat
  | done seen => exact hframe.older hinv hwritten hat

/-- What a task relies on survives the blocks of the others. -/
theorem Frame.at_other (hinv : SharedInv before) {task : Task} (hat : At before task)
    (hother : ∀ handle, owner task = some handle → acting ≠ some handle) : At after task := by
  induction task with
  | idle | select | beginClose | acquire => trivial
  | retain handle | leave handle => exact lt_of_lt_of_le hat hframe.allocated
  | publish handle =>
      obtain ⟨hhandle, hphase, hsessions, hengine, hunwritten⟩ := hat
      have hne := hother handle rfl
      refine ⟨lt_of_lt_of_le hhandle hframe.allocated, ?_, ?_,
        hframe.engine handle hhandle hne hengine, hframe.unwritten hinv hne hhandle hunwritten⟩
      · rw [hframe.phase handle hhandle hne (by rw [hphase]; decide)]
        exact hphase
      · rw [Ne, hframe.sessions handle hhandle hne]
        exact hsessions
  | takeSnapshot handle | writeActive handle =>
      obtain ⟨hmapped, hengine, hunwritten, hfree⟩ := hat
      have hne := hother handle rfl
      refine ⟨hframe.mapped hne (by decide) hmapped,
        hframe.engine handle hmapped.allocated hne hengine,
        hframe.unwritten hinv hne hmapped.allocated hunwritten, ?_⟩
      rw [Free, hframe.catalog handle hne hmapped (Or.inl hfree)]
      exact hfree
  | makeDirectory handle record | openStore handle record | abandonStore handle record =>
      obtain ⟨hmapped, hengine, hcatalog, hgeneration, hstate⟩ := hat
      have hne := hother handle rfl
      refine ⟨hframe.mapped hne (by decide) hmapped,
        hframe.engine handle hmapped.allocated hne hengine, ?_, ?_, hstate⟩
      · rw [hframe.catalog handle hne hmapped (Or.inr ⟨record, hcatalog, hstate⟩)]
        exact hcatalog
      · rw [hframe.generation handle hmapped.allocated]
        exact hgeneration
  | activate handle | rollBack handle => exact hframe.mapped (hother handle rfl) (by decide) hat
  | withdraw handle =>
      exact ⟨hframe.mapped (hother handle rfl) (by decide) hat.1,
        hframe.engine handle hat.1.allocated (hother handle rfl) hat.2⟩
  | beginDeletion session seen => exact ⟨le_trans hat.1 hframe.allocated, hat.2⟩
  | drain handle record seen | release handle record seen =>
      obtain ⟨hmapped, hdeleting⟩ := hat
      exact ⟨hframe.mapped (hother handle rfl) (by decide) hmapped, fun deleted hrecord =>
        hframe.deleting hinv hmapped.allocated (hdeleting deleted hrecord)⟩
  | unmap handle record seen =>
      obtain ⟨hmapped, hengine, hdeleting⟩ := hat
      exact ⟨hframe.mapped (hother handle rfl) (by decide) hmapped,
        hframe.engine handle hmapped.allocated (hother handle rfl) hengine,
        fun deleted hrecord => hframe.deleting hinv hmapped.allocated (hdeleting deleted hrecord)⟩
  | removeGeneration record next =>
      obtain ⟨hpending, hquiet, hnext⟩ := hat
      refine ⟨hframe.pending _ hpending, hframe.quiet _ hpending hquiet,
        hframe.continuation hinv hpending.1 ?_ hnext⟩
      rintro handle rfl
      exact hother handle rfl
  | recordRemoval record error next =>
      obtain ⟨hpending, hquiet, hgone, hnext⟩ := hat
      refine ⟨hframe.pending _ hpending, hframe.quiet _ hpending hquiet,
        fun herror => hframe.gone _ hpending (hgone herror),
        hframe.continuation hinv hpending.1 ?_ hnext⟩
      rintro handle rfl
      exact hother handle rfl
  | latch next ih => exact ih hat hother

end Frame

/-! ## Moves

The changes blocks are made of, each with what it needs to keep the shared
invariant and the guarantee to the others. -/

structure Move (acting : Option ℕ) (before after : Shared) : Prop where
  shared : SharedInv after
  frame : Frame acting before after

section Moves

variable {acting : Option ℕ} {shared : Shared} (hinv : SharedInv shared)
include hinv

theorem move_refl : Move acting shared shared where
  shared := hinv
  frame :=
    { allocated := le_refl _
      generation := fun _ _ => rfl
      fresh := fun _ hlow hhigh => absurd hhigh (Nat.not_lt.mpr hlow)
      phase := fun _ _ _ _ => rfl
      engine := fun _ _ _ h => h
      sessions := fun _ _ _ => Iff.rfl
      written := fun _ h => h
      writer := fun _ h => Or.inl h
      catalog := fun _ _ _ _ => rfl
      pending := fun _ h => h
      quiet := fun _ _ h => h
      gone := fun _ _ h => h }

theorem move_latch : Move acting shared { shared with catalogUnavailable := true } where
  shared := ⟨hinv.distinct, hinv.used, hinv.written, hinv.catalog, hinv.directories, hinv.engine,
    hinv.active, hinv.mapped⟩
  frame :=
    { (move_refl hinv).frame with }

/-- One record changes, in fields that the blocks of its owner, or the state it
is in, allow to change. -/
theorem move_modify {handle : ℕ} {change : SessionRecord → SessionRecord}
    (hgeneration : (change (shared.records handle)).generation =
      (shared.records handle).generation)
    (hactive : (change (shared.records handle)).phase = .active →
      shared.sessions = some handle)
    (hengine : (change (shared.records handle)).engine = true →
      (shared.records handle).engine = true ∨
        (shared.sessions = some handle ∧ acting = some handle ∧
          ¬Pending shared (shared.records handle).generation))
    (hphase : acting = some handle ∨ (shared.records handle).phase = .active ∨
      (change (shared.records handle)).phase = (shared.records handle).phase) :
    Move acting shared (shared.modify handle change) where
  shared :=
    { distinct := by
        have hsame : ∀ other, ((shared.modify handle change).records other).generation =
            (shared.records other).generation := by
          intro other
          by_cases hother : other = handle
          · rw [hother, Shared.modify_self, hgeneration]
          · rw [Shared.modify_of_ne _ _ hother]
        intro first hfirst second hsecond heq
        rw [hsame, hsame] at heq
        exact hinv.distinct first hfirst second hsecond heq
      used := by
        intro other hother
        by_cases hsame : other = handle
        · rw [hsame, Shared.modify_self, hgeneration]
          exact hinv.used handle (hsame ▸ hother)
        · rw [Shared.modify_of_ne _ _ hsame]
          exact hinv.used other hother
      written := hinv.written
      catalog := hinv.catalog
      directories := hinv.directories
      engine := by
        intro other hother hopen
        by_cases hsame : other = handle
        · rw [hsame, Shared.modify_self] at hopen
          rw [hsame]
          rcases hengine hopen with hbefore | ⟨hsessions, -⟩
          · exact hinv.engine handle (hsame ▸ hother) hbefore
          · exact hsessions
        · rw [Shared.modify_of_ne _ _ hsame] at hopen
          exact hinv.engine other hother hopen
      active := by
        intro other hother hphase'
        by_cases hsame : other = handle
        · rw [hsame, Shared.modify_self] at hphase'
          rw [hsame]
          exact hactive hphase'
        · rw [Shared.modify_of_ne _ _ hsame] at hphase'
          exact hinv.active other hother hphase'
      mapped := hinv.mapped }
  frame :=
    { (move_refl hinv).frame with
      fresh := fun _ hlow hhigh => absurd hhigh (Nat.not_lt.mpr hlow)
      generation := by
        intro other _
        by_cases hother : other = handle
        · rw [hother, Shared.modify_self, hgeneration]
        · rw [Shared.modify_of_ne _ _ hother]
      phase := by
        intro other _ hne hnot
        by_cases hother : other = handle
        · subst hother
          rw [Shared.modify_self]
          rcases hphase with hacting | hwas | hsame
          · exact absurd hacting hne
          · exact absurd hwas hnot
          · exact hsame
        · rw [Shared.modify_of_ne _ _ hother]
      engine := by
        intro other _ hne hclosed
        by_cases hother : other = handle
        · subst hother
          rw [Shared.modify_self, Bool.eq_false_iff]
          intro hopen
          rcases hengine hopen with hbefore | ⟨-, hacting, -⟩
          · rw [hclosed] at hbefore
            exact Bool.false_ne_true hbefore
          · exact hne hacting
        · rw [Shared.modify_of_ne _ _ hother]
          exact hclosed
      quiet := by
        intro generation hpending hquiet other hother hsame
        by_cases heq : other = handle
        · subst heq
          rw [Shared.modify_self, hgeneration] at hsame
          rw [Shared.modify_self, Bool.eq_false_iff]
          intro hopen
          rcases hengine hopen with hbefore | ⟨-, -, hnot⟩
          · rw [hquiet other hother hsame] at hbefore
            exact Bool.false_ne_true hbefore
          · exact hnot (hsame ▸ hpending)
        · rw [Shared.modify_of_ne _ _ heq] at hsame ⊢
          exact hquiet other hother hsame }

/-- A directory changes: one that comes to exist belongs to the current record,
and one under deletion does not come back. -/
theorem move_setDirectory {generation : ByteString} {directory : Directory}
    (hexists : directory ≠ .absent → ∃ record, shared.catalog = some record ∧
      record.generationUuid = generation ∧ record.state ≠ .deleted)
    (hgone : directory ≠ .absent → Pending shared generation →
      shared.directories generation ≠ .absent) :
    Move acting shared (shared.setDirectory generation directory) where
  shared :=
    { distinct := hinv.distinct
      used := hinv.used
      written := hinv.written
      catalog := hinv.catalog
      directories := by
        intro other hwritten hother
        by_cases hsame : other = generation
        · subst hsame
          rw [Shared.setDirectory_self] at hother
          exact hexists hother
        · rw [Shared.setDirectory_of_ne _ _ hsame] at hother
          exact hinv.directories other hwritten hother
      engine := hinv.engine
      active := hinv.active
      mapped := hinv.mapped }
  frame :=
    { (move_refl hinv).frame with
      gone := by
        intro other hpending habsent
        by_cases hsame : other = generation
        · subst hsame
          rw [Shared.setDirectory_self]
          by_contra hdirectory
          exact hgone hdirectory hpending habsent
        · rw [Shared.setDirectory_of_ne _ _ hsame]
          exact habsent }

/-- The record of the current generation is replaced. -/
theorem move_put {old record : SessionCatalogRecord} (hold : shared.catalog = some old)
    (hgeneration : old.generationUuid = record.generationUuid)
    (hstate : old.state = .active ∨ record.state = .deleting ∨ record.state = .deleteFailed ∨
      record.state = .deleted)
    (hgone : record.state = .deleted → shared.directories record.generationUuid = .absent)
    (hcreating : ∀ handle, acting ≠ some handle → Mapped shared handle .creating →
      ¬Creatable shared) :
    Move acting shared { shared with catalog := some record } where
  shared :=
    { distinct := hinv.distinct
      used := hinv.used
      written := hinv.written
      catalog := by
        intro current hcurrent
        obtain rfl := Option.some.inj hcurrent
        rw [← hgeneration]
        exact hinv.catalog old hold
      directories := by
        intro generation hwritten hdirectory
        obtain ⟨current, hcurrent, hsame, -⟩ := hinv.directories generation hwritten hdirectory
        obtain rfl := Option.some.inj (hold.symm.trans hcurrent)
        refine ⟨record, rfl, hgeneration.symm.trans hsame, fun hdeleted => hdirectory ?_⟩
        rw [← hsame, hgeneration]
        exact hgone hdeleted
      engine := hinv.engine
      active := hinv.active
      mapped := hinv.mapped }
  frame :=
    { (move_refl hinv).frame with
      catalog := fun handle hne hmapped hcreatable =>
        absurd hcreatable (hcreating handle hne hmapped)
      pending := by
        rintro generation ⟨hwritten, hpending⟩
        refine ⟨hwritten, fun current hcurrent hsame => ?_⟩
        obtain rfl := Option.some.inj hcurrent
        rcases hstate with hactive | hdeleting
        · have hold' := hpending old hold (hgeneration.trans hsame)
          rw [hactive] at hold'
          rcases hold' with h | h | h <;> exact nomatch h
        · exact hdeleting
      quiet := fun _ _ h => h
      gone := fun _ _ h => h }

/-- The first record of a generation. -/
theorem move_writeActive {handle : ℕ} {record : SessionCatalogRecord}
    (hmapped : Mapped shared handle .creating)
    (hunwritten : (shared.records handle).generation ∉ shared.written) (hfree : Free shared)
    (hgeneration : record.generationUuid = (shared.records handle).generation)
    (hstate : record.state = .active) :
    Move (some handle) shared
      { shared with
        catalog := some record
        written := (shared.records handle).generation :: shared.written } where
  shared :=
    { distinct := hinv.distinct
      used := hinv.used
      written := by
        intro generation hmem
        rcases List.mem_cons.mp hmem with rfl | hbefore
        · exact hinv.used handle hmapped.allocated
        · exact hinv.written generation hbefore
      catalog := by
        intro current hcurrent
        obtain rfl := Option.some.inj hcurrent
        rw [hgeneration]
        exact List.mem_cons_self
      directories := by
        intro generation hmem hdirectory
        rcases List.mem_cons.mp hmem with rfl | hbefore
        · exact ⟨record, rfl, hgeneration, by rw [hstate]; decide⟩
        · obtain ⟨current, hcurrent, -, hnot⟩ := hinv.directories generation hbefore hdirectory
          exact absurd (hfree current hcurrent) hnot
      engine := hinv.engine
      active := hinv.active
      mapped := hinv.mapped }
  frame :=
    { (move_refl hinv).frame with
      written := fun _ h => List.mem_cons_of_mem _ h
      writer := by
        intro generation hmem
        rcases List.mem_cons.mp hmem with rfl | hbefore
        · exact Or.inr ⟨handle, hmapped.allocated, rfl, rfl⟩
        · exact Or.inl hbefore
      catalog := by
        intro other hne hother _
        have hsame := Option.some.inj (hmapped.sessions.symm.trans hother.sessions)
        exact absurd (congrArg some hsame) hne
      pending := by
        rintro generation ⟨hwritten, -⟩
        refine ⟨List.mem_cons_of_mem _ hwritten, fun current hcurrent hsame => ?_⟩
        obtain rfl := Option.some.inj hcurrent
        rw [← hsame, hgeneration] at hwritten
        exact absurd hwritten hunwritten
      quiet := fun _ _ h => h
      gone := fun _ _ h => h }

theorem move_map {handle : ℕ} (hhandle : handle < shared.allocated)
    (hnone : shared.sessions = none) :
    Move (some handle) shared { shared with sessions := some handle } where
  shared :=
    { distinct := hinv.distinct
      used := hinv.used
      written := hinv.written
      catalog := hinv.catalog
      directories := hinv.directories
      engine := by
        intro other hother hopen
        have hsome := hinv.engine other hother hopen
        rw [hnone] at hsome
        exact nomatch hsome
      active := by
        intro other hother hactive
        have hsome := hinv.active other hother hactive
        rw [hnone] at hsome
        exact nomatch hsome
      mapped := by
        intro other hother
        obtain rfl := Option.some.inj hother
        exact hhandle }
  frame :=
    { (move_refl hinv).frame with
      sessions := by
        intro other _ hne
        rw [hnone]
        constructor
        · intro hother
          exact absurd hother hne
        · exact fun hother => nomatch hother
      catalog := fun _ _ _ _ => rfl
      pending := fun _ h => h
      quiet := fun _ _ h => h }

theorem move_unmap {handle : ℕ} (hsessions : shared.sessions = some handle)
    (hengine : (shared.records handle).engine = false)
    (hphase : (shared.records handle).phase ≠ .active) :
    Move (some handle) shared { shared with sessions := none } where
  shared :=
    { distinct := hinv.distinct
      used := hinv.used
      written := hinv.written
      catalog := hinv.catalog
      directories := hinv.directories
      engine := by
        intro other hother hopen
        have hsome := hinv.engine other hother hopen
        obtain rfl := Option.some.inj (hsessions.symm.trans hsome)
        rw [hengine] at hopen
        exact absurd hopen Bool.false_ne_true
      active := by
        intro other hother hactive
        have hsome := hinv.active other hother hactive
        obtain rfl := Option.some.inj (hsessions.symm.trans hsome)
        exact absurd hactive hphase
      mapped := fun _ hother => nomatch hother }
  frame :=
    { (move_refl hinv).frame with
      sessions := by
        intro other _ hne
        constructor
        · exact fun hother => nomatch hother
        · intro hother
          exact absurd (hsessions.symm.trans hother) hne
      catalog := fun _ _ _ _ => rfl
      pending := fun _ h => h
      quiet := fun _ _ h => h }

theorem move_allocate {session : SessionRecord} (hfresh : session.generation ∉ shared.used)
    (hengine : session.engine = false) (hphase : session.phase ≠ .active) :
    Move acting shared
      { shared with
        records := Function.update shared.records shared.allocated session
        allocated := shared.allocated + 1
        used := session.generation :: shared.used } := by
  have hnew : Function.update shared.records shared.allocated session shared.allocated = session :=
    Function.update_self ..
  have hold : ∀ handle < shared.allocated,
      Function.update shared.records shared.allocated session handle = shared.records handle :=
    fun handle hhandle => Function.update_of_ne (Nat.ne_of_lt hhandle) ..
  have hcases : ∀ handle < shared.allocated + 1,
      handle < shared.allocated ∨ handle = shared.allocated :=
    fun handle hhandle => Nat.lt_succ_iff_lt_or_eq.mp hhandle
  constructor
  · constructor
    · intro first hfirst second hsecond heq
      rcases hcases first hfirst with hfirst | rfl <;> rcases hcases second hsecond with hsecond | rfl
      · simp only [hold first hfirst, hold second hsecond] at heq
        exact hinv.distinct first hfirst second hsecond heq
      · simp only [hold first hfirst, hnew] at heq
        exact absurd (heq ▸ hinv.used first hfirst) hfresh
      · simp only [hold second hsecond, hnew] at heq
        exact absurd (heq ▸ hinv.used second hsecond) hfresh
      · rfl
    · intro handle hhandle
      rcases hcases handle hhandle with hhandle | rfl
      · simp only [hold handle hhandle]
        exact List.mem_cons_of_mem _ (hinv.used handle hhandle)
      · simp only [hnew]
        exact List.mem_cons_self
    · exact fun generation hmem => List.mem_cons_of_mem _ (hinv.written generation hmem)
    · exact hinv.catalog
    · exact hinv.directories
    · intro handle hhandle hopen
      rcases hcases handle hhandle with hhandle | rfl
      · simp only [hold handle hhandle] at hopen
        exact hinv.engine handle hhandle hopen
      · simp only [hnew, hengine] at hopen
        exact absurd hopen Bool.false_ne_true
    · intro handle hhandle hactive
      rcases hcases handle hhandle with hhandle | rfl
      · simp only [hold handle hhandle] at hactive
        exact hinv.active handle hhandle hactive
      · simp only [hnew] at hactive
        exact absurd hactive hphase
    · exact fun handle hhandle => Nat.lt_succ_of_lt (hinv.mapped handle hhandle)
  · constructor
    · exact Nat.le_succ _
    · exact fun handle hhandle => by simp only [hold handle hhandle]
    · intro handle hlow hhigh
      rcases hcases handle hhigh with hhandle | rfl
      · exact absurd hhandle (Nat.not_lt.mpr hlow)
      · simp only [hnew]
        exact hfresh
    · exact fun handle hhandle _ _ => by simp only [hold handle hhandle]
    · exact fun handle hhandle _ hclosed => by simp only [hold handle hhandle]; exact hclosed
    · exact fun _ _ _ => Iff.rfl
    · exact fun _ h => h
    · exact fun _ h => Or.inl h
    · exact fun _ _ _ _ => rfl
    · exact fun _ h => h
    · rintro generation ⟨hwritten, -⟩ hquiet handle hhandle hsame
      rcases hcases handle hhandle with hhandle | rfl
      · simp only [hold handle hhandle] at hsame ⊢
        exact hquiet handle hhandle hsame
      · simp only [hnew]
        exact hengine
    · exact fun _ _ h => h

omit hinv in
/-- Two moves that make no record. -/
theorem Move.trans {middle after : Shared} (hfirst : Move acting shared middle)
    (hsecond : Move acting middle after) (hallocated : middle.allocated = shared.allocated)
    (hused : middle.used = shared.used) : Move acting shared after where
  shared := hsecond.shared
  frame := by
    obtain ⟨-, hfirst⟩ := hfirst
    obtain ⟨-, hsecond⟩ := hsecond
    have hbound : ∀ handle < shared.allocated, handle < middle.allocated :=
      fun handle hhandle => hallocated ▸ hhandle
    constructor
    · exact le_trans hfirst.allocated hsecond.allocated
    · intro handle hhandle
      rw [hsecond.generation handle (hbound handle hhandle), hfirst.generation handle hhandle]
    · intro handle hlow hhigh
      rw [← hused]
      exact hsecond.fresh handle (hallocated ▸ hlow) hhigh
    · intro handle hhandle hne hnot
      have hmiddle := hfirst.phase handle hhandle hne hnot
      rw [hsecond.phase handle (hbound handle hhandle) hne (hmiddle ▸ hnot), hmiddle]
    · intro handle hhandle hne hclosed
      exact hsecond.engine handle (hbound handle hhandle) hne
        (hfirst.engine handle hhandle hne hclosed)
    · intro handle hhandle hne
      rw [hsecond.sessions handle (hbound handle hhandle) hne]
      exact hfirst.sessions handle hhandle hne
    · exact fun generation h => hsecond.written generation (hfirst.written generation h)
    · intro generation hmem
      rcases hsecond.writer generation hmem with hmiddle | ⟨handle, hhandle, hacting, hsame⟩
      · exact hfirst.writer generation hmiddle
      · rw [hallocated] at hhandle
        refine Or.inr ⟨handle, hhandle, hacting, ?_⟩
        rw [← hfirst.generation handle hhandle]
        exact hsame
    · intro handle hne hmapped hcreatable
      have hmiddle := hfirst.catalog handle hne hmapped hcreatable
      have hcreatable' : Creatable middle := by
        rw [Creatable, Free, hmiddle]
        exact hcreatable
      rw [hsecond.catalog handle hne (hfirst.mapped hne (by decide) hmapped) hcreatable']
      exact hmiddle
    · exact fun generation h => hsecond.pending generation (hfirst.pending generation h)
    · exact fun generation hpending hquiet => hsecond.quiet generation
        (hfirst.pending generation hpending) (hfirst.quiet generation hpending hquiet)
    · exact fun generation hpending habsent => hsecond.gone generation
        (hfirst.pending generation hpending) (hfirst.gone generation hpending habsent)

end Moves

/-! ## One lemma for each block -/

/-- A block that keeps the invariant for its own task. -/
structure Makes (shared : Shared) (task : Task) (result : Shared × Task) : Prop where
  move : Move (owner task) shared result.1
  next : At result.1 result.2
  owns : ∀ handle, owner result.2 = some handle → owner task = some handle ∨
    ∀ other, At shared other → owner other ≠ some handle

theorem makes_of {shared after : Shared} {task next : Task}
    (hmove : Move (owner task) shared after) (hnext : At after next)
    (howner : ∀ handle, owner next = some handle → owner task = some handle) :
    Makes shared task (after, next) :=
  ⟨hmove, hnext, fun handle h => Or.inl (howner handle h)⟩

/-- A record with an owner has been made and is not active. -/
theorem owned {shared : Shared} {task : Task} {handle : ℕ} (hat : At shared task)
    (howner : owner task = some handle) :
    handle < shared.allocated ∧ (shared.records handle).phase ≠ .active := by
  have hmapped : ∀ phase, phase ≠ Phase.active → Mapped shared handle phase →
      handle < shared.allocated ∧ (shared.records handle).phase ≠ .active := by
    intro phase hphase hmapped
    rw [hmapped.phase]
    exact ⟨hmapped.allocated, hphase⟩
  induction task with
  | idle | select | beginClose | acquire | retain | leave | beginDeletion =>
      exact nomatch howner
  | publish other =>
      obtain rfl := Option.some.inj howner
      rw [hat.2.1]
      exact ⟨hat.1, by decide⟩
  | takeSnapshot other | writeActive other | makeDirectory other | openStore other
  | abandonStore other | withdraw other =>
      obtain rfl := Option.some.inj howner
      exact hmapped _ (by decide) hat.1
  | activate other | rollBack other =>
      obtain rfl := Option.some.inj howner
      exact hmapped _ (by decide) hat
  | drain other | release other | unmap other =>
      obtain rfl := Option.some.inj howner
      exact hmapped _ (by decide) hat.1
  | removeGeneration record next =>
      cases next with
      | done seen => exact nomatch howner
      | rollBack other =>
          obtain rfl := Option.some.inj howner
          exact hmapped _ (by decide) hat.2.2
  | recordRemoval record error next =>
      cases next with
      | done seen => exact nomatch howner
      | rollBack other =>
          obtain rfl := Option.some.inj howner
          exact hmapped _ (by decide) hat.2.2.2
  | latch next ih => exact ih hat howner

section Blocks

variable {shared : Shared} (hinv : SharedInv shared)
include hinv

/-- A block that shares nothing and owns no more than before. -/
theorem makes_nothing {task next : Task} (hnext : At shared next)
    (howner : ∀ handle, owner next = some handle → owner task = some handle) :
    Makes shared task (shared, next) :=
  makes_of (move_refl hinv) hnext howner

theorem makes_idle (task : Task) : Makes shared task (shared, .idle) :=
  makes_nothing hinv trivial fun _ h => nomatch h

theorem makes_publish {handle : ℕ} (hat : At shared (.publish handle)) :
    Makes shared (.publish handle) (publish shared handle) := by
  obtain ⟨hhandle, hphase, -, hengine, hunwritten⟩ := hat
  unfold publish
  split_ifs with hsessions hcatalog
  · exact makes_idle hinv _
  · exact makes_idle hinv _
  · have hnone : shared.sessions = none := by simpa using hsessions
    refine makes_of (move_map hinv hhandle hnone)
      ⟨⟨hhandle, rfl, hphase⟩, hengine, hunwritten, ?_⟩ fun _ h => h
    intro record hrecord
    have hrecord' : shared.catalog = some record := hrecord
    rw [hrecord'] at hcatalog
    simpa using hcatalog

theorem makes_takeSnapshot {handle : ℕ} (choice : Choice)
    (hat : At shared (.takeSnapshot handle)) :
    Makes shared (.takeSnapshot handle) (takeSnapshot shared handle choice) := by
  unfold takeSnapshot
  split_ifs
  · exact makes_nothing hinv hat fun _ h => h
  · exact makes_nothing hinv hat.1 fun _ h => h
  · exact makes_nothing hinv hat.1 fun _ h => h

theorem makes_writeActive {handle : ℕ} {createdAt : ByteString} (choice : Choice)
    (hat : At shared (.writeActive handle createdAt)) :
    Makes shared (.writeActive handle createdAt) (writeActive shared handle createdAt choice) := by
  obtain ⟨hmapped, hengine, hunwritten, hfree⟩ := hat
  unfold writeActive Shared.tryPutCatalogRecord
  split_ifs
  · exact makes_of (move_writeActive hinv hmapped hunwritten hfree rfl rfl)
      ⟨⟨hmapped.allocated, hmapped.sessions, hmapped.phase⟩, hengine, rfl, rfl, rfl⟩ fun _ h => h
  · exact makes_nothing hinv hmapped fun _ h => h

omit hinv in
/-- The generation of an active record is not under deletion. -/
theorem not_pending_of_active {record : SessionCatalogRecord}
    (hcatalog : shared.catalog = some record) (hstate : record.state = .active) :
    ¬Pending shared record.generationUuid := by
  rintro ⟨-, hpending⟩
  have hcontra := hpending record hcatalog rfl
  rw [hstate] at hcontra
  rcases hcontra with h | h | h <;> exact nomatch h

theorem makes_makeDirectory {handle : ℕ} {record : SessionCatalogRecord} (choice : Choice)
    (hat : At shared (.makeDirectory handle record)) :
    Makes shared (.makeDirectory handle record) (makeDirectory shared handle record choice) := by
  obtain ⟨hmapped, hengine, hcatalog, hgeneration, hstate⟩ := id hat
  unfold makeDirectory
  split_ifs
  · exact makes_nothing hinv hmapped fun _ h => h
  · refine makes_of (move_setDirectory hinv ?_ ?_)
      ⟨⟨hmapped.allocated, hmapped.sessions, hmapped.phase⟩, hengine, hcatalog, hgeneration,
        hstate⟩ fun _ h => h
    · exact fun _ => ⟨record, hcatalog, rfl, by rw [hstate]; decide⟩
    · exact fun _ hpending => absurd hpending (not_pending_of_active hcatalog hstate)
  · exact makes_nothing hinv hat fun _ h => h
  · exact makes_nothing hinv hat fun _ h => h

theorem makes_openStore {handle : ℕ} {record : SessionCatalogRecord} (choice : Choice)
    (hat : At shared (.openStore handle record)) :
    Makes shared (.openStore handle record) (openStore shared handle record choice) := by
  obtain ⟨hmapped, hengine, hcatalog, hgeneration, hstate⟩ := id hat
  have hnot := not_pending_of_active hcatalog hstate
  unfold openStore
  split_ifs
  · have hstore : Move (some handle) shared (shared.setDirectory record.generationUuid .store) :=
      move_setDirectory hinv (fun _ => ⟨record, hcatalog, rfl, by rw [hstate]; decide⟩)
        (fun _ hpending => absurd hpending hnot)
    refine makes_of (hstore.trans (move_modify hstore.shared rfl (fun _ => hmapped.sessions) ?_
      (Or.inl rfl)) rfl rfl) ?_ fun _ h => h
    · intro _
      refine Or.inr ⟨hmapped.sessions, rfl, ?_⟩
      rw [hgeneration] at hnot
      exact hnot
    · refine ⟨hmapped.allocated, hmapped.sessions, ?_⟩
      rw [Shared.modify_self]
      exact hmapped.phase
  · exact makes_nothing hinv hat fun _ h => h

omit hinv in
/-- There is only one mapped record. -/
theorem not_creating_of_mapped {handle : ℕ} {phase : Phase} (hmapped : Mapped shared handle phase)
    (other : ℕ) (hother : some handle ≠ some other) (hcreating : Mapped shared other .creating) :
    ¬Creatable shared :=
  absurd (hmapped.sessions.symm.trans hcreating.sessions) hother

theorem makes_abandonStore {handle : ℕ} {record : SessionCatalogRecord} (choice : Choice)
    (hat : At shared (.abandonStore handle record)) :
    Makes shared (.abandonStore handle record) (abandonStore shared handle record choice) := by
  obtain ⟨hmapped, hengine, hcatalog, hgeneration, hstate⟩ := hat
  unfold abandonStore Shared.tryPutCatalogRecord
  split_ifs
  · refine makes_of (move_put hinv hcatalog rfl (Or.inl hstate) (fun h => nomatch h)
      (not_creating_of_mapped hmapped)) ⟨⟨hinv.catalog record hcatalog, ?_⟩, ?_,
      hmapped.allocated, hmapped.sessions, hmapped.phase⟩ fun _ h => h
    · intro current hcurrent _
      obtain rfl := Option.some.inj hcurrent
      exact Or.inl rfl
    · intro other hother hsame
      have heq := hinv.distinct other hother handle hmapped.allocated
        (hsame.trans hgeneration)
      rw [heq]
      exact hengine
  · exact makes_nothing hinv hmapped fun _ h => h

theorem makes_activate {handle : ℕ} (hat : At shared (.activate handle)) :
    Makes shared (.activate handle) (activate shared handle) := by
  have hmapped : Mapped shared handle .creating := hat
  unfold activate
  rw [if_pos ⟨hmapped.sessions, hmapped.phase⟩]
  exact makes_of (move_modify hinv rfl (fun _ => hmapped.sessions) (fun h => Or.inl h)
    (Or.inl rfl)) trivial fun _ h => nomatch h

theorem makes_rollBack {handle : ℕ} (hat : At shared (.rollBack handle)) :
    Makes shared (.rollBack handle) (rollBack shared handle) := by
  have hmapped : Mapped shared handle .creating := hat
  unfold rollBack
  refine makes_of (move_modify hinv rfl (fun _ => hmapped.sessions) (fun h => nomatch h)
    (Or.inl rfl)) ⟨⟨hmapped.allocated, hmapped.sessions, ?_⟩, ?_⟩ fun _ h => h
  · rw [Shared.modify_self]
    exact hmapped.phase
  · rw [Shared.modify_self]

theorem makes_withdraw {handle : ℕ} (hat : At shared (.withdraw handle)) :
    Makes shared (.withdraw handle) (withdraw shared handle) := by
  obtain ⟨hmapped, hengine⟩ := hat
  unfold withdraw
  rw [if_pos hmapped.sessions]
  exact makes_of (move_unmap hinv hmapped.sessions hengine (by rw [hmapped.phase]; decide))
    trivial fun _ h => nomatch h

theorem makes_select : Makes shared .select (select shared) := by
  unfold select
  split
  · exact makes_nothing hinv ⟨le_refl _, fun _ h => nomatch h⟩ fun _ h => nomatch h
  · rename_i handle hsessions
    split_ifs
    · refine makes_nothing hinv ⟨le_refl _, fun other hother => ?_⟩ fun _ h => nomatch h
      obtain rfl := Option.some.inj hother
      exact hinv.mapped handle hsessions
    · exact makes_idle hinv _

omit hinv in
/-- Nobody owns an active record. -/
theorem owner_ne_of_active {handle : ℕ} (hactive : (shared.records handle).phase = .active) :
    ∀ other, At shared other → owner other ≠ some handle :=
  fun _ hat howner => (owned hat howner).2 hactive

/-- The deletion of the selected generation has been recorded, just now or
before. -/
theorem makes_begun {middle : Shared} {session : Option ℕ} {seen : ℕ}
    {record : SessionCatalogRecord} (hat : At shared (.beginDeletion session seen))
    (hmove : Move none shared middle) (hcatalog : middle.catalog = some record)
    (hstate : record.state = .deleting) (hsessions : shared.sessions = session)
    (hsame : middle = { shared with catalog := middle.catalog })
    (hsession : ∀ handle, session = some handle → (shared.records handle).phase = .active ∧
      (shared.records handle).generation = record.generationUuid) :
    Makes shared (.beginDeletion session seen) (begun middle session record seen) := by
  obtain ⟨hseen, hold⟩ := hat
  have hallocated : middle.allocated = shared.allocated := by rw [hsame]
  have hrecords : middle.records = shared.records := by rw [hsame]
  have hmiddle : middle.sessions = session := by rw [hsame]; exact hsessions
  have hpending : Pending middle record.generationUuid := by
    refine ⟨hmove.shared.catalog record hcatalog, fun current hcurrent _ => ?_⟩
    obtain rfl := Option.some.inj (hcatalog.symm.trans hcurrent)
    exact Or.inl hstate
  cases session with
  | none =>
      refine ⟨hmove, ⟨hpending, ?_, ?_⟩, fun _ h => nomatch h⟩
      · intro handle hhandle _
        rw [Bool.eq_false_iff]
        intro hopen
        have hmapped := hmove.shared.engine handle hhandle hopen
        rw [hmiddle] at hmapped
        exact nomatch hmapped
      · exact fun handle hlow hhigh => absurd hhigh (Nat.not_lt.mpr hlow)
  | some handle =>
      obtain ⟨hactive, hgeneration⟩ := hsession handle rfl
      have hhandle : handle < middle.allocated := by
        rw [hallocated]
        exact hinv.mapped handle hsessions
      have hclose : Move none middle
          (middle.modify handle fun session => { session with phase := .closing }) := by
        refine move_modify hmove.shared rfl (fun h => ?_) (fun h => Or.inl h) ?_
        · exact nomatch h
        · rw [hrecords]
          exact Or.inr (Or.inl hactive)
      dsimp only [begun]
      refine ⟨hmove.trans hclose hallocated (by rw [hsame]), ⟨⟨hhandle, hmiddle, ?_⟩, ?_⟩, ?_⟩
      · rw [Shared.modify_self]
      · intro deleted hdeleted
        obtain rfl := Option.some.inj hdeleted
        refine ⟨hclose.frame.pending _ hpending, ?_, ?_⟩
        · rw [Shared.modify_self, hrecords]
          exact hgeneration.symm
        · intro other hlow hhigh
          have hne : other ≠ handle := by
            have := hold handle rfl
            omega
          rw [Shared.modify_of_ne _ _ hne, hrecords, ← hgeneration]
          intro hsame'
          rw [← hallocated] at hseen
          exact hne (hinv.distinct other (hallocated ▸ hhigh) handle (hallocated ▸ hhandle) hsame')
      · intro other hother
        obtain rfl := Option.some.inj hother
        exact Or.inr (owner_ne_of_active hactive)

theorem makes_beginDeletion {session : Option ℕ} {seen : ℕ} (choice : Choice)
    (hat : At shared (.beginDeletion session seen)) :
    Makes shared (.beginDeletion session seen) (beginDeletion shared session seen choice) := by
  have huncatalogued : Makes shared (.beginDeletion session seen)
      (shared, session.elim .idle .beginClose) := by
    cases session with
    | none => exact makes_idle hinv _
    | some handle => exact makes_nothing hinv trivial fun _ h => nomatch h
  unfold beginDeletion
  split_ifs with huncat hchanged
  · exact huncatalogued
  · exact makes_idle hinv _
  · obtain ⟨hsessions, hactive⟩ := not_or.mp hchanged
    have hsessions' : shared.sessions = session := not_not.mp hsessions
    have hphase : ∀ handle, session = some handle → (shared.records handle).phase = .active := by
      rintro handle rfl
      simpa [Shared.isActive] using hactive
    split
    · exact huncatalogued
    · rename_i catalogued hcatalog
      split_ifs with hdeleted hother hdeleting
      · exact huncatalogued
      · exact makes_idle hinv _
      · obtain ⟨hgeneration, -⟩ := not_or.mp hother
        apply makes_begun hinv hat (move_refl hinv) hcatalog hdeleting hsessions' rfl
        rintro handle rfl
        exact ⟨hphase handle rfl, by simpa using hgeneration⟩
      · obtain ⟨hgeneration, hnotActive⟩ := not_or.mp hother
        unfold Shared.tryPutCatalogRecord
        split_ifs with hcommits
        · have hput : Move none shared
              { shared with catalog := some (catalogued.beginDeletion choice.now) } := by
            refine move_put hinv hcatalog rfl (Or.inr (Or.inl rfl)) (fun h => nomatch h) ?_
            intro handle _ hmapped
            have hsome := hmapped.sessions
            rw [hsessions'] at hsome
            have hboth := hphase handle hsome
            rw [hmapped.phase] at hboth
            exact nomatch hboth
          apply makes_begun hinv hat hput rfl rfl hsessions' rfl
          rintro handle rfl
          have hsame : (shared.records handle).generation = catalogued.generationUuid := by
            simpa using hgeneration
          exact ⟨hphase handle rfl, hsame⟩
        · exact makes_nothing hinv trivial fun _ h => nomatch h

theorem makes_beginClose {handle : ℕ} :
    Makes shared (.beginClose handle) (beginClose shared handle) := by
  unfold beginClose
  split_ifs with hchanged
  · exact makes_idle hinv _
  · obtain ⟨hsessions, hactive⟩ := not_or.mp hchanged
    have hsessions' : shared.sessions = some handle := not_not.mp hsessions
    have hactive' : (shared.records handle).phase = .active := by
      simpa [Shared.isActive] using hactive
    have hmove : Move none shared
        (shared.modify handle fun session => { session with phase := .closing }) :=
      move_modify hinv rfl (fun h => nomatch h) (fun h => Or.inl h) (Or.inr (Or.inl hactive'))
    refine ⟨hmove, ⟨⟨hinv.mapped handle hsessions', hsessions', ?_⟩, fun _ h => nomatch h⟩, ?_⟩
    · rw [Shared.modify_self]
    · intro other hother
      obtain rfl := Option.some.inj hother
      exact Or.inr (owner_ne_of_active hactive')

theorem makes_release {handle seen : ℕ} {record : Option SessionCatalogRecord}
    (hat : At shared (.release handle record seen)) :
    Makes shared (.release handle record seen) (release shared handle record seen) := by
  obtain ⟨hmapped, hdeleting⟩ := hat
  have hmove : Move (some handle) shared
      (shared.modify handle fun session => { session with engine := false }) :=
    move_modify hinv rfl (fun _ => hmapped.sessions) (fun h => nomatch h) (Or.inl rfl)
  unfold release
  refine makes_of hmove ⟨⟨hmapped.allocated, hmapped.sessions, ?_⟩, ?_, ?_⟩ fun _ h => h
  · rw [Shared.modify_self]
    exact hmapped.phase
  · rw [Shared.modify_self]
  · exact fun deleted hrecord =>
      hmove.frame.deleting hinv hmapped.allocated (hdeleting deleted hrecord)

theorem makes_unmap {handle seen : ℕ} {record : Option SessionCatalogRecord}
    (hat : At shared (.unmap handle record seen)) :
    Makes shared (.unmap handle record seen) (unmap shared handle record seen) := by
  obtain ⟨hmapped, hengine, hdeleting⟩ := hat
  have hmove := move_unmap hinv hmapped.sessions hengine (by rw [hmapped.phase]; decide)
  unfold unmap
  rw [if_pos hmapped.sessions]
  cases record with
  | none => exact makes_of hmove trivial fun _ h => nomatch h
  | some deleted =>
      obtain ⟨hpending, hgeneration, holder⟩ := hdeleting deleted rfl
      refine makes_of hmove ⟨hmove.frame.pending _ hpending, ?_, holder⟩ fun _ h => nomatch h
      intro other hother hsame
      have heq := hinv.distinct other hother handle hmapped.allocated (hsame.trans hgeneration)
      rw [heq]
      exact hengine

theorem makes_continuation {task : Task} {next : Continuation} {generation : ByteString}
    (hat : AtContinuation shared generation next)
    (howner : ∀ handle, next = .rollBack handle → owner task = some handle) :
    Makes shared task (shared, next.task) := by
  cases next with
  | rollBack handle =>
      refine makes_nothing hinv hat fun other hother => ?_
      obtain rfl := Option.some.inj hother
      exact howner handle rfl
  | done seen => exact makes_idle hinv _

theorem makes_removeGeneration {record : SessionCatalogRecord} {next : Continuation}
    (choice : Choice) (hat : At shared (.removeGeneration record next)) :
    Makes shared (.removeGeneration record next)
      (removeGeneration shared record next choice) := by
  obtain ⟨hpending, hquiet, hnext⟩ := hat
  unfold removeGeneration
  split_ifs
  · apply makes_continuation hinv hnext
    rintro handle rfl
    rfl
  · have hpresent : (choice.removal.apply (shared.directories record.generationUuid)).1 ≠ .absent →
        shared.directories record.generationUuid ≠ .absent := by
      intro hleft habsent
      rw [habsent] at hleft
      exact hleft (Durable.Removal.apply_absent _)
    have hmove : Move (owner (.removeGeneration record next)) shared
        (shared.setDirectory record.generationUuid
          (choice.removal.apply (shared.directories record.generationUuid)).1) :=
      move_setDirectory hinv (fun hleft => hinv.directories _ hpending.1 (hpresent hleft))
        (fun hleft _ => hpresent hleft)
    refine makes_of hmove ⟨hpending, hquiet, fun herror => ?_, ?_⟩ fun handle hhandle => ?_
    · rw [Shared.setDirectory_self]
      exact Durable.Removal.apply_eq_absent herror
    · cases next with
      | rollBack handle => exact ⟨hnext.allocated, hnext.sessions, hnext.phase⟩
      | done seen => exact hnext
    · cases next with
      | rollBack other => exact hhandle
      | done seen => exact nomatch hhandle

theorem makes_recordRemoval {record : SessionCatalogRecord} {error : Option Int32}
    {next : Continuation} (choice : Choice) (hat : At shared (.recordRemoval record error next)) :
    Makes shared (.recordRemoval record error next)
      (recordRemoval shared record error next choice) := by
  obtain ⟨hpending, hquiet, hgone, hnext⟩ := hat
  have howner : ∀ handle, next = .rollBack handle →
      owner (.recordRemoval record error next) = some handle := by
    rintro handle rfl
    rfl
  unfold recordRemoval
  split_ifs with hcurrent
  · obtain ⟨current, hcatalog, hsame, hstate⟩ : ∃ current, shared.catalog = some current ∧
        current.generationUuid = record.generationUuid ∧
        (current.state = .deleting ∨ current.state = .deleteFailed) := by
      cases hcatalog : shared.catalog with
      | none => simp [hcatalog] at hcurrent
      | some current => exact ⟨current, rfl, by simpa [hcatalog] using hcurrent⟩
    have hcreating : ¬Creatable shared := by
      rintro (hfree | ⟨other, hother, hactive⟩)
      · rw [hfree current hcatalog] at hstate
        rcases hstate with h | h <;> exact nomatch h
      · obtain rfl := Option.some.inj (hcatalog.symm.trans hother)
        rw [hactive] at hstate
        rcases hstate with h | h <;> exact nomatch h
    unfold Shared.tryPutCatalogRecord
    split_ifs with hcommits
    · have hmove : Move (owner (.recordRemoval record error next)) shared
          { shared with
            catalog := some (error.elim (record.finishDeletion choice.now)
              record.failDeletion) } := by
        cases error with
        | none =>
            exact move_put hinv hcatalog hsame (Or.inr (Or.inr (Or.inr rfl)))
              (fun _ => hgone rfl) fun _ _ _ => hcreating
        | some code =>
            exact move_put hinv hcatalog hsame (Or.inr (Or.inr (Or.inl rfl)))
              (fun h => nomatch h) fun _ _ _ => hcreating
      cases next with
      | rollBack handle =>
          exact makes_of hmove ⟨hnext.allocated, hnext.sessions, hnext.phase⟩ fun _ h => h
      | done seen => exact makes_of hmove trivial fun _ h => nomatch h
    · cases next with
      | rollBack handle => exact makes_nothing hinv hnext fun _ h => h
      | done seen => exact makes_nothing hinv trivial fun _ h => nomatch h
  · exact makes_continuation hinv hnext howner

theorem makes_acquire : Makes shared .acquire (acquire shared) := by
  unfold acquire
  split
  · exact makes_idle hinv _
  · rename_i handle hsessions
    split_ifs
    · exact makes_of (move_modify hinv rfl (fun _ => hsessions) (fun h => Or.inl h)
        (Or.inr (Or.inr rfl))) (hinv.mapped handle hsessions) fun _ h => nomatch h
    · exact makes_idle hinv _

theorem makes_retain {handle : ℕ} (choice : Choice) (hhandle : handle < shared.allocated) :
    Makes shared (.retain handle) (retain shared handle choice) := by
  have hleave : Makes shared (.retain handle) (shared, .leave handle) :=
    makes_nothing hinv hhandle fun _ h => nomatch h
  simp only [retain]
  split
  · exact hleave
  · split
    · exact hleave
    · rename_i catalogued hcatalog
      split_ifs with hclosing hlatched
      · exact hleave
      · exact hleave
      · obtain ⟨hstate, hactive⟩ := not_or.mp hclosing
        have hstate' : catalogued.state = .active := not_not.mp hstate
        have hactive' : (shared.records handle).phase = .active := by
          simpa [Shared.isActive] using hactive
        have hsessions := hinv.active handle hhandle hactive'
        unfold Shared.tryPutCatalogRecord
        split_ifs
        · have hput : Move none shared
              { shared with catalog := some (catalogued.retain choice.now) } := by
            refine move_put hinv hcatalog rfl (Or.inl hstate') (fun h => nomatch h) ?_
            intro other _ hmapped
            obtain rfl := Option.some.inj (hsessions.symm.trans hmapped.sessions)
            have hboth := hmapped.phase
            rw [hactive'] at hboth
            exact nomatch hboth
          exact makes_of (hput.trans (move_modify hput.shared rfl (fun _ => hsessions)
            (fun h => Or.inl h) (Or.inr (Or.inr rfl))) rfl rfl) hhandle fun _ h => nomatch h
        · exact makes_nothing hinv hhandle fun _ h => nomatch h

theorem makes_leave {handle : ℕ} (hhandle : handle < shared.allocated) :
    Makes shared (.leave handle) (leave shared handle) := by
  unfold leave
  refine makes_of (move_modify hinv rfl (fun hactive => ?_) (fun h => Or.inl h)
    (Or.inr (Or.inr rfl))) trivial fun _ h => nomatch h
  exact hinv.active handle hhandle hactive

/-- Every block keeps the invariant for its own task. -/
theorem makes_block {task : Task} {choice : Choice} {result : Shared × Task}
    (hat : At shared task) (hblock : block shared choice task = some result) :
    Makes shared task result := by
  cases task with
  | idle => exact nomatch hblock
  | drain handle record seen =>
      simp only [block] at hblock
      split_ifs at hblock
      obtain rfl := Option.some.inj hblock
      exact makes_nothing hinv hat fun _ h => h
  | latch next =>
      obtain rfl := Option.some.inj hblock
      have hframe : Frame none shared { shared with catalogUnavailable := true } :=
        (move_latch hinv).frame
      exact makes_of (move_latch hinv) (hframe.at_other hinv hat fun _ _ h => nomatch h)
        fun _ h => h
  | publish handle =>
      obtain rfl := Option.some.inj hblock
      exact makes_publish hinv hat
  | takeSnapshot handle =>
      obtain rfl := Option.some.inj hblock
      exact makes_takeSnapshot hinv choice hat
  | writeActive handle createdAt =>
      obtain rfl := Option.some.inj hblock
      exact makes_writeActive hinv choice hat
  | makeDirectory handle record =>
      obtain rfl := Option.some.inj hblock
      exact makes_makeDirectory hinv choice hat
  | openStore handle record =>
      obtain rfl := Option.some.inj hblock
      exact makes_openStore hinv choice hat
  | abandonStore handle record =>
      obtain rfl := Option.some.inj hblock
      exact makes_abandonStore hinv choice hat
  | activate handle =>
      obtain rfl := Option.some.inj hblock
      exact makes_activate hinv hat
  | rollBack handle =>
      obtain rfl := Option.some.inj hblock
      exact makes_rollBack hinv hat
  | withdraw handle =>
      obtain rfl := Option.some.inj hblock
      exact makes_withdraw hinv hat
  | select =>
      obtain rfl := Option.some.inj hblock
      exact makes_select hinv
  | beginDeletion session seen =>
      obtain rfl := Option.some.inj hblock
      exact makes_beginDeletion hinv choice hat
  | beginClose handle =>
      obtain rfl := Option.some.inj hblock
      exact makes_beginClose hinv
  | release handle record seen =>
      obtain rfl := Option.some.inj hblock
      exact makes_release hinv hat
  | unmap handle record seen =>
      obtain rfl := Option.some.inj hblock
      exact makes_unmap hinv hat
  | removeGeneration record next =>
      obtain rfl := Option.some.inj hblock
      exact makes_removeGeneration hinv choice hat
  | recordRemoval record error next =>
      obtain rfl := Option.some.inj hblock
      exact makes_recordRemoval hinv choice hat
  | acquire =>
      obtain rfl := Option.some.inj hblock
      exact makes_acquire hinv
  | retain handle =>
      obtain rfl := Option.some.inj hblock
      exact makes_retain hinv choice hat
  | leave handle =>
      obtain rfl := Option.some.inj hblock
      exact makes_leave hinv hat

end Blocks

/-! ## Runs -/

theorem Makes.undisturbed {shared : Shared} {task : Task} {result : Shared × Task}
    (hinv : SharedInv shared) (hmakes : Makes shared task result) :
    Undisturbed At Apart shared task result.1 result.2 := by
  intro other hat hapart
  constructor
  · apply hmakes.move.frame.at_other hinv hat
    intro handle hother htask
    exact hapart handle htask hother
  · intro handle hnext
    rcases hmakes.owns handle hnext with htask | hnobody
    · exact hapart handle htask
    · exact hnobody other hat

theorem Inv.replace {state : State} (hinv : Inv state) {task : ℕ} {result : Shared × Task}
    (hmakes : Makes state.shared (state.tasks task) result) :
    Inv (state.replace task result.1 result.2) :=
  Invariant.replace (fun _ _ => Apart.symm) hinv hmakes.move.shared hmakes.next
    (hmakes.undisturbed hinv.shared)

theorem makes_enterCreate {shared : Shared} (hinv : SharedInv shared) {task : Task}
    {generation : ByteString} (durableBuffers ephemeralBuffers : Bool)
    (hfresh : generation ∉ shared.used) :
    Makes shared task
      ({ shared with
          records := Function.update shared.records shared.allocated
            { generation, durableBuffers, ephemeralBuffers }
          allocated := shared.allocated + 1
          used := generation :: shared.used },
        .publish shared.allocated) := by
  have hnew : Function.update shared.records shared.allocated
      { generation, durableBuffers, ephemeralBuffers } shared.allocated =
        { generation, durableBuffers, ephemeralBuffers } :=
    Function.update_self ..
  refine ⟨move_allocate hinv hfresh rfl (fun h => nomatch h), ⟨Nat.lt_succ_self _, ?_, ?_, ?_, ?_⟩,
    ?_⟩
  · simp only [hnew]
  · exact fun hmapped => absurd (hinv.mapped _ hmapped) (Nat.lt_irrefl _)
  · simp only [hnew]
  · simp only [hnew]
    exact fun hwritten => hfresh (hinv.written _ hwritten)
  · intro handle hhandle
    obtain rfl := Option.some.inj hhandle
    exact Or.inr fun other hat howner => absurd (owned hat howner).1 (Nat.lt_irrefl _)

theorem Inv.step {state next : State} {action : Action} (hinv : Inv state)
    (hstep : step state action = some next) : Inv next := by
  cases action with
  | enterCreate task durableBuffers ephemeralBuffers generation =>
      simp only [Admin.step] at hstep
      split_ifs at hstep with hrefused hlatched
      · obtain rfl := Option.some.inj hstep
        exact hinv
      · obtain rfl := Option.some.inj hstep
        exact hinv.replace (makes_enterCreate hinv.shared durableBuffers ephemeralBuffers
          (not_or.mp hrefused).2)
  | enterClose task =>
      simp only [Admin.step] at hstep
      split_ifs at hstep with hrefused hlatched
      · obtain rfl := Option.some.inj hstep
        exact hinv
      · obtain rfl := Option.some.inj hstep
        have hmakes : Makes state.shared (state.tasks task) (state.shared, .select) :=
          makes_nothing hinv.shared trivial fun _ h => nomatch h
        exact hinv.replace hmakes
  | enterRetain task =>
      simp only [Admin.step] at hstep
      split_ifs at hstep with hrefused hlatched
      · obtain rfl := Option.some.inj hstep
        exact hinv
      · obtain rfl := Option.some.inj hstep
        have hmakes : Makes state.shared (state.tasks task) (state.shared, .acquire) :=
          makes_nothing hinv.shared trivial fun _ h => nomatch h
        exact hinv.replace hmakes
  | advance task choice =>
      obtain ⟨result, hblock, rfl⟩ := Option.map_eq_some_iff.mp hstep
      exact hinv.replace (makes_block hinv.shared (hinv.task task) hblock)
  | latchElsewhere =>
      obtain rfl := Option.some.inj hstep
      have hmove : Move none state.shared { state.shared with catalogUnavailable := true } :=
        move_latch hinv.shared
      exact hinv.setShared hmove.shared fun task hat =>
        hmove.frame.at_other hinv.shared hat fun _ _ h => nomatch h

/-! ## What one step does -/

/-- What a step may do to the catalog's record. -/
inductive CatalogStep : Option SessionCatalogRecord → Option SessionCatalogRecord → Prop where
  | same (record) : CatalogStep record record
  | create {before record} (hfree : ∀ old, before = some old → old.state = .deleted)
      (hstate : record.state = .active) : CatalogStep before (some record)
  | retain {old record} (hgeneration : old.generationUuid = record.generationUuid)
      (hold : old.state = .active) (hstate : record.state = .retained) :
      CatalogStep (some old) (some record)
  | delete {old record} (hgeneration : old.generationUuid = record.generationUuid)
      (hold : old.state ≠ .deleted)
      (hstate : record.state = .deleting ∨ record.state = .deleteFailed ∨
        record.state = .deleted) : CatalogStep (some old) (some record)

/-- The mapped record and its phase. -/
def mappedPhase (shared : Shared) : Option (ℕ × Phase) :=
  shared.sessions.map fun handle => (handle, (shared.records handle).phase)

/-- What a step may do to the mapped record. -/
inductive PhaseStep : Option (ℕ × Phase) → Option (ℕ × Phase) → Prop where
  | same (mapped) : PhaseStep mapped mapped
  | publish (handle) : PhaseStep none (some (handle, .creating))
  | activate (handle) : PhaseStep (some (handle, .creating)) (some (handle, .active))
  | close (handle) : PhaseStep (some (handle, .active)) (some (handle, .closing))
  | unmap (handle) : PhaseStep (some (handle, .closing)) none
  | rollBack (handle) : PhaseStep (some (handle, .creating)) none

/-- A directory that exists is removed, wholly or in part. -/
def Removes (before after : Shared) (generation : ByteString) : Prop :=
  before.directories generation ≠ .absent ∧
    after.directories generation ≠ before.directories generation ∧
    after.directories generation ≠ .store

/-- The generation's deletion is recorded and no record owns an engine on it. -/
def Removable (shared : Shared) (generation : ByteString) : Prop :=
  (∃ record, shared.catalog = some record ∧ record.generationUuid = generation ∧
    (record.state = .deleting ∨ record.state = .deleteFailed)) ∧ NoEngine shared generation

structure Effect (before after : Shared) : Prop where
  catalog : CatalogStep before.catalog after.catalog
  phase : PhaseStep (mappedPhase before) (mappedPhase after)
  directories : ∀ generation, Removes before after generation → Removable before generation

section Effects

variable {shared after : Shared}

theorem not_removes_of_eq (hsame : after.directories = shared.directories)
    (generation : ByteString) : ¬Removes shared after generation :=
  fun hremoves => hremoves.2.1 (congrFun hsame generation)

theorem effect_catalog (hcatalog : CatalogStep shared.catalog after.catalog)
    (hphase : PhaseStep (mappedPhase shared) (mappedPhase after))
    (hdirectories : after.directories = shared.directories) : Effect shared after where
  catalog := hcatalog
  phase := hphase
  directories := fun _ hremoves => absurd hremoves (not_removes_of_eq hdirectories _)

theorem effect_phase (hcatalog : after.catalog = shared.catalog)
    (hphase : PhaseStep (mappedPhase shared) (mappedPhase after))
    (hdirectories : after.directories = shared.directories) : Effect shared after := by
  refine effect_catalog ?_ hphase hdirectories
  rw [hcatalog]
  exact .same _

theorem effect_same (hcatalog : after.catalog = shared.catalog)
    (hphase : mappedPhase after = mappedPhase shared)
    (hdirectories : after.directories = shared.directories) : Effect shared after := by
  refine effect_phase hcatalog ?_ hdirectories
  rw [hphase]
  exact .same _

/-- Only one directory changes. -/
theorem effect_setDirectory {generation : ByteString} {directory : Directory}
    (hcatalog : after.catalog = shared.catalog) (hphase : mappedPhase after = mappedPhase shared)
    (hdirectories : after.directories =
      (shared.setDirectory generation directory).directories)
    (hremovable : shared.directories generation ≠ .absent → directory ≠ .store →
      Removable shared generation) : Effect shared after where
  catalog := by
    rw [hcatalog]
    exact .same _
  phase := by
    rw [hphase]
    exact .same _
  directories := by
    rintro other ⟨hexists, hchanged, hstore⟩
    rw [hdirectories] at hchanged hstore
    by_cases hsame : other = generation
    · subst hsame
      rw [Shared.setDirectory_self] at hstore
      exact hremovable hexists hstore
    · rw [Shared.setDirectory_of_ne _ _ hsame] at hchanged
      exact absurd rfl hchanged

/-! ### The mapped record -/

theorem mappedPhase_of_sessions (shared : Shared) {handle : ℕ}
    (hsessions : shared.sessions = some handle) :
    mappedPhase shared = some (handle, (shared.records handle).phase) := by
  rw [mappedPhase, hsessions]
  rfl

theorem Mapped.mappedPhase {handle : ℕ} {phase : Phase} (hmapped : Mapped shared handle phase) :
    mappedPhase shared = some (handle, phase) := by
  rw [mappedPhase_of_sessions shared hmapped.sessions, hmapped.phase]

theorem mappedPhase_modify {handle : ℕ} {change : SessionRecord → SessionRecord}
    (hphase : (change (shared.records handle)).phase = (shared.records handle).phase) :
    mappedPhase (shared.modify handle change) = mappedPhase shared := by
  cases hsessions : shared.sessions with
  | none => simp [mappedPhase, Shared.modify, hsessions]
  | some mapped =>
      rw [mappedPhase_of_sessions shared hsessions,
        mappedPhase_of_sessions (shared.modify handle change) hsessions]
      by_cases hsame : mapped = handle
      · subst hsame
        rw [Shared.modify_self, hphase]
      · rw [Shared.modify_of_ne _ _ hsame]

theorem phaseStep_close {handle : ℕ} (hsessions : shared.sessions = some handle)
    (hactive : shared.isActive handle = true) :
    PhaseStep (mappedPhase shared)
      (mappedPhase (shared.modify handle fun session => { session with phase := .closing })) := by
  have hphase : (shared.records handle).phase = .active := by
    simpa [Shared.isActive] using hactive
  rw [mappedPhase_of_sessions shared hsessions, hphase,
    mappedPhase_of_sessions (shared.modify handle _) hsessions, Shared.modify_self]
  exact .close handle

theorem phaseStep_begun (shared : Shared) {session : Option ℕ} (record : SessionCatalogRecord)
    (seen : ℕ) (hsame : shared.sessions = session)
    (hactive : ¬session.any (!shared.isActive ·)) :
    PhaseStep (mappedPhase shared) (mappedPhase (begun shared session record seen).1) := by
  cases session with
  | none => exact .same _
  | some handle => exact phaseStep_close hsame (by simpa using hactive)

/-! ### The blocks -/

theorem begun_catalog (shared : Shared) (session : Option ℕ) (record : SessionCatalogRecord)
    (seen : ℕ) : (begun shared session record seen).1.catalog = shared.catalog := by
  cases session with
  | none => rfl
  | some handle => rfl

theorem begun_directories (shared : Shared) (session : Option ℕ) (record : SessionCatalogRecord)
    (seen : ℕ) : (begun shared session record seen).1.directories = shared.directories := by
  cases session with
  | none => rfl
  | some handle => rfl

theorem effect_publish {handle : ℕ} (hphase : (shared.records handle).phase = .creating) :
    Effect shared (publish shared handle).1 := by
  unfold publish
  split_ifs with hsome
  · exact effect_same rfl rfl rfl
  · exact effect_same rfl rfl rfl
  · have hnone : mappedPhase shared = none := by
      simpa [mappedPhase] using hsome
    refine effect_phase rfl ?_ rfl
    rw [hnone, mappedPhase_of_sessions { shared with sessions := some handle } rfl]
    simp only [hphase]
    exact .publish handle

theorem effect_activate {handle : ℕ} (hmapped : Mapped shared handle .creating) :
    Effect shared (activate shared handle).1 := by
  unfold activate
  split_ifs
  · refine effect_phase rfl ?_ rfl
    rw [hmapped.mappedPhase, mappedPhase_of_sessions (shared.modify handle _) hmapped.sessions,
      Shared.modify_self]
    exact .activate handle
  · exact effect_same rfl rfl rfl

theorem effect_beginDeletion (session : Option ℕ) (seen : ℕ) (choice : Choice) :
    Effect shared (beginDeletion shared session seen choice).1 := by
  have hsame : Effect shared shared := effect_same rfl rfl rfl
  unfold beginDeletion
  split_ifs with _ hchanged
  · exact hsame
  · exact hsame
  · obtain ⟨hsessions, hactive⟩ := not_or.mp hchanged
    have hmapped : shared.sessions = session := not_not.mp hsessions
    split
    · exact hsame
    · rename_i catalogued hcatalog
      split_ifs with hdeleted
      · exact hsame
      · exact hsame
      · exact effect_phase (begun_catalog ..) (phaseStep_begun shared _ seen hmapped hactive)
          (begun_directories ..)
      · unfold Shared.tryPutCatalogRecord
        split_ifs
        · refine effect_catalog ?_
            (phaseStep_begun { shared with catalog := some _ } _ seen hmapped hactive)
            (begun_directories ..)
          simp only [begun_catalog, hcatalog]
          exact .delete rfl hdeleted (Or.inl rfl)
        · exact hsame

/-- What exists of a generation under deletion belongs to the current record. -/
theorem Pending.removable (hinv : SharedInv shared) {generation : ByteString}
    (hpending : Pending shared generation) (hquiet : NoEngine shared generation)
    (hexists : shared.directories generation ≠ .absent) : Removable shared generation := by
  obtain ⟨record, hcatalog, hgeneration, hpresent⟩ :=
    hinv.directories generation hpending.1 hexists
  refine ⟨⟨record, hcatalog, hgeneration, ?_⟩, hquiet⟩
  rcases hpending.2 record hcatalog hgeneration with hdeleting | hfailed | hdeleted
  · exact Or.inl hdeleting
  · exact Or.inr hfailed
  · exact absurd hdeleted hpresent

theorem effect_removeGeneration (hinv : SharedInv shared) {record : SessionCatalogRecord}
    {next : Continuation} (choice : Choice) (hat : At shared (.removeGeneration record next)) :
    Effect shared (removeGeneration shared record next choice).1 := by
  obtain ⟨hpending, hquiet, -⟩ := hat
  unfold removeGeneration
  split_ifs
  · exact effect_same rfl rfl rfl
  · exact effect_setDirectory rfl rfl rfl fun hexists _ => hpending.removable hinv hquiet hexists

theorem effect_recordRemoval (record : SessionCatalogRecord) (error : Option Int32)
    (next : Continuation) (choice : Choice) :
    Effect shared (recordRemoval shared record error next choice).1 := by
  unfold recordRemoval
  split_ifs with hcurrent
  · cases hcatalog : shared.catalog with
    | none => simp [hcatalog] at hcurrent
    | some current =>
        obtain ⟨hsame, hstate⟩ : current.generationUuid = record.generationUuid ∧
            (current.state = .deleting ∨ current.state = .deleteFailed) := by
          simpa [hcatalog] using hcurrent
        have hpresent : current.state ≠ .deleted := by
          rcases hstate with h | h <;> rw [h] <;> decide
        unfold Shared.tryPutCatalogRecord
        split_ifs
        · refine effect_catalog ?_ (.same _) rfl
          rw [hcatalog]
          cases error with
          | none => exact .delete hsame hpresent (Or.inr (Or.inr rfl))
          | some code => exact .delete hsame hpresent (Or.inr (Or.inl rfl))
        · exact effect_same rfl rfl rfl
  · exact effect_same rfl rfl rfl

theorem effect_retain (handle : ℕ) (choice : Choice) :
    Effect shared (retain shared handle choice).1 := by
  have hsame : Effect shared shared := effect_same rfl rfl rfl
  simp only [retain]
  split
  · exact hsame
  · split
    · exact hsame
    · rename_i catalogued hcatalog
      split_ifs with hclosing
      · exact hsame
      · exact hsame
      · unfold Shared.tryPutCatalogRecord
        split_ifs
        · refine effect_catalog ?_ ?_ rfl
          · rw [hcatalog]
            exact .retain rfl (not_not.mp (not_or.mp hclosing).1) rfl
          · simp only [mappedPhase_modify]
            exact .same _
        · exact hsame

theorem effect_block (hinv : SharedInv shared) {task : Task} {choice : Choice}
    {result : Shared × Task} (hat : At shared task)
    (hblock : block shared choice task = some result) : Effect shared result.1 := by
  have hsame : Effect shared shared := effect_same rfl rfl rfl
  cases task with
  | idle => exact nomatch hblock
  | drain handle record seen =>
      simp only [block] at hblock
      split_ifs at hblock
      obtain rfl := Option.some.inj hblock
      exact hsame
  | publish handle =>
      obtain rfl := Option.some.inj hblock
      exact effect_publish hat.2.1
  | takeSnapshot handle =>
      obtain rfl := Option.some.inj hblock
      unfold takeSnapshot
      split_ifs <;> exact hsame
  | writeActive handle createdAt =>
      obtain rfl := Option.some.inj hblock
      obtain ⟨-, -, -, hfree⟩ := hat
      unfold writeActive Shared.tryPutCatalogRecord
      split_ifs
      · exact effect_catalog (.create hfree rfl) (.same _) rfl
      · exact hsame
  | makeDirectory handle record =>
      obtain rfl := Option.some.inj hblock
      unfold makeDirectory
      split_ifs with _ _ habsent
      · exact hsame
      · exact effect_setDirectory rfl rfl rfl fun hexists _ => absurd habsent hexists
      · exact hsame
      · exact hsame
  | openStore handle record =>
      obtain rfl := Option.some.inj hblock
      unfold openStore
      split_ifs
      · exact effect_setDirectory rfl (mappedPhase_modify rfl) rfl
          fun _ hstore => absurd rfl hstore
      · exact hsame
  | abandonStore handle record =>
      obtain rfl := Option.some.inj hblock
      obtain ⟨-, -, hcatalog, -, hactive⟩ := hat
      unfold abandonStore Shared.tryPutCatalogRecord
      split_ifs
      · refine effect_catalog ?_ (.same _) rfl
        rw [hcatalog]
        exact .delete rfl (by rw [hactive]; decide) (Or.inl rfl)
      · exact hsame
  | activate handle =>
      obtain rfl := Option.some.inj hblock
      exact effect_activate hat
  | rollBack handle | release handle record seen | leave handle =>
      obtain rfl := Option.some.inj hblock
      exact effect_same rfl (mappedPhase_modify rfl) rfl
  | withdraw handle =>
      obtain rfl := Option.some.inj hblock
      unfold withdraw
      split_ifs
      · refine effect_phase rfl ?_ rfl
        rw [hat.1.mappedPhase]
        exact .rollBack handle
      · exact hsame
  | select =>
      obtain rfl := Option.some.inj hblock
      unfold select
      split
      · exact hsame
      · split_ifs <;> exact hsame
  | beginDeletion session seen =>
      obtain rfl := Option.some.inj hblock
      exact effect_beginDeletion session seen choice
  | beginClose handle =>
      obtain rfl := Option.some.inj hblock
      unfold beginClose
      split_ifs with hchanged
      · exact hsame
      · obtain ⟨hsessions, hactive⟩ := not_or.mp hchanged
        exact effect_phase rfl (phaseStep_close (not_not.mp hsessions) (not_not.mp hactive)) rfl
  | unmap handle record seen =>
      obtain rfl := Option.some.inj hblock
      simp only [unmap]
      split_ifs
      · refine effect_phase rfl ?_ rfl
        rw [hat.1.mappedPhase]
        exact .unmap handle
      · exact hsame
  | removeGeneration record next =>
      obtain rfl := Option.some.inj hblock
      exact effect_removeGeneration hinv choice hat
  | recordRemoval record error next =>
      obtain rfl := Option.some.inj hblock
      exact effect_recordRemoval record error next choice
  | acquire =>
      obtain rfl := Option.some.inj hblock
      unfold acquire
      split
      · exact hsame
      · split_ifs
        · exact effect_same rfl (mappedPhase_modify rfl) rfl
        · exact hsame
  | retain handle =>
      obtain rfl := Option.some.inj hblock
      exact effect_retain handle choice
  | latch next =>
      obtain rfl := Option.some.inj hblock
      exact effect_same rfl rfl rfl

end Effects

theorem effect_step {state next : State} {action : Action} (hinv : Inv state)
    (hstep : step state action = some next) : Effect state.shared next.shared := by
  cases action with
  | enterCreate task durableBuffers ephemeralBuffers generation =>
      simp only [step] at hstep
      split_ifs at hstep
      · obtain rfl := Option.some.inj hstep
        exact effect_same rfl rfl rfl
      · obtain rfl := Option.some.inj hstep
        refine effect_same rfl ?_ rfl
        cases hsessions : state.shared.sessions with
        | none => simp [mappedPhase, hsessions]
        | some mapped =>
            -- the new record has the first free handle
            have hne : mapped ≠ state.shared.allocated :=
              Nat.ne_of_lt (hinv.shared.mapped mapped hsessions)
            simp [mappedPhase, hsessions, Function.update_of_ne hne]
  | enterClose task | enterRetain task =>
      simp only [step] at hstep
      split_ifs at hstep <;> obtain rfl := Option.some.inj hstep <;>
        exact effect_same rfl rfl rfl
  | advance task choice =>
      obtain ⟨result, hblock, rfl⟩ := Option.map_eq_some_iff.mp hstep
      exact effect_block hinv.shared (hinv.task task) hblock
  | latchElsewhere =>
      obtain rfl := Option.some.inj hstep
      exact effect_same rfl rfl rfl

/-! ## Closers -/

/-- The generation a closer deletes, and how many records had been made when it
selected it: the one of the record it found mapped or, if it found none, the one
that the catalog held when it wrote `deleting`. -/
def closes : Task → Option (ByteString × ℕ)
  | .drain _ (some record) seen | .release _ (some record) seen | .unmap _ (some record) seen
  | .removeGeneration record (.done seen) | .recordRemoval record _ (.done seen) =>
      some (record.generationUuid, seen)
  | _ => none

theorem At.older {shared : Shared} {task : Task} {generation : ByteString} {seen : ℕ}
    (hat : At shared task) (hcloses : closes task = some (generation, seen)) :
    Older shared seen generation := by
  unfold closes at hcloses
  split at hcloses
  · obtain ⟨rfl, rfl⟩ := Prod.mk.inj (Option.some.inj hcloses)
    exact (hat.2 _ rfl).2.2
  · obtain ⟨rfl, rfl⟩ := Prod.mk.inj (Option.some.inj hcloses)
    exact (hat.2 _ rfl).2.2
  · obtain ⟨rfl, rfl⟩ := Prod.mk.inj (Option.some.inj hcloses)
    exact (hat.2.2 _ rfl).2.2
  · obtain ⟨rfl, rfl⟩ := Prod.mk.inj (Option.some.inj hcloses)
    exact hat.2.2
  · obtain ⟨rfl, rfl⟩ := Prod.mk.inj (Option.some.inj hcloses)
    exact hat.2.2.2
  · exact nomatch hcloses

/-! ## Starting states -/

/-- The record `Start` installs for a generation that it has reopened. -/
def SessionRecord.reopened (record : SessionCatalogRecord) : SessionRecord where
  generation := record.generationUuid
  durableBuffers := true
  ephemeralBuffers := false
  phase := .active
  lifecycle := record.state
  catalogued := true
  reconciled := true
  engine := true

/-- What `Start` leaves behind: no call is running, and the session id either has
no live record or the one of the generation that the catalog holds. -/
structure Started (state : State) : Prop where
  idle : ∀ task, state.tasks task = .idle
  written : ∀ generation ∈ state.shared.written, generation ∈ state.shared.used
  catalog : ∀ record, state.shared.catalog = some record →
    record.generationUuid ∈ state.shared.written
  directories : ∀ generation ∈ state.shared.written,
    state.shared.directories generation ≠ .absent →
      ∃ record, state.shared.catalog = some record ∧ record.generationUuid = generation ∧
        record.state ≠ .deleted
  sessions : (state.shared.sessions = none ∧ state.shared.allocated = 0) ∨
    (state.shared.sessions = some 0 ∧ state.shared.allocated = 1 ∧
      ∃ record, state.shared.catalog = some record ∧
        state.shared.records 0 = SessionRecord.reopened record)

theorem Started.shared {state : State} (hstart : Started state) : SharedInv state.shared := by
  have hbase : ∀ handle < state.shared.allocated, handle = 0 ∧ state.shared.sessions = some 0 ∧
      (state.shared.records 0).generation ∈ state.shared.written := by
    intro handle hhandle
    rcases hstart.sessions with ⟨-, hnone⟩ | ⟨hsessions, hone, record, hcatalog, hrecord⟩
    · rw [hnone] at hhandle
      exact absurd hhandle (Nat.not_lt_zero _)
    · rw [hone] at hhandle
      refine ⟨Nat.lt_one_iff.mp hhandle, hsessions, ?_⟩
      rw [hrecord]
      exact hstart.catalog record hcatalog
  have hmapped : ∀ handle < state.shared.allocated, state.shared.sessions = some handle := by
    intro handle hhandle
    obtain ⟨rfl, hsessions, -⟩ := hbase handle hhandle
    exact hsessions
  refine ⟨?_, ?_, hstart.written, hstart.catalog, hstart.directories,
    fun handle hhandle _ => hmapped handle hhandle, fun handle hhandle _ => hmapped handle hhandle,
    ?_⟩
  · intro first hfirst second hsecond _
    rw [(hbase first hfirst).1, (hbase second hsecond).1]
  · intro handle hhandle
    obtain ⟨rfl, -, hwritten⟩ := hbase handle hhandle
    exact hstart.written _ hwritten
  · intro handle hhandle
    rcases hstart.sessions with ⟨hnone, -⟩ | ⟨hsome, hone, -⟩
    · rw [hnone] at hhandle
      exact nomatch hhandle
    · rw [hsome] at hhandle
      obtain rfl := Option.some.inj hhandle
      rw [hone]
      exact Nat.one_pos

theorem Started.inv {state : State} (hstart : Started state) : Inv state where
  shared := hstart.shared
  task := by
    intro task
    rw [hstart.idle task]
    trivial
  compatible := by
    intro first second _ handle hfirst
    rw [hstart.idle first] at hfirst
    exact nomatch hfirst

/-- However any number of calls on one session id interleave, a step removes
something of a directory only while that generation's deletion is recorded and
no engine is open on it; it replaces the catalog's record only by one of the same
generation, or by a new generation once the old one is deleted, and a record under
deletion never becomes retained; it moves the mapped record only forward through
its phases; and no closer's generation belongs to a record made after its
selection. -/
theorem administration_safe {start state next : State} {actions : List Action} {action : Action}
    (hstart : Started start) (hrun : Machine.run step start actions = some state)
    (hstep : step state action = some next) :
    (∀ generation, Removes state.shared next.shared generation →
      Removable state.shared generation) ∧
    CatalogStep state.shared.catalog next.shared.catalog ∧
    PhaseStep (mappedPhase state.shared) (mappedPhase next.shared) ∧
    ∀ task generation seen, closes (state.tasks task) = some (generation, seen) →
      Older state.shared seen generation := by
  have hinv : Inv state := Machine.run_invariant (fun _ _ _ hinv hstep => hinv.step hstep)
    hstart.inv hrun
  have heffect := effect_step hinv hstep
  exact ⟨heffect.directories, heffect.catalog, heffect.phase,
    fun task _ _ hcloses => (hinv.task task).older hcloses⟩

/-- A first start, before any session. -/
def firstStart : State where
  shared :=
    { sid := ascii "s1"
      instanceId := ascii "instance"
      catalog := none
      catalogUnavailable := false
      directories := fun _ => .absent
      sessions := none
      records := fun _ =>
        { generation := [], durableBuffers := false, ephemeralBuffers := false }
      allocated := 0
      used := []
      written := [] }
  tasks := fun _ => .idle

theorem firstStart_started : Started firstStart where
  idle := fun _ => rfl
  written := fun _ h => nomatch h
  catalog := fun _ h => nomatch h
  directories := fun _ h => nomatch h
  sessions := Or.inl ⟨rfl, rfl⟩

/-- Everything outside the blocks succeeds. -/
def smoothly : Choice where
  now := ascii "2026-01-02T03:04:05Z"
  succeeds := true
  commits := true
  removal := .removed

/-- A durable session is created by task 0 and closed by task 1, up to the removal
of its directory. -/
def createdAndClosed : List Action :=
  [.enterCreate 0 true false [1], .advance 0 smoothly, .advance 0 smoothly,
    .advance 0 smoothly, .advance 0 smoothly, .advance 0 smoothly, .advance 0 smoothly,
    .enterClose 1, .advance 1 smoothly, .advance 1 smoothly, .advance 1 smoothly,
    .advance 1 smoothly, .advance 1 smoothly]

theorem administration_safe_createdAndClosed :
    ∃ state next, Machine.run step firstStart createdAndClosed = some state ∧
      step state (.advance 1 smoothly) = some next ∧
      Removes state.shared next.shared [1] ∧ Removable state.shared [1] := by
  have hremoves : ((Machine.run step firstStart createdAndClosed).bind fun state =>
      (step state (.advance 1 smoothly)).map fun next =>
        (state.shared.directories [1], next.shared.directories [1])) =
      some (.store, .absent) := by
    decide +kernel
  obtain ⟨state, hrun, hrest⟩ := Option.bind_eq_some_iff.mp hremoves
  obtain ⟨next, hstep, hdirectories⟩ := Option.map_eq_some_iff.mp hrest
  obtain ⟨hbefore, hafter⟩ := Prod.mk.inj hdirectories
  have hremoved : Removes state.shared next.shared [1] := by
    rw [Removes, hbefore, hafter]
    decide
  exact ⟨state, next, hrun, hstep, hremoved,
    (administration_safe firstStart_started hrun hstep).1 [1] hremoved⟩

end Sitos.Admin

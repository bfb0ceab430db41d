import Sitos.Catalog.Lifecycle
import Sitos.Core.OrderedMap

/-!
# The catalog and the directories

What a durable root means, apart from how it is stored: the current record of
each session id, the state of each generation directory, and every record ever
written.  A ledger is sound when the records and the directories agree with
each other at every point where the process may be lost.
-/

namespace Sitos.Catalog

open Sitos.Bytes Sitos.Core

/-- A directory is a store once RocksDB has put its `CURRENT` file there. -/
inductive Directory where
  | absent
  | bare
  | store
  deriving DecidableEq, Repr

structure Ledger where
  records : OrderedMap ByteString SessionCatalogRecord
  generations : ByteString → ByteString → Directory
  /-- Oldest first. -/
  written : List SessionCatalogRecord

namespace Ledger

def initial : Ledger := ⟨.empty, fun _ _ => .absent, []⟩

def put (ledger : Ledger) (record : SessionCatalogRecord) : Ledger where
  records := ledger.records.insertOrAssign record.sid record
  generations := ledger.generations
  written := ledger.written ++ [record]

def setDirectory (ledger : Ledger) (sid generation : ByteString) (directory : Directory) :
    Ledger :=
  { ledger with
    generations := Function.update ledger.generations sid
      (Function.update (ledger.generations sid) generation directory) }

/-- The records written for one session id. -/
def recordsOf (ledger : Ledger) (sid : ByteString) : List SessionCatalogRecord :=
  ledger.written.filter (·.sid == sid)

/-- The records written for one generation. -/
def generationRecords (ledger : Ledger) (sid generation : ByteString) :
    List SessionCatalogRecord :=
  (ledger.recordsOf sid).filter (·.generationUuid == generation)

structure Sound (ledger : Ledger) : Prop where
  valid : ∀ record ∈ ledger.written, Valid record
  current : ∀ sid, ledger.records.find sid = (ledger.recordsOf sid).getLast?
  transitions : ∀ sid generation, (ledger.generationRecords sid generation).IsChain Follows
  stores : ∀ sid record, ledger.records.find sid = some record →
    record.state = .retained ∨ record.state = .orphaned →
      ledger.generations sid record.generationUuid = .store
  directories : ∀ sid generation, ledger.generations sid generation ≠ .absent →
    ∃ record, ledger.records.find sid = some record ∧ record.generationUuid = generation ∧
      record.state ≠ .deleted

/-- When a record may be written: it continues its generation or starts a new
one, and claims nothing about the directory that is not so. -/
structure Writable (ledger : Ledger) (record : SessionCatalogRecord) : Prop where
  valid : Valid record
  fits : (∃ old, ledger.records.find record.sid = some old ∧
      old.generationUuid = record.generationUuid ∧ Follows old record) ∨
    (record.state = .active ∧ (∀ old ∈ ledger.records.find record.sid, old.state = .deleted) ∧
      ∀ old ∈ ledger.written, old.generationUuid ≠ record.generationUuid)
  store : record.state = .retained ∨ record.state = .orphaned →
    ledger.generations record.sid record.generationUuid = .store
  gone : record.state = .deleted → ledger.generations record.sid record.generationUuid = .absent

theorem sound_initial : initial.Sound where
  valid := by simp [initial]
  current := fun _ => rfl
  transitions := fun _ _ => List.isChain_nil
  stores := fun _ _ hfind => absurd hfind (by simp [initial, OrderedMap.find, OrderedMap.empty])
  directories := fun _ _ hdirectory => absurd rfl hdirectory

theorem Sound.valid_of_find {ledger : Ledger} (hsound : ledger.Sound) {sid : ByteString}
    {record : SessionCatalogRecord} (hfind : ledger.records.find sid = some record) :
    Valid record ∧ record.sid = sid := by
  rw [hsound.current] at hfind
  obtain ⟨hmem, hsid⟩ := List.mem_filter.mp (List.mem_of_getLast? hfind)
  exact ⟨hsound.valid record hmem, beq_iff_eq.mp hsid⟩

theorem Sound.deleted_gone {ledger : Ledger} (hsound : ledger.Sound) {sid : ByteString}
    {record : SessionCatalogRecord} (hfind : ledger.records.find sid = some record)
    (hstate : record.state = .deleted) (generation : ByteString) :
    ledger.generations sid generation = .absent := by
  by_contra hdirectory
  obtain ⟨other, hother, -, hnot⟩ := hsound.directories sid generation hdirectory
  rw [hfind] at hother
  obtain rfl := Option.some.inj hother
  exact hnot hstate

/-! ## A record is written -/

section Put

variable {ledger : Ledger} {record : SessionCatalogRecord}

theorem find_put_self (ledger : Ledger) (record : SessionCatalogRecord) :
    (ledger.put record).records.find record.sid = some record :=
  OrderedMap.find_insertOrAssign_self _ _ _

theorem find_put_of_ne {sid : ByteString} (hsid : sid ≠ record.sid) :
    (ledger.put record).records.find sid = ledger.records.find sid :=
  OrderedMap.find_insertOrAssign_of_ne _ _ hsid

theorem recordsOf_put_self (ledger : Ledger) (record : SessionCatalogRecord) :
    (ledger.put record).recordsOf record.sid = ledger.recordsOf record.sid ++ [record] := by
  simp [recordsOf, put, List.filter_append]

theorem recordsOf_put_of_ne {sid : ByteString} (hsid : sid ≠ record.sid) :
    (ledger.put record).recordsOf sid = ledger.recordsOf sid := by
  simp [recordsOf, put, List.filter_append, Ne.symm hsid]

/-- A last element that passes a filter stays the last one. -/
theorem getLast_filter {p : SessionCatalogRecord → Bool} {records : List SessionCatalogRecord}
    {last : SessionCatalogRecord} (hlast : records.getLast? = some last) (hp : p last = true) :
    (records.filter p).getLast? = some last := by
  obtain ⟨front, rfl⟩ := List.getLast?_eq_some_iff.mp hlast
  simp [List.filter_append, hp]

/-- The records of the new record's generation so far end where it continues. -/
theorem Sound.follows_put (hsound : ledger.Sound) (hwritable : ledger.Writable record) :
    ∀ old ∈ (ledger.generationRecords record.sid record.generationUuid).getLast?,
      Follows old record := by
  intro old hold
  rcases hwritable.fits with ⟨before, hbefore, hgeneration, hfollows⟩ | ⟨-, -, hfresh⟩
  · rw [hsound.current] at hbefore
    have hlast := getLast_filter (p := (·.generationUuid == record.generationUuid)) hbefore
      (beq_iff_eq.mpr hgeneration)
    have hsame : some before = some old := hlast.symm.trans hold
    obtain rfl := Option.some.inj hsame
    exact hfollows
  · have hmem := List.mem_of_getLast? hold
    obtain ⟨hrecords, hgeneration⟩ := List.mem_filter.mp hmem
    exact absurd (beq_iff_eq.mp hgeneration) (hfresh old (List.mem_of_mem_filter hrecords))

theorem Sound.put (hsound : ledger.Sound) (hwritable : ledger.Writable record) :
    (ledger.put record).Sound where
  valid := by
    intro old hold
    rcases List.mem_append.mp hold with hbefore | hnew
    · exact hsound.valid old hbefore
    · rw [List.mem_singleton.mp hnew]
      exact hwritable.valid
  current := by
    intro sid
    by_cases hsid : sid = record.sid
    · rw [hsid, find_put_self, recordsOf_put_self, List.getLast?_concat]
    · rw [find_put_of_ne hsid, recordsOf_put_of_ne hsid]
      exact hsound.current sid
  transitions := by
    intro sid generation
    have hbefore := hsound.transitions sid generation
    by_cases hsid : sid = record.sid
    · subst hsid
      rw [generationRecords, recordsOf_put_self, List.filter_append]
      by_cases hgeneration : record.generationUuid = generation
      · subst hgeneration
        rw [List.filter_cons_of_pos (by simp), List.filter_nil]
        apply hbefore.append (List.isChain_singleton _)
        intro old hold new hnew
        obtain rfl := Option.some.inj hnew
        exact hsound.follows_put hwritable old hold
      · rw [List.filter_cons_of_neg (by simpa using hgeneration), List.filter_nil,
          List.append_nil]
        exact hbefore
    · rw [generationRecords, recordsOf_put_of_ne hsid]
      exact hbefore
  stores := by
    intro sid old hfind hstate
    by_cases hsid : sid = record.sid
    · rw [hsid, find_put_self] at hfind
      obtain rfl := Option.some.inj hfind
      rw [hsid]
      exact hwritable.store hstate
    · rw [find_put_of_ne hsid] at hfind
      exact hsound.stores sid old hfind hstate
  directories := by
    intro sid generation hdirectory
    obtain ⟨old, hfind, hgeneration, hstate⟩ := hsound.directories sid generation hdirectory
    by_cases hsid : sid = record.sid
    · subst hsid
      refine ⟨record, find_put_self _ _, ?_⟩
      rcases hwritable.fits with ⟨before, hbefore, hsame, -⟩ | ⟨-, hdeleted, -⟩
      · rw [hfind] at hbefore
        obtain rfl := Option.some.inj hbefore
        have hrecord : record.generationUuid = generation := hsame.symm.trans hgeneration
        refine ⟨hrecord, fun hgone => hdirectory ?_⟩
        rw [← hrecord]
        exact hwritable.gone hgone
      · exact absurd (hdeleted old hfind) hstate
    · exact ⟨old, by rw [find_put_of_ne hsid]; exact hfind, hgeneration, hstate⟩

end Put

/-! ## A directory changes -/

theorem setDirectory_self (ledger : Ledger) (sid generation : ByteString)
    (directory : Directory) :
    (ledger.setDirectory sid generation directory).generations sid generation = directory := by
  simp [setDirectory]

theorem setDirectory_of_ne {ledger : Ledger} {sid generation sid' generation' : ByteString}
    {directory : Directory} (hne : ¬(sid' = sid ∧ generation' = generation)) :
    (ledger.setDirectory sid generation directory).generations sid' generation' =
      ledger.generations sid' generation' := by
  by_cases hsid : sid' = sid
  · subst hsid
    have hgeneration : generation' ≠ generation := fun h => hne ⟨rfl, h⟩
    simp [setDirectory, hgeneration]
  · simp [setDirectory, hsid]

theorem setDirectory_setDirectory (ledger : Ledger) (sid generation : ByteString)
    (first second : Directory) :
    (ledger.setDirectory sid generation first).setDirectory sid generation second =
      ledger.setDirectory sid generation second := by
  simp [setDirectory]

theorem setDirectory_same (ledger : Ledger) (sid generation : ByteString) :
    ledger.setDirectory sid generation (ledger.generations sid generation) = ledger := by
  simp [setDirectory]

/-- The directory of a generation that is not deleted may change, as long as a
kept store stays a store. -/
theorem Sound.setDirectory {ledger : Ledger} (hsound : ledger.Sound) {sid : ByteString}
    {record : SessionCatalogRecord} {directory : Directory}
    (hfind : ledger.records.find sid = some record) (hstate : record.state ≠ .deleted)
    (hkept : record.state = .retained ∨ record.state = .orphaned → directory = .store) :
    (ledger.setDirectory sid record.generationUuid directory).Sound where
  valid := hsound.valid
  current := hsound.current
  transitions := hsound.transitions
  stores := by
    intro sid' other hother hkeep
    by_cases hsame : sid' = sid ∧ other.generationUuid = record.generationUuid
    · obtain ⟨rfl, hgeneration⟩ := hsame
      have hrecord : record = other := Option.some.inj (hfind.symm.trans hother)
      rw [hgeneration, setDirectory_self]
      exact hkept (hrecord ▸ hkeep)
    · rw [setDirectory_of_ne hsame]
      exact hsound.stores sid' other hother hkeep
  directories := by
    intro sid' generation hdirectory
    by_cases hsame : sid' = sid ∧ generation = record.generationUuid
    · obtain ⟨rfl, rfl⟩ := hsame
      exact ⟨record, hfind, rfl, hstate⟩
    · rw [setDirectory_of_ne hsame] at hdirectory
      exact hsound.directories sid' generation hdirectory

/-! ## What an operation on one session id leaves alone -/

/-- Everything about other session ids is unchanged. -/
def SameElsewhere (sid : ByteString) (before after : Ledger) : Prop :=
  ∀ other ≠ sid, after.records.find other = before.records.find other ∧
    after.generations other = before.generations other

theorem SameElsewhere.refl (sid : ByteString) (ledger : Ledger) :
    SameElsewhere sid ledger ledger :=
  fun _ _ => ⟨rfl, rfl⟩

theorem SameElsewhere.trans {sid : ByteString} {first second third : Ledger}
    (hfirst : SameElsewhere sid first second) (hsecond : SameElsewhere sid second third) :
    SameElsewhere sid first third :=
  fun other hother => ⟨(hsecond other hother).1.trans (hfirst other hother).1,
    (hsecond other hother).2.trans (hfirst other hother).2⟩

theorem sameElsewhere_put (ledger : Ledger) (record : SessionCatalogRecord) :
    SameElsewhere record.sid ledger (ledger.put record) :=
  fun _ hother => ⟨find_put_of_ne hother, rfl⟩

theorem sameElsewhere_setDirectory (ledger : Ledger) (sid generation : ByteString)
    (directory : Directory) :
    SameElsewhere sid ledger (ledger.setDirectory sid generation directory) := by
  intro other hother
  refine ⟨rfl, ?_⟩
  funext generation'
  exact setDirectory_of_ne fun h => hother h.1

/-- An active generation has its store. -/
def ActiveStore (ledger : Ledger) (sid : ByteString) : Prop :=
  ∀ record, ledger.records.find sid = some record → record.state = .active →
    ledger.generations sid record.generationUuid = .store

theorem SameElsewhere.activeStore {sid other : ByteString} {before after : Ledger}
    (hsame : SameElsewhere sid before after) (hother : other ≠ sid)
    (hstore : before.ActiveStore other) : after.ActiveStore other := by
  intro record hfind hstate
  rw [(hsame other hother).1] at hfind
  rw [(hsame other hother).2]
  exact hstore record hfind hstate

end Ledger

end Sitos.Catalog

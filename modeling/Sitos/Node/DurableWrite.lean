import Sitos.Core.Bytes

/-!
# Durable buffer writes

A durable buffer is meant to be write-once: the node reads a key before it puts
it, accepts a byte-identical repeat and refuses anything else.  The database is
outside the node, so how each of its calls ends is an input here: a read may
serve the store, end in a failed status or throw, and a put that fails may or
may not have reached the store.
-/

namespace Sitos.DurableWrite

open Sitos.Bytes

abbrev Store := ByteString → Option ByteString

/-- How the native read of one application ends. -/
inductive ReadEnd where
  | served
  | failed
  | threw
  deriving DecidableEq, Repr

/-- How the native put of one application ends, and whether a failed put took
effect. -/
inductive WriteEnd where
  | done
  | failed (effective : Bool)
  | threw (effective : Bool)
  deriving DecidableEq, Repr

inductive DatabaseStatus where
  | ok
  | notFound
  | failed
  deriving DecidableEq, Repr

/-- The native read; `none` when it throws. -/
def getDatabase (store : Store) (key : ByteString) :
    ReadEnd → Option (DatabaseStatus × ByteString)
  | .served =>
      match store key with
      | some value => some (.ok, value)
      | none => some (.notFound, [])
  | .failed => some (.failed, [])
  | .threw => none

/-- The value handed to the sink, or nothing when the call returns false. -/
def readEntry (store : Store) (key : ByteString) (readEnd : ReadEnd) :
    Option (Option ByteString) :=
  (getDatabase store key readEnd).map fun (status, value) =>
    if status = .notFound ∨ status ≠ .ok then none else some value

def WriteEnd.effective : WriteEnd → Bool
  | .done => true
  | .failed effective => effective
  | .threw effective => effective

/-- The store after a put, and the returned flag unless the put threw. -/
def putDatabase (store : Store) (key value : ByteString) (writeEnd : WriteEnd) :
    Store × Option Bool :=
  (if writeEnd.effective then Function.update store key (some value) else store,
    match writeEnd with
    | .done => some true
    | .failed _ => some false
    | .threw _ => none)

inductive BufferWriteOutcome where
  | stored
  | conflict
  | readFailed
  | writeFailed
  deriving DecidableEq, Repr

/-- One sample that reaches the durable store, with the database's part in it. -/
structure Application where
  relativeKey : ByteString
  payload : ByteString
  readEnd : ReadEnd
  writeEnd : WriteEnd
  deriving DecidableEq, Repr

def applyDurableBufferWrite (store : Store) (application : Application) :
    Store × BufferWriteOutcome :=
  match readEntry store application.relativeKey application.readEnd with
  | none => (store, .readFailed)
  | some (some value) =>
      (store, if value = application.payload then .stored else .conflict)
  | some none =>
      match putDatabase store application.relativeKey application.payload
          application.writeEnd with
      | (store, some true) => (store, .stored)
      | (store, some false) => (store, .writeFailed)
      | (store, none) => (store, .writeFailed)

/-- The store after a sequence of applications. -/
def applyAll (store : Store) (applications : List Application) : Store :=
  applications.foldl (fun store application => (applyDurableBufferWrite store application).1)
    store

/-- Once a value is stored, every later application of other bytes to its key
is refused and leaves the value in place. -/
def WriteOnce (store : Store) (applications : List Application) : Prop :=
  ∀ earlier middle application later,
    applications = earlier ++ middle ++ application :: later →
    ∀ value, applyAll store earlier application.relativeKey = some value →
      application.payload ≠ value →
      ((applyDurableBufferWrite (applyAll store (earlier ++ middle)) application).2 =
          .conflict ∨
        (applyDurableBufferWrite (applyAll store (earlier ++ middle)) application).2 =
          .readFailed ∨
        (applyDurableBufferWrite (applyAll store (earlier ++ middle)) application).2 =
          .writeFailed) ∧
      applyAll store (earlier ++ middle ++ [application]) application.relativeKey =
        some value

/-- A conflicting application whose read ends in a failed status puts its own
bytes; it is harmless only if that put has no effect. -/
def Guarded (store : Store) (application : Application) : Prop :=
  ∀ value, store application.relativeKey = some value → application.payload ≠ value →
    application.readEnd = .failed → application.writeEnd.effective = false

@[simp]
theorem applyAll_nil (store : Store) : applyAll store [] = store := rfl

theorem applyAll_append_singleton (store : Store) (applications : List Application)
    (application : Application) :
    applyAll store (applications ++ [application]) =
      (applyDurableBufferWrite (applyAll store applications) application).1 := by
  simp [applyAll]

/-- The three ends of the read decide everything about an application. -/
theorem applyDurableBufferWrite_of_stored {store : Store} {application : Application}
    {value : ByteString} (hstored : store application.relativeKey = some value) :
    applyDurableBufferWrite store application =
      match application.readEnd with
      | .served =>
          (store, if value = application.payload then .stored else .conflict)
      | .threw => (store, .readFailed)
      | .failed =>
          (if application.writeEnd.effective then
              Function.update store application.relativeKey (some application.payload)
            else store,
            if application.writeEnd = .done then .stored else .writeFailed) := by
  cases hread : application.readEnd with
  | served => simp [applyDurableBufferWrite, readEntry, getDatabase, hread, hstored]
  | threw => simp [applyDurableBufferWrite, readEntry, getDatabase, hread]
  | failed =>
      cases hwrite : application.writeEnd <;>
        simp [applyDurableBufferWrite, readEntry, getDatabase, putDatabase, hread, hwrite]

/-- Keys other than the applied one are untouched. -/
theorem applyDurableBufferWrite_other (store : Store) (application : Application)
    {key : ByteString} (hkey : key ≠ application.relativeKey) :
    (applyDurableBufferWrite store application).1 key = store key := by
  have hput : (putDatabase store application.relativeKey application.payload
      application.writeEnd).1 key = store key := by
    simp only [putDatabase]
    split_ifs
    · exact Function.update_of_ne hkey _ _
    · rfl
  simp only [applyDurableBufferWrite]
  split
  · rfl
  · rfl
  · split <;> simp_all

theorem stored_of_guarded {store : Store} {application : Application} {value : ByteString}
    (hguarded : Guarded store application)
    (hstored : store application.relativeKey = some value) :
    (applyDurableBufferWrite store application).1 application.relativeKey = some value := by
  rw [applyDurableBufferWrite_of_stored hstored]
  cases hread : application.readEnd with
  | served => exact hstored
  | threw => exact hstored
  | failed =>
      simp only
      by_cases hsame : application.payload = value
      · split_ifs
        · simp [hsame]
        · exact hstored
      · simp [hguarded value hstored hsame hread, hstored]

/-- A guarded application keeps every stored value. -/
theorem kept_of_guarded {store : Store} {application : Application}
    (hguarded : Guarded store application) {key value : ByteString}
    (hstored : store key = some value) :
    (applyDurableBufferWrite store application).1 key = some value := by
  by_cases hkey : key = application.relativeKey
  · subst hkey
    exact stored_of_guarded hguarded hstored
  · rw [applyDurableBufferWrite_other store application hkey, hstored]

theorem kept_of_all_guarded {store : Store} {earlier middle : List Application}
    (hguarded : ∀ before application after, middle = before ++ application :: after →
      Guarded (applyAll store (earlier ++ before)) application)
    {key value : ByteString} (hstored : applyAll store earlier key = some value) :
    applyAll store (earlier ++ middle) key = some value := by
  induction middle using List.reverseRecOn with
  | nil => simpa using hstored
  | append_singleton middle application ih =>
      rw [← List.append_assoc, applyAll_append_singleton]
      apply kept_of_guarded (hguarded middle application [] rfl)
      apply ih
      intro before inner after hmiddle
      exact hguarded before inner (after ++ [application]) (by simp [hmiddle])

/-- A conflicting application is refused exactly when it is guarded. -/
theorem refused_iff {store : Store} {application : Application} {value : ByteString}
    (hstored : store application.relativeKey = some value)
    (hconflict : application.payload ≠ value) :
    (((applyDurableBufferWrite store application).2 = .conflict ∨
        (applyDurableBufferWrite store application).2 = .readFailed ∨
        (applyDurableBufferWrite store application).2 = .writeFailed) ∧
      (applyDurableBufferWrite store application).1 application.relativeKey =
        some value) ↔
      (application.readEnd = .failed → application.writeEnd.effective = false) := by
  rw [applyDurableBufferWrite_of_stored hstored]
  cases hread : application.readEnd with
  | served => simp [hstored, Ne.symm hconflict]
  | threw => simp [hstored]
  | failed =>
      cases hwrite : application.writeEnd with
      | done => simp [WriteEnd.effective]
      | failed effective => cases effective <;> simp [WriteEnd.effective, hstored, hconflict]
      | threw effective => cases effective <;> simp [WriteEnd.effective, hstored, hconflict]

/-- Durable buffers are write-once in exactly the runs whose conflicting
applications are all guarded. -/
theorem writeOnce_iff (store : Store) (applications : List Application) :
    WriteOnce store applications ↔
      ∀ earlier application later, applications = earlier ++ application :: later →
        Guarded (applyAll store earlier) application := by
  constructor
  · intro honce earlier application later hsplit value hstored hconflict
    have hrefused := honce earlier [] application later (by simp [hsplit]) value hstored
      hconflict
    rw [List.append_nil, applyAll_append_singleton] at hrefused
    exact (refused_iff hstored hconflict).mp hrefused
  · intro hguarded earlier middle application later hsplit value hstored hconflict
    have hkept : applyAll store (earlier ++ middle) application.relativeKey = some value := by
      apply kept_of_all_guarded _ hstored
      intro before inner after hmiddle
      exact hguarded (earlier ++ before) inner (after ++ application :: later)
        (by simp [hsplit, hmiddle])
    rw [applyAll_append_singleton]
    refine (refused_iff hkept hconflict).mpr ?_
    exact hguarded (earlier ++ middle) application later hsplit value hkept hconflict

/-- A transient read failure lets a conflicting resend replace the stored
byte. -/
theorem not_writeOnce_of_read_failure :
    ¬ WriteOnce (fun _ => none)
      [⟨ascii "k", [1], .served, .done⟩, ⟨ascii "k", [2], .failed, .done⟩] := by
  intro honce
  have hrefused := honce [⟨ascii "k", [1], .served, .done⟩] []
    ⟨ascii "k", [2], .failed, .done⟩ [] rfl [1] (by decide) (by decide)
  exact absurd hrefused (by decide)

end Sitos.DurableWrite

import Sitos.Catalog.Record

/-!
# Lifecycle of a generation

The records the node writes, each as the change it makes to the record before,
and the transitions they make.  Every one of them keeps the field rules of the
decoder.
-/

namespace Sitos.Catalog

open Sitos.Bytes

/-- What the clock is trusted to return. -/
abbrev Timestamp := { text : ByteString // isTimestamp text = true }

namespace SessionCatalogRecord

/-- The record written before the store of a new generation is created. -/
def create (sid generationUuid ownerInstanceId : ByteString) (ephemeral : Bool)
    (createdAt : ByteString) : SessionCatalogRecord :=
  { sid, generationUuid, ownerInstanceId, ephemeral, createdAt }

def retain (record : SessionCatalogRecord) (now : ByteString) : SessionCatalogRecord :=
  { record with state := .retained, retainedAt := now }

def orphan (record : SessionCatalogRecord) (now : ByteString) : SessionCatalogRecord :=
  { record with state := .orphaned, orphanedAt := now }

/-- A retried deletion keeps the diagnostics of the failed one. -/
def beginDeletion (record : SessionCatalogRecord) (now : ByteString) : SessionCatalogRecord :=
  { record with state := .deleting, deletingAt := now }

def failDeletion (record : SessionCatalogRecord) (code : Int32) : SessionCatalogRecord :=
  { record with
    state := .deleteFailed
    failure := some
      { operation := ascii "remove_directory", category := ascii "filesystem", code } }

def finishDeletion (record : SessionCatalogRecord) (now : ByteString) : SessionCatalogRecord :=
  { record with state := .deleted, deletedAt := now, failure := none }

end SessionCatalogRecord

/-- The transitions of one generation. -/
inductive Transition : SessionLifecycleState → SessionLifecycleState → Prop where
  | retain : Transition .active .retained
  | orphan : Transition .active .orphaned
  | deleteActive : Transition .active .deleting
  | deleteRetained : Transition .retained .deleting
  | deleteOrphaned : Transition .orphaned .deleting
  | retry : Transition .deleteFailed .deleting
  | fail : Transition .deleting .deleteFailed
  | finish : Transition .deleting .deleted
  | finishFailed : Transition .deleteFailed .deleted

/-- Consecutive records of one generation. -/
def Follows (earlier later : SessionCatalogRecord) : Prop :=
  Transition earlier.state later.state

theorem isTimestamp_ne_nil {text : ByteString} (htext : isTimestamp text = true) : text ≠ [] := by
  rintro rfl
  exact absurd htext (by decide)

theorem isEmpty_timestamp {text : ByteString} (htext : isTimestamp text = true) :
    text.isEmpty = false := by
  simpa using isTimestamp_ne_nil htext

/-! ## Every written record keeps the field rules -/

theorem valid_create {sid generation owner created : ByteString} (ephemeral : Bool)
    (hsid : Key.isValidSessionId sid = true) (hgeneration : isCanonicalUuid generation = true)
    (howner : isCanonicalUuid owner = true) (hcreated : isTimestamp created = true) :
    Valid (.create sid generation owner ephemeral created) where
  sid := hsid
  generation := hgeneration
  owner := howner
  durable := rfl
  created := hcreated
  times := by simp [SessionCatalogRecord.create]
  failure := by simp [SessionCatalogRecord.create]
  lifecycle := rfl

section Changes

variable {record : SessionCatalogRecord} {now : ByteString} (hvalid : Valid record)
include hvalid

theorem Valid.retain (hstate : record.state = .active) (hnow : isTimestamp now = true) :
    Valid (record.retain now) where
  __ := hvalid
  times := by
    have htimes := hvalid.times
    simp only [List.forall_mem_cons] at htimes ⊢
    exact ⟨Or.inr hnow, htimes.2⟩
  lifecycle := by
    have hlifecycle := hvalid.lifecycle
    simp only [hasLifecycleMetadata, hstate, Bool.and_eq_true] at hlifecycle
    obtain ⟨⟨⟨⟨-, -⟩, hdeleting⟩, hdeleted⟩, hfailure⟩ := hlifecycle
    simp only [hasLifecycleMetadata, SessionCatalogRecord.retain, isEmpty_timestamp hnow,
      hdeleting, hdeleted, hfailure]
    rfl

theorem Valid.orphan (hstate : record.state = .active) (hnow : isTimestamp now = true) :
    Valid (record.orphan now) where
  __ := hvalid
  times := by
    have htimes := hvalid.times
    simp only [List.forall_mem_cons] at htimes ⊢
    exact ⟨htimes.1, Or.inr hnow, htimes.2.2⟩
  lifecycle := by
    have hlifecycle := hvalid.lifecycle
    simp only [hasLifecycleMetadata, hstate, Bool.and_eq_true] at hlifecycle
    obtain ⟨⟨⟨⟨-, -⟩, hdeleting⟩, hdeleted⟩, hfailure⟩ := hlifecycle
    simp only [hasLifecycleMetadata, SessionCatalogRecord.orphan, isEmpty_timestamp hnow,
      hdeleting, hdeleted, hfailure]
    rfl

/-- Only a finished deletion carries the time of its end. -/
theorem Valid.deletedAt_eq_nil (hstate : record.state ≠ .deleted) : record.deletedAt = [] := by
  have hlifecycle := hvalid.lifecycle
  cases hrecord : record.state with
  | deleted => exact absurd hrecord hstate
  | _ =>
      simp only [hasLifecycleMetadata, hrecord, Bool.and_eq_true, Bool.not_not,
        Bool.not_eq_true', List.isEmpty_iff] at hlifecycle
      tauto

theorem Valid.beginDeletion (hstate : record.state ≠ .deleted) (hnow : isTimestamp now = true) :
    Valid (record.beginDeletion now) where
  __ := hvalid
  times := by
    have htimes := hvalid.times
    simp only [List.forall_mem_cons] at htimes ⊢
    exact ⟨htimes.1, htimes.2.1, Or.inr hnow, htimes.2.2.2⟩
  lifecycle := by
    simp only [hasLifecycleMetadata, SessionCatalogRecord.beginDeletion, isEmpty_timestamp hnow,
      hvalid.deletedAt_eq_nil hstate]
    rfl

/-- A pending or failed deletion has begun. -/
theorem Valid.isEmpty_deletingAt
    (hstate : record.state = .deleting ∨ record.state = .deleteFailed) :
    record.deletingAt.isEmpty = false := by
  have hlifecycle := hvalid.lifecycle
  rcases hstate with hstate | hstate <;>
    simp only [hasLifecycleMetadata, hstate, Bool.and_eq_true, Bool.not_eq_true'] at hlifecycle
  · exact hlifecycle.1
  · exact hlifecycle.1.1

theorem Valid.failDeletion (code : Int32)
    (hstate : record.state = .deleting ∨ record.state = .deleteFailed) :
    Valid (record.failDeletion code) where
  __ := hvalid
  failure := by
    have hoperation : isDiagnosticWord (ascii "remove_directory") = true := by decide
    have hcategory : isDiagnosticWord (ascii "filesystem") = true := by decide
    intro failure hfailure
    obtain rfl := Option.some.inj hfailure
    exact ⟨hoperation, hcategory⟩
  lifecycle := by
    have hdeleted := hvalid.deletedAt_eq_nil (by rcases hstate with h | h <;> rw [h] <;> decide)
    simp only [hasLifecycleMetadata, SessionCatalogRecord.failDeletion,
      hvalid.isEmpty_deletingAt hstate, hdeleted]
    rfl

theorem Valid.finishDeletion (hnow : isTimestamp now = true)
    (hstate : record.state = .deleting ∨ record.state = .deleteFailed) :
    Valid (record.finishDeletion now) where
  __ := hvalid
  times := by
    have htimes := hvalid.times
    simp only [List.forall_mem_cons] at htimes ⊢
    exact ⟨htimes.1, htimes.2.1, htimes.2.2.1, Or.inr hnow, htimes.2.2.2.2⟩
  failure := by
    intro failure hfailure
    exact absurd hfailure (by simp [SessionCatalogRecord.finishDeletion])
  lifecycle := by
    simp only [hasLifecycleMetadata, SessionCatalogRecord.finishDeletion,
      hvalid.isEmpty_deletingAt hstate, isEmpty_timestamp hnow]
    rfl

end Changes

end Sitos.Catalog

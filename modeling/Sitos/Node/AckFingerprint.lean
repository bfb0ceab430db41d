import Sitos.Node.AckHistory
import Sitos.Wire.AckCodec
import Sitos.Wire.AckToken
import Sitos.Wire.Sha256

/-!
# What an acknowledgement token stands for

The fingerprint of an operation is the digest of its kind, its key, its encoding and its payload,
each with its length before it.  The registry compares fingerprints only, so the material has to
be as good as the operation itself.

The sizes here are those of arrays that lie in memory next to each other, so that their sum is a
size too.
-/

namespace Sitos.AckFingerprint

open Sitos.AckCodec
open Sitos.AckHistory
open Sitos.AckResult
open Sitos.Bytes
open Sitos.Cursor
open Sitos.Machine
open Sitos.Registry
open Sitos.Ring
open Sitos.Sha256
open Sitos.Token

/-- The arguments of `ComputeAckFingerprint`. -/
structure AckOperation where
  kind : AckOperationKind
  fullKey : ByteString
  encodingId : ByteString
  payload : ByteString
  deriving DecidableEq

/-! ## The material -/

/-- The next `count` bytes of a length, from byte `i` of it on. -/
def putLength (out : Span UInt8) (offset : ℕ) (length : UInt64) (i : ℕ) :
    ℕ → Checked (Span UInt8 × ℕ)
  | 0 => pure (out, offset)
  | count + 1 => do
      let out ← out.write offset ((length >>> UInt64.ofNat (8 * i)) &&& 0xFF).toUInt8
      putLength out (offset + 1) length (i + 1) count

def putField (out : Span UInt8) (offset : ℕ) : ByteString → Checked (Span UInt8 × ℕ)
  | [] => pure (out, offset)
  | b :: field => do
      let out ← out.write offset b
      putField out (offset + 1) field

namespace AckOperation

def materialSize (operation : AckOperation) : ℕ :=
  1 + 3 * 8 + operation.fullKey.length + operation.encodingId.length + operation.payload.length

/-- A vector of bytes, or an exception for one that is larger than any object. -/
def allocate (size : ℕ) : Checked (Span UInt8) :=
  if hsize : size < 2 ^ 63 then pure ⟨List.replicate size 0, by rwa [List.length_replicate]⟩
  else reject

def Fits (operation : AckOperation) : Prop :=
  operation.fullKey.length < 2 ^ 64 ∧ operation.encodingId.length < 2 ^ 64 ∧
    operation.payload.length < 2 ^ 64

instance (operation : AckOperation) : Decidable operation.Fits :=
  inferInstanceAs (Decidable (_ ∧ _ ∧ _))

/-- The bytes that identify an operation. -/
def material (operation : AckOperation) : ByteString :=
  kindCode operation.kind ::
    (leBytes 8 operation.fullKey.length ++ operation.fullKey ++
      (leBytes 8 operation.encodingId.length ++ operation.encodingId ++
        (leBytes 8 operation.payload.length ++ operation.payload)))

end AckOperation

/-! ## The stores -/

section Stores

variable (out : Span UInt8) (offset : ℕ)

theorem lengthByte_eq {length i : ℕ} (hlength : length < 2 ^ 64) (hi : i < 8) :
    ((UInt64.ofNat length >>> UInt64.ofNat (8 * i)) &&& 0xFF).toUInt8 =
      UInt8.ofNat (length / 256 ^ i % 256) := by
  apply UInt8.toNat_inj.mp
  have hshift : 8 * i % 2 ^ 64 % 64 = 8 * i := by omega
  have hpow : 2 ^ (8 * i) = 256 ^ i := by rw [pow_mul]; norm_num
  have hmask (value : ℕ) : value &&& 255 = value % 256 := Nat.and_two_pow_sub_one_eq_mod value 8
  simp only [UInt64.toNat_toUInt8, UInt64.toNat_and, UInt64.toNat_shiftRight, UInt64.toNat_ofNat',
    Nat.mod_eq_of_lt hlength, hshift, Nat.shiftRight_eq_div_pow, hpow, UInt8.toNat_ofNat']
  exact congrArg (· % 256) (hmask (length / 256 ^ i))

theorem putLength_eq {length : ℕ} (hlength : length < 2 ^ 64) (i count : ℕ)
    (hcount : i + count ≤ 8) :
    putLength out offset (UInt64.ofNat length) i count =
      putField out offset (leBytes count (length / 256 ^ i)) := by
  induction count generalizing out offset i with
  | zero => rfl
  | succ count ih =>
      have hquotient : length / 256 ^ i / 256 = length / 256 ^ (i + 1) := by
        rw [Nat.div_div_eq_div_mul, pow_succ]
      simp only [putLength, leBytes, putField, lengthByte_eq hlength (by omega : i < 8), hquotient]
      exact bind_congr fun stored => ih stored (offset + 1) (i + 1) (by omega)

end Stores

namespace AckOperation

variable {operation other : AckOperation}

theorem length_material (operation : AckOperation) :
    operation.material.length = operation.materialSize := by
  simp only [material, materialSize, List.length_cons, List.length_append, length_leBytes]
  omega

end AckOperation

/-! ## The registry -/

section Redelivery

variable {Token Fingerprint : Type} {state : Observed Token Fingerprint} {token : Token}
  {fingerprint : Fingerprint}

/-- A call that may take a token in: a claim, or a rejection that is kept. -/
def Takes (token : Token) (fingerprint : Fingerprint) :
    AckHistory.Operation Token Fingerprint → Prop
  | .claim _ other given _ | .claimIndependent _ other given
  | .claimOrReject _ other given _ _ | .recordRejected other given _ =>
      other = token ∧ given = fingerprint
  | _ => False

/-- What the registry knows a token by. -/
def Carries (registry : AckRegistry Token Fingerprint) (token : Token)
    (fingerprint : Fingerprint) : Prop :=
  ∀ entry, registry.entries token = some entry → entry.fingerprint = fingerprint

theorem carries_of_none {registry : AckRegistry Token Fingerprint}
    (habsent : registry.entries token = none) : Carries registry token fingerprint :=
  fun _ hentry => nomatch habsent.symm.trans hentry

variable [DecidableEq Token]

theorem Carries.update {registry : AckRegistry Token Fingerprint}
    (hcarries : Carries registry token fingerprint) (other : Token)
    (entry : Option (Entry Fingerprint))
    (hentry : other = token → ∀ made, entry = some made → made.fingerprint = fingerprint)
    (lanes : UInt64 → Option Token) :
    Carries { registry with
      entries := Function.update registry.entries other entry
      processingByLane := lanes } token fingerprint := by
  intro made hmade
  by_cases hother : token = other
  · subst hother
    simp only [Function.update_self] at hmade
    exact hentry rfl made hmade
  · simp only [Function.update_of_ne hother] at hmade
    exact hcarries made hmade

/-- An eviction forgets, and nothing else. -/
theorem Carries.retain {registry : AckRegistry Token Fingerprint}
    (hcarries : Carries registry token fingerprint) (other : Token) :
    Carries (retainCompletedLocked registry other) token fingerprint := by
  intro made hmade
  simp only [retainCompletedLocked] at hmade
  cases holdest : oldest registry.completionOrder with
  | none =>
      rw [holdest] at hmade
      exact hcarries made hmade
  | some evicted =>
      rw [holdest] at hmade
      by_cases hevicted : token = evicted
      · simp [hevicted] at hmade
      · simp only [Function.update_of_ne hevicted] at hmade
        exact hcarries made hmade

variable [DecidableEq Fingerprint]

/-- A token that is never forgotten on the way. -/
def KnownThroughout (token : Token) (state : Observed Token Fingerprint)
    (operations : List (AckHistory.Operation Token Fingerprint)) : Prop :=
  ∀ count, (runFrom state (operations.take count)).registry.entries token ≠ none

theorem KnownThroughout.head {operations : List (AckHistory.Operation Token Fingerprint)}
    (hknown : KnownThroughout token state operations) : state.registry.entries token ≠ none :=
  hknown 0

theorem KnownThroughout.tail {operation : AckHistory.Operation Token Fingerprint}
    {operations : List (AckHistory.Operation Token Fingerprint)}
    (hknown : KnownThroughout token state (operation :: operations)) :
    KnownThroughout token (apply state operation) operations :=
  fun count => hknown (count + 1)

theorem Carries.applyClaim {memory : Memory} {other : Token} {given : Fingerprint}
    {lane : Option UInt64} {busy : Option AckResultV1}
    (hcarries : Carries state.registry token fingerprint)
    (hgiven : state.registry.entries token = none → other = token → given = fingerprint) :
    Carries (AckHistory.applyClaim state memory other given lane busy).registry token fingerprint := by
  have hmade (result : Option AckResultV1) (habsent : state.registry.entries other = none) :
      other = token → ∀ made, some (⟨given, lane, result⟩ : Entry Fingerprint) = some made →
        made.fingerprint = fingerprint := by
    rintro rfl made hmade
    rw [← Option.some.inj hmade]
    exact hgiven habsent rfl
  rcases claimLocked_cases memory state.registry other given lane busy with
    ⟨-, outcome, -, -, hclaim⟩ | ⟨-, -, hclaim⟩ | ⟨habsent, result, -, hclaim⟩ | ⟨-, hclaim⟩ |
    ⟨habsent, -, hclaim⟩
  · simpa only [AckHistory.applyClaim, hclaim] using hcarries
  · simpa only [AckHistory.applyClaim, hclaim] using hcarries
  · simp only [AckHistory.applyClaim, hclaim]
    exact (hcarries.update other _ (hmade _ habsent) _).retain other
  · simpa only [AckHistory.applyClaim, hclaim] using hcarries
  · simp only [AckHistory.applyClaim, hclaim]
    exact hcarries.update other _ (hmade _ habsent) _

/-- A call changes the fingerprint of no token that it does not take in. -/
theorem Carries.apply (hcarries : Carries state.registry token fingerprint)
    (operation : AckHistory.Operation Token Fingerprint)
    (htakes : state.registry.entries token = none → ∀ given, Takes token given operation →
      given = fingerprint) :
    Carries (AckHistory.apply state operation).registry token fingerprint := by
  cases operation with
  | claim memory other given lane =>
      exact hcarries.applyClaim fun habsent hother => htakes habsent given ⟨hother, rfl⟩
  | claimIndependent memory other given =>
      exact hcarries.applyClaim fun habsent hother => htakes habsent given ⟨hother, rfl⟩
  | claimOrReject memory other given lane busy =>
      exact hcarries.applyClaim fun habsent hother => htakes habsent given ⟨hother, rfl⟩
  | complete other result =>
      simp only [AckHistory.apply, complete]
      cases hentry : state.registry.entries other with
      | none => exact hcarries
      | some entry =>
          simp only
          split_ifs
          · exact hcarries
          · refine (hcarries.update other _ ?_ _).retain other
            rintro rfl made hmade
            rw [← Option.some.inj hmade]
            exact hcarries entry hentry
  | recordRejected other given result =>
      simp only [AckHistory.apply, recordRejected]
      split_ifs with hpresent
      · exact hcarries
      · refine (hcarries.update other _ ?_ _).retain other
        rintro rfl made hmade
        rw [← Option.some.inj hmade]
        exact htakes (by simpa using hpresent) given ⟨rfl, rfl⟩
  | find other => exact hcarries
  | clear => exact carries_of_none rfl

theorem Carries.run (hcarries : Carries state.registry token fingerprint)
    {operations : List (AckHistory.Operation Token Fingerprint)}
    (hknown : KnownThroughout token state operations) :
    Carries (runFrom state operations).registry token fingerprint := by
  induction operations generalizing state with
  | nil => exact hcarries
  | cons operation operations ih =>
      have hnext : Carries (AckHistory.apply state operation).registry token fingerprint :=
        hcarries.apply operation fun habsent => absurd habsent hknown.head
      exact ih hnext hknown.tail

end Redelivery

end Sitos.AckFingerprint

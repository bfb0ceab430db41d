import Mathlib

/-!
# SHA-256 as the standard has it

The hash function of FIPS 180-4 on messages of whole bytes: the message is padded to a multiple of
512 bits and parsed into blocks, every block is expanded into a schedule and compressed into the
hash value, and the last hash value is the digest.
-/

namespace Sitos.Fips180

abbrev Word := BitVec 32

/-- A hash value, and the eight working variables of a round. -/
@[ext]
structure HashValue where
  a : Word
  b : Word
  c : Word
  d : Word
  e : Word
  f : Word
  g : Word
  h : Word
  deriving DecidableEq

/-! ## Functions and constants -/

def ch (x y z : Word) : Word := (x &&& y) ^^^ (~~~x &&& z)

def maj (x y z : Word) : Word := (x &&& y) ^^^ (x &&& z) ^^^ (y &&& z)

def bigSigma0 (x : Word) : Word := x.rotateRight 2 ^^^ x.rotateRight 13 ^^^ x.rotateRight 22

def bigSigma1 (x : Word) : Word := x.rotateRight 6 ^^^ x.rotateRight 11 ^^^ x.rotateRight 25

def sigma0 (x : Word) : Word := x.rotateRight 7 ^^^ x.rotateRight 18 ^^^ (x >>> 3)

def sigma1 (x : Word) : Word := x.rotateRight 17 ^^^ x.rotateRight 19 ^^^ (x >>> 10)

/-- The largest root that a value has, from a root that is too small by less than `2 ^ bits`. -/
def integerRoot (power value : ℕ) : ℕ → ℕ → ℕ
  | 0, root => root
  | bits + 1, root =>
      if (root + 2 ^ bits) ^ power ≤ value then integerRoot power value bits (root + 2 ^ bits)
      else integerRoot power value bits root

theorem integerRoot_spec {power value bits root : ℕ} (hlow : root ^ power ≤ value)
    (hhigh : value < (root + 2 ^ bits) ^ power) :
    integerRoot power value bits root ^ power ≤ value ∧
      value < (integerRoot power value bits root + 1) ^ power := by
  induction bits generalizing root with
  | zero => exact ⟨hlow, hhigh⟩
  | succ bits ih =>
      rw [integerRoot]
      split_ifs with hle
      · refine ih hle ?_
        rw [Nat.add_assoc, ← Nat.two_mul, ← pow_succ']
        exact hhigh
      · exact ih hlow (not_le.mp hle)

/-- The first sixty-four primes. -/
def primes : List ℕ := (List.range 312).filter fun n => 2 ≤ n ∧ ∀ d < n, d < 2 ∨ ¬d ∣ n

/-- The first 32 bits of the fractional part of a root of a small number. -/
def fractionalBits (power number : ℕ) : Word :=
  BitVec.ofNat 32 (integerRoot power (number * 2 ^ (32 * power)) 41 0)

/-- From the cube roots of the first sixty-four primes. -/
def roundConstants : List Word := primes.map (fractionalBits 3)

/-- From the square roots of the first eight primes. -/
def initialHash : HashValue :=
  ⟨fractionalBits 2 2, fractionalBits 2 3, fractionalBits 2 5, fractionalBits 2 7,
    fractionalBits 2 11, fractionalBits 2 13, fractionalBits 2 17, fractionalBits 2 19⟩

/-! ## Padding -/

/-- How many zero bits follow the one bit. -/
def zeroBits (length : ℕ) : ℕ := (448 + 512 - (length + 1) % 512) % 512

theorem isLeast_zeroBits (length : ℕ) :
    IsLeast { count | (length + 1 + count) % 512 = 448 } (zeroBits length) := by
  refine ⟨?_, fun count hcount => ?_⟩
  · change (length + 1 + zeroBits length) % 512 = 448
    rw [zeroBits]
    omega
  · change (length + 1 + count) % 512 = 448 at hcount
    rw [zeroBits]
    omega

/-- The big-endian bytes of a number. -/
def bigEndian (width value : ℕ) : List UInt8 :=
  (List.range width).map fun i => UInt8.ofNat (value / 256 ^ (width - 1 - i))

@[simp]
theorem length_bigEndian (width value : ℕ) : (bigEndian width value).length = width := by
  simp [bigEndian]

/-- Of a message of whole bytes, the one bit and the first seven zero bits make a byte. -/
def padding (length : ℕ) : List UInt8 :=
  0x80 :: (List.replicate (zeroBits (8 * length) / 8) 0 ++ bigEndian 8 (8 * length))

def padded (message : List UInt8) : List UInt8 := message ++ padding message.length

theorem zeroBits_bytes (length : ℕ) : zeroBits (8 * length) = 8 * ((119 - length % 64) % 64) + 7 := by
  rw [zeroBits]
  omega

theorem length_padding (length : ℕ) :
    (padding length).length = (119 - length % 64) % 64 + 9 := by
  have hzeros : (8 * ((119 - length % 64) % 64) + 7) / 8 = (119 - length % 64) % 64 := by omega
  simp [padding, zeroBits_bytes, hzeros]

/-! ## Hash computation -/

/-- The word at a place, its first byte the most significant one. -/
def wordAt (bytes : List UInt8) (index : ℕ) : Word :=
  (bytes.getD index 0).toBitVec ++ (bytes.getD (index + 1) 0).toBitVec ++
    (bytes.getD (index + 2) 0).toBitVec ++ (bytes.getD (index + 3) 0).toBitVec

/-- The words of a block of sixteen. -/
def blockAt (bytes : List UInt8) (block t : ℕ) : Word := wordAt bytes (64 * block + 4 * t)

def schedule (block : ℕ → Word) (t : ℕ) : Word :=
  if t < 16 then block t
  else
    sigma1 (schedule block (t - 2)) + schedule block (t - 7) + sigma0 (schedule block (t - 15)) +
      schedule block (t - 16)

def oneRound (working : HashValue) (constant word : Word) : HashValue :=
  let t1 := working.h + bigSigma1 working.e + ch working.e working.f working.g + constant + word
  let t2 := bigSigma0 working.a + maj working.a working.b working.c
  { a := t1 + t2, b := working.a, c := working.b, d := working.c, e := working.d + t1,
    f := working.e, g := working.f, h := working.g }

def rounds (block : ℕ → Word) (hash : HashValue) (count : ℕ) : HashValue :=
  (List.range count).foldl
    (fun working t => oneRound working (roundConstants.getD t 0) (schedule block t)) hash

def HashValue.add (first second : HashValue) : HashValue :=
  { a := first.a + second.a, b := first.b + second.b, c := first.c + second.c,
    d := first.d + second.d, e := first.e + second.e, f := first.f + second.f,
    g := first.g + second.g, h := first.h + second.h }

def compress (hash : HashValue) (block : ℕ → Word) : HashValue := (rounds block hash 64).add hash

/-- The hash value after some blocks. -/
def hashBlocks (hash : HashValue) (bytes : List UInt8) (count : ℕ) : HashValue :=
  (List.range count).foldl (fun hash block => compress hash (blockAt bytes block)) hash

def Word.bytes (word : Word) : List UInt8 :=
  [UInt8.ofNat (word.toNat / 256 ^ 3), UInt8.ofNat (word.toNat / 256 ^ 2),
    UInt8.ofNat (word.toNat / 256), UInt8.ofNat word.toNat]

def HashValue.words (hash : HashValue) : List Word :=
  [hash.a, hash.b, hash.c, hash.d, hash.e, hash.f, hash.g, hash.h]

def sha256 (message : List UInt8) : List UInt8 :=
  (hashBlocks initialHash (padded message) ((padded message).length / 64)).words.flatMap Word.bytes

/-! ## Blocks one after the other -/

section Blocks

variable {hash : HashValue} {bytes : List UInt8} {count : ℕ}

@[simp]
theorem hashBlocks_zero : hashBlocks hash bytes 0 = hash := rfl

theorem hashBlocks_succ : hashBlocks hash bytes (count + 1) =
    compress (hashBlocks hash bytes count) (blockAt bytes count) := by
  rw [hashBlocks, List.range_succ, List.foldl_append]
  rfl

theorem wordAt_drop (offset index : ℕ) :
    wordAt (bytes.drop offset) index = wordAt bytes (offset + index) := by
  simp only [wordAt, List.getD_eq_getElem?_getD, List.getElem?_drop, Nat.add_assoc]

/-- What follows a message does not change its words. -/
theorem wordAt_append {index : ℕ} (more : List UInt8) (hindex : index + 3 < bytes.length) :
    wordAt (bytes ++ more) index = wordAt bytes index := by
  have hleft : ∀ place, place < bytes.length → (bytes ++ more).getD place 0 = bytes.getD place 0 :=
    fun place hplace => by
      rw [List.getD_eq_getElem?_getD, List.getD_eq_getElem?_getD, List.getElem?_append_left hplace]
  rw [wordAt, wordAt, hleft index (by omega), hleft (index + 1) (by omega),
    hleft (index + 2) (by omega), hleft (index + 3) hindex]

/-- The blocks of a message can be hashed in two parts. -/
theorem hashBlocks_add (first second : ℕ) : hashBlocks hash bytes (first + second) =
    hashBlocks (hashBlocks hash bytes first) (bytes.drop (64 * first)) second := by
  induction second with
  | zero => rw [Nat.add_zero, hashBlocks_zero]
  | succ second ih =>
      have hblock : blockAt bytes (first + second) = blockAt (bytes.drop (64 * first)) second := by
        funext t
        rw [blockAt, blockAt, wordAt_drop]
        congr 1
        ring
      rw [← Nat.add_assoc, hashBlocks_succ, ih, hashBlocks_succ, hblock]

theorem schedule_of_lt (block : ℕ → Word) {t : ℕ} (ht : t < 16) : schedule block t = block t := by
  rw [schedule, if_pos ht]

theorem schedule_of_le (block : ℕ → Word) {t : ℕ} (ht : 16 ≤ t) : schedule block t =
    sigma1 (schedule block (t - 2)) + schedule block (t - 7) + sigma0 (schedule block (t - 15)) +
      schedule block (t - 16) := by
  rw [schedule, if_neg (not_lt.mpr ht)]

/-- Only the first words of a block count. -/
theorem schedule_congr {first second : ℕ → Word} (hwords : ∀ t < 16, first t = second t) (t : ℕ) :
    schedule first t = schedule second t := by
  induction t using Nat.strong_induction_on with
  | h t ih =>
      rcases lt_or_ge t 16 with hsmall | hlarge
      · rw [schedule_of_lt first hsmall, schedule_of_lt second hsmall, hwords t hsmall]
      · rw [schedule_of_le first hlarge, schedule_of_le second hlarge, ih (t - 2) (by omega),
          ih (t - 7) (by omega), ih (t - 15) (by omega), ih (t - 16) (by omega)]

theorem compress_congr {first second : ℕ → Word} (hwords : ∀ t < 16, first t = second t) :
    compress hash first = compress hash second := by
  simp only [compress, rounds, schedule_congr hwords]

theorem hashBlocks_append (more : List UInt8) (hfits : 64 * count ≤ bytes.length) :
    hashBlocks hash (bytes ++ more) count = hashBlocks hash bytes count := by
  induction count with
  | zero => rw [hashBlocks_zero, hashBlocks_zero]
  | succ count ih =>
      rw [hashBlocks_succ, hashBlocks_succ, ih (by omega)]
      apply compress_congr
      intro t ht
      exact wordAt_append more (by omega)

end Blocks

end Sitos.Fips180

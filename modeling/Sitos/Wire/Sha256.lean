import Sitos.Core.Bytes
import Sitos.Core.Cursor
import Sitos.Core.Fips180

/-!
# The digest of a fingerprint

The full blocks of a message are compressed where they lie; what remains of it goes to a tail of
one or two blocks together with the padding.  Every access to the message and to the tail is
checked.  The digest is the one of the standard.
-/

namespace Sitos.Sha256

open Sitos.Bytes
open Sitos.Cursor
open Sitos.Fips180

def kRoundConstants : List Word :=
  [0x428a2f98, 0x71374491, 0xb5c0fbcf, 0xe9b5dba5, 0x3956c25b, 0x59f111f1, 0x923f82a4, 0xab1c5ed5,
    0xd807aa98, 0x12835b01, 0x243185be, 0x550c7dc3, 0x72be5d74, 0x80deb1fe, 0x9bdc06a7, 0xc19bf174,
    0xe49b69c1, 0xefbe4786, 0x0fc19dc6, 0x240ca1cc, 0x2de92c6f, 0x4a7484aa, 0x5cb0a9dc, 0x76f988da,
    0x983e5152, 0xa831c66d, 0xb00327c8, 0xbf597fc7, 0xc6e00bf3, 0xd5a79147, 0x06ca6351, 0x14292967,
    0x27b70a85, 0x2e1b2138, 0x4d2c6dfc, 0x53380d13, 0x650a7354, 0x766a0abb, 0x81c2c92e, 0x92722c85,
    0xa2bfe8a1, 0xa81a664b, 0xc24b8b70, 0xc76c51a3, 0xd192e819, 0xd6990624, 0xf40e3585, 0x106aa070,
    0x19a4c116, 0x1e376c08, 0x2748774c, 0x34b0bcb5, 0x391c0cb3, 0x4ed8aa4a, 0x5b9cca4f, 0x682e6ff3,
    0x748f82ee, 0x78a5636f, 0x84c87814, 0x8cc70208, 0x90befffa, 0xa4506ceb, 0xbef9a3f7, 0xc67178f2]

def rotateRight (value : Word) (bits : ℕ) : Word := (value >>> bits) ||| (value <<< (32 - bits))

/-- The eight words `h`. -/
abbrev Sha256State := HashValue

def Sha256State.initial : Sha256State :=
  ⟨0x6a09e667, 0xbb67ae85, 0x3c6ef372, 0xa54ff53a, 0x510e527f, 0x9b05688c, 0x1f83d9ab, 0x5be0cd19⟩

def widen (byte : UInt8) : Word := byte.toBitVec.setWidth 32

def loadWord (memory : Span UInt8) (block i : ℕ) : Checked Word := do
  let b0 ← memory.at (block + 4 * i)
  let b1 ← memory.at (block + (4 * i + 1))
  let b2 ← memory.at (block + (4 * i + 2))
  let b3 ← memory.at (block + (4 * i + 3))
  pure ((widen b0 <<< 24) ||| (widen b1 <<< 16) ||| (widen b2 <<< 8) ||| widen b3)

/-- The first sixteen words of the array `w`. -/
def loadWords (memory : Span UInt8) (block : ℕ) : ℕ → Checked (ℕ → Word)
  | 0 => pure fun _ => 0
  | i + 1 => do
      let w ← loadWords memory block i
      let word ← loadWord memory block i
      pure (Function.update w i word)

def expandStep (w : ℕ → Word) (i : ℕ) : ℕ → Word :=
  let s0 := rotateRight (w (i - 15)) 7 ^^^ rotateRight (w (i - 15)) 18 ^^^ (w (i - 15) >>> 3)
  let s1 := rotateRight (w (i - 2)) 17 ^^^ rotateRight (w (i - 2)) 19 ^^^ (w (i - 2) >>> 10)
  Function.update w i (w (i - 16) + s0 + w (i - 7) + s1)

def roundStep (w : ℕ → Word) (v : HashValue) (i : ℕ) : HashValue :=
  let s1 := rotateRight v.e 6 ^^^ rotateRight v.e 11 ^^^ rotateRight v.e 25
  let ch := (v.e &&& v.f) ^^^ (~~~v.e &&& v.g)
  let t1 := v.h + s1 + ch + kRoundConstants.getD i 0 + w i
  let s0 := rotateRight v.a 2 ^^^ rotateRight v.a 13 ^^^ rotateRight v.a 22
  let maj := (v.a &&& v.b) ^^^ (v.a &&& v.c) ^^^ (v.b &&& v.c)
  let t2 := s0 + maj
  { a := t1 + t2, b := v.a, c := v.b, d := v.c, e := v.d + t1, f := v.e, g := v.f, h := v.g }

/-- `block` is where the block begins in the memory that it points into. -/
def processBlock (state : Sha256State) (memory : Span UInt8) (block : ℕ) : Checked Sha256State := do
  let w ← loadWords memory block 16
  let w := (List.range' 16 48).foldl expandStep w
  let v := (List.range 64).foldl (roundStep w) state
  pure
    { a := state.a + v.a, b := state.b + v.b, c := state.c + v.c, d := state.d + v.d,
      e := state.e + v.e, f := state.f + v.f, g := state.g + v.g, h := state.h + v.h }

/-- The loop over the full blocks, with a bound on its turns that is never reached. -/
def processBlocks (data : Span UInt8) : ℕ → ℕ → Sha256State → Checked (Sha256State × ℕ)
  | 0, _, _ => fault .outside
  | turns + 1, offset, state => do
      let stop ← advance offset 64
      if stop ≤ data.size then
        let state ← processBlock state data offset
        processBlocks data turns stop state
      else pure (state, offset)

def emptyTail : Span UInt8 := ⟨List.replicate 128 0, by rw [List.length_replicate]; norm_num⟩

/-- The big-endian length at the end of the last block, its lowest byte first. -/
def putLength (tail : Span UInt8) (tailBlocks bitLength : ℕ) : ℕ → Checked (Span UInt8)
  | 0 => pure tail
  | i + 1 => do
      let tail ← putLength tail tailBlocks bitLength i
      tail.write (tailBlocks * 64 - 1 - i) (UInt8.ofNat (bitLength >>> (8 * i) % 256))

def digestBytes (word : Word) : ByteString :=
  [UInt8.ofNat ((word >>> 24) &&& 0xFF).toNat, UInt8.ofNat ((word >>> 16) &&& 0xFF).toNat,
    UInt8.ofNat ((word >>> 8) &&& 0xFF).toNat, UInt8.ofNat (word &&& 0xFF).toNat]

/-- What remains of the message is copied to the tail. -/
def fillTail (data : Span UInt8) (offset : ℕ) : Checked (Span UInt8) :=
  let remaining := data.size - offset
  if remaining > 0 then do
    let bytes ← data.subspan offset remaining
    emptyTail.overwrite 0 bytes
  else pure emptyTail

def processTail (state : Sha256State) (tail : Span UInt8) (tailBlocks : ℕ) :
    Checked Sha256State := do
  let state ← processBlock state tail 0
  if tailBlocks = 2 then processBlock state tail 64 else pure state

def sha256 (data : Span UInt8) : Checked ByteString := do
  let (state, offset) ← processBlocks data (data.size / 64 + 1) 0 .initial
  let remaining := data.size - offset
  let tail ← fillTail data offset
  let tail ← tail.write remaining 0x80
  let tailBlocks := if remaining < 56 then 1 else 2
  let bitLength := data.size * 8 % 2 ^ 64
  let tail ← putLength tail tailBlocks bitLength 8
  let state ← processTail state tail tailBlocks
  pure (state.words.flatMap digestBytes)

/-! ## One block -/

section Block

variable {memory : Span UInt8} {block : ℕ}

theorem kRoundConstants_eq : kRoundConstants = roundConstants := by decide +kernel

theorem initial_eq : Sha256State.initial = initialHash := by decide +kernel

theorem rotateRight_eq {bits : ℕ} (value : Word) (hbits : bits < 32) :
    rotateRight value bits = value.rotateRight bits := by
  rw [BitVec.rotateRight_eq_rotateRightAux_of_lt hbits]
  rfl

/-- Shifting the bytes of a word to their places is writing them one after the other. -/
theorem widen_or (b0 b1 b2 b3 : UInt8) :
    (widen b0 <<< 24) ||| (widen b1 <<< 16) ||| (widen b2 <<< 8) ||| widen b3 =
      b0.toBitVec ++ b1.toBitVec ++ b2.toBitVec ++ b3.toBitVec := by
  ext i hi
  simp only [widen, BitVec.getElem_or, BitVec.getElem_shiftLeft, BitVec.getElem_setWidth]
  grind

theorem loadWord_eq {i : ℕ} (hfits : block + 4 * i + 3 < memory.size) :
    loadWord memory block i = pure (wordAt memory.data (block + 4 * i)) := by
  have hread : ∀ offset, offset < memory.data.length →
      memory.at offset = pure (memory.data.getD offset 0) := by
    intro offset hoffset
    apply Span.at_eq
    rw [List.getElem?_eq_getElem hoffset, List.getD_eq_getElem _ _ hoffset]
  rw [Span.size] at hfits
  rw [loadWord, hread _ (by omega), pure_bind, hread _ (by omega), pure_bind, hread _ (by omega),
    pure_bind, hread _ (by omega), pure_bind, widen_or]
  rfl

theorem loadWords_eq {count : ℕ} (hfits : block + 4 * count ≤ memory.size) :
    ∃ w, loadWords memory block count = pure w ∧
      ∀ t < count, w t = wordAt memory.data (block + 4 * t) := by
  induction count with
  | zero => exact ⟨_, rfl, nofun⟩
  | succ count ih =>
      obtain ⟨w, hw, hwords⟩ := ih (by omega)
      refine ⟨Function.update w count (wordAt memory.data (block + 4 * count)), ?_, fun t ht => ?_⟩
      · rw [loadWords, hw, pure_bind, loadWord_eq (by omega), pure_bind]
      · by_cases hlast : t = count
        · rw [hlast, Function.update_self]
        · rw [Function.update_of_ne hlast, hwords t (by omega)]

/-- The array holds the schedule as far as the loop has come. -/
theorem expand_eq {words w : ℕ → Word} (hwords : ∀ t < 16, w t = words t) (count : ℕ) :
    ∀ t < 16 + count, (List.range' 16 count).foldl expandStep w t = schedule words t := by
  induction count with
  | zero =>
      intro t ht
      rw [schedule_of_lt words (by omega)]
      exact hwords t (by omega)
  | succ count ih =>
      intro t ht
      rw [List.range'_concat, List.foldl_append, List.foldl_cons, List.foldl_nil, Nat.one_mul,
        expandStep]
      by_cases hlast : t = 16 + count
      · have hstep := schedule_of_le words (Nat.le_add_right 16 count)
        rw [hlast, Function.update_self, ih (16 + count - 16) (by omega),
          ih (16 + count - 15) (by omega), ih (16 + count - 7) (by omega),
          ih (16 + count - 2) (by omega), hstep, sigma0, sigma1]
        simp only [rotateRight_eq _ (show 7 < 32 by decide), rotateRight_eq _ (show 18 < 32 by decide),
          rotateRight_eq _ (show 17 < 32 by decide), rotateRight_eq _ (show 19 < 32 by decide)]
        ac_rfl
      · rw [Function.update_of_ne hlast]
        exact ih t (by omega)

theorem roundStep_eq (w : ℕ → Word) (v : HashValue) (i : ℕ) :
    roundStep w v i = oneRound v (roundConstants.getD i 0) (w i) := by
  simp only [roundStep, oneRound, bigSigma0, bigSigma1, ch, maj, kRoundConstants_eq,
    rotateRight_eq _ (show 2 < 32 by decide), rotateRight_eq _ (show 13 < 32 by decide),
    rotateRight_eq _ (show 22 < 32 by decide), rotateRight_eq _ (show 6 < 32 by decide),
    rotateRight_eq _ (show 11 < 32 by decide), rotateRight_eq _ (show 25 < 32 by decide)]

theorem foldl_roundStep {words w : ℕ → Word} (count : ℕ)
    (hwords : ∀ t < count, w t = schedule words t) (state : HashValue) :
    (List.range count).foldl (roundStep w) state = rounds words state count := by
  induction count with
  | zero => rw [rounds, List.range_zero, List.foldl_nil, List.foldl_nil]
  | succ count ih =>
      rw [rounds, List.range_succ, List.foldl_append, List.foldl_append,
        ih fun t ht => hwords t (by omega)]
      simp only [List.foldl_cons, List.foldl_nil, roundStep_eq, hwords count (by omega)]
      rfl

/-- A block that lies in the memory is compressed. -/
theorem processBlock_eq (state : Sha256State) (hfits : block + 64 ≤ memory.size) :
    processBlock state memory block =
      pure (compress state fun t => wordAt memory.data (block + 4 * t)) := by
  obtain ⟨w, hw, hwords⟩ := loadWords_eq (by omega : block + 4 * 16 ≤ memory.size)
  have hschedule : ∀ t < 64, (List.range' 16 48).foldl expandStep w t =
      schedule (fun t => wordAt memory.data (block + 4 * t)) t :=
    fun t ht => expand_eq hwords 48 t (by omega)
  have hrounds := foldl_roundStep 64 hschedule state
  rw [processBlock, hw, pure_bind]
  simp only [hrounds, compress, HashValue.add, BitVec.add_comm]

end Block

/-! ## The blocks of a message -/

theorem processBlocks_eq {data : Span UInt8} {turns done : ℕ} (hash : Sha256State)
    (hdone : 64 * done ≤ data.size) (hturns : data.size / 64 < done + turns) :
    processBlocks data turns (64 * done) (hashBlocks hash data.data done) =
      pure (hashBlocks hash data.data (data.size / 64), 64 * (data.size / 64)) := by
  induction turns generalizing done with
  | zero => omega
  | succ turns ih =>
      have hsize := data.length_lt
      have hadvance : advance (64 * done) 64 = pure (64 * done + 64) :=
        advance_eq (by rw [Span.size] at hdone; omega)
      rw [processBlocks, hadvance, pure_bind]
      split_ifs with hmore
      · have hrest := ih (show 64 * (done + 1) ≤ data.size by omega) (by omega)
        rw [processBlock_eq _ hmore, pure_bind]
        rw [hashBlocks_succ] at hrest
        exact hrest
      · have hlast : done = data.size / 64 := by omega
        rw [hlast]

/-! ## The tail -/

section Tail

variable {tail : Span UInt8} {tailBlocks bitLength : ℕ}

theorem putLength_eq {count : ℕ} (hcount : count ≤ 8) (hblocks : 1 ≤ tailBlocks)
    (hfits : tailBlocks * 64 ≤ tail.data.length) :
    ∃ tail', putLength tail tailBlocks bitLength count = pure tail' ∧
      tail'.data.length = tail.data.length ∧
      ∀ j, tail'.data[j]? =
        if tailBlocks * 64 - count ≤ j ∧ j < tailBlocks * 64 then
          some (UInt8.ofNat (bitLength >>> (8 * (tailBlocks * 64 - 1 - j)) % 256))
        else tail.data[j]? := by
  induction count with
  | zero =>
      refine ⟨tail, rfl, rfl, fun j => ?_⟩
      rw [if_neg (by omega)]
  | succ count ih =>
      obtain ⟨middle, hmiddle, hlength, hbytes⟩ := ih (by omega)
      have hplace : tailBlocks * 64 - 1 - count < middle.data.length := by omega
      obtain ⟨tail', htail, hdata⟩ :=
        Span.write_eq (UInt8.ofNat (bitLength >>> (8 * count) % 256)) hplace
      refine ⟨tail', ?_, ?_, fun j => ?_⟩
      · rw [putLength, hmiddle, pure_bind, htail]
      · rw [hdata, List.length_set, hlength]
      · rw [hdata, List.getElem?_set]
        by_cases hhere : tailBlocks * 64 - 1 - count = j
        · rw [if_pos hhere, if_pos (by omega), if_pos (by omega),
            show tailBlocks * 64 - 1 - j = count by omega]
        · rw [if_neg hhere, hbytes]
          congr 1
          rw [eq_iff_iff]
          omega

end Tail

theorem digestBytes_eq (word : Word) : digestBytes word = Word.bytes word := by
  have hbyte : ∀ value : ℕ, UInt8.ofNat (value % 256) = UInt8.ofNat value := by
    intro value
    apply UInt8.toNat_inj.mp
    simp
  have hmask : ∀ value : Word, (value &&& 0xFF).toNat = value.toNat % 256 := by
    intro value
    rw [BitVec.toNat_and]
    exact Nat.and_two_pow_sub_one_eq_mod value.toNat 8
  simp only [digestBytes, Word.bytes, hmask, hbyte, BitVec.toNat_ushiftRight,
    Nat.shiftRight_eq_div_pow]
  norm_num

/-- Eight bytes of the bit length, the most significant one first. -/
theorem getElem?_bigEndian {value i : ℕ} (hi : i < 8) :
    (bigEndian 8 value)[i]? = some (UInt8.ofNat (value >>> (8 * (7 - i)) % 256)) := by
  have hbyte : ∀ value : ℕ, UInt8.ofNat (value % 256) = UInt8.ofNat value := by
    intro value
    apply UInt8.toNat_inj.mp
    simp
  rw [bigEndian, List.getElem?_map, List.getElem?_range hi, Option.map_some, hbyte,
    Nat.shiftRight_eq_div_pow, pow_mul]
  norm_num

/-- How many blocks the tail has. -/
def tailBlocksOf (remaining : ℕ) : ℕ := if remaining < 56 then 1 else 2

/-- The rest of a message and its padding fill the blocks of the tail. -/
theorem length_tail (size : ℕ) :
    size % 64 + (padding size).length = tailBlocksOf (size % 64) * 64 := by
  rw [length_padding, tailBlocksOf]
  split_ifs <;> omega

section Message

variable {data : Span UInt8}

/-- The rest of the message and the marker. -/
theorem startTail_eq {rest : ByteString} (hrest : rest.length < 64) :
    ∃ tail, (emptyTail.overwrite 0 rest >>= fun tail => tail.write rest.length 0x80) = pure tail ∧
      tail.data = rest ++ 0x80 :: List.replicate (127 - rest.length) 0 := by
  have hempty : emptyTail.data = List.replicate 128 0 := rfl
  have hfits : 0 + rest.length ≤ emptyTail.data.length := by
    rw [hempty, List.length_replicate]
    omega
  obtain ⟨copied, hcopied, hdata⟩ := Span.overwrite_eq hfits
  rw [hempty, List.take_zero, List.nil_append, Nat.zero_add, List.drop_replicate] at hdata
  have hplace : rest.length < copied.data.length := by
    rw [hdata, List.length_append, List.length_replicate]
    omega
  obtain ⟨tail, htail, hset⟩ := Span.write_eq (0x80 : UInt8) hplace
  refine ⟨tail, by rw [hcopied, pure_bind, htail], ?_⟩
  rw [hset, hdata, List.set_append_right _ _ le_rfl, Nat.sub_self,
    show 128 - rest.length = 127 - rest.length + 1 by omega, List.replicate_succ,
    List.set_cons_zero]

/-- With the length in place the tail is the rest of the message and its padding, and zeros. -/
theorem tail_eq {rest : ByteString} {size : ℕ} (hrest : rest.length = size % 64)
    (hsize : 8 * size < 2 ^ 64) {tail : Span UInt8}
    (htail : tail.data = rest ++ 0x80 :: List.replicate (127 - rest.length) 0) :
    ∃ tail', putLength tail (tailBlocksOf rest.length) (size * 8 % 2 ^ 64) 8 = pure tail' ∧
      tail'.data = (rest ++ padding size) ++
        List.replicate (128 - tailBlocksOf rest.length * 64) 0 := by
  have hfill := length_tail size
  have hlength := length_padding size
  rw [← hrest] at hfill hlength
  have hblocks : 1 ≤ tailBlocksOf rest.length ∧ tailBlocksOf rest.length ≤ 2 := by
    rw [tailBlocksOf]
    split_ifs <;> omega
  have htotal : tail.data.length = 128 := by
    rw [htail]
    simp
    omega
  have hfits : tailBlocksOf rest.length * 64 ≤ tail.data.length := by omega
  obtain ⟨tail', hput, -, hbytes⟩ :
      ∃ tail', putLength tail (tailBlocksOf rest.length) (size * 8 % 2 ^ 64) 8 = pure tail' ∧ _ :=
    putLength_eq le_rfl hblocks.1 hfits
  refine ⟨tail', hput, List.ext_getElem? fun j => ?_⟩
  have hmod : size * 8 % 2 ^ 64 = 8 * size := by omega
  rw [hbytes, hmod, htail]
  rcases lt_or_ge j rest.length with hmessage | hpadding
  · rw [if_neg (by omega), List.append_assoc, List.getElem?_append_left hmessage,
      List.getElem?_append_left hmessage]
  obtain ⟨k, rfl⟩ := Nat.exists_eq_add_of_le hpadding
  rw [List.append_assoc, List.getElem?_append_right hpadding, List.getElem?_append_right hpadding,
    Nat.add_sub_cancel_left, padding, zeroBits_bytes, ← hrest,
    show (8 * ((119 - rest.length) % 64) + 7) / 8 = (119 - rest.length) % 64 by omega]
  generalize (119 - rest.length) % 64 = zeros at hlength ⊢
  rcases Nat.eq_zero_or_pos k with rfl | hpositive
  · rw [if_neg (by omega)]
    rfl
  obtain ⟨k, rfl⟩ : ∃ before, k = before + 1 := ⟨k - 1, by omega⟩
  rw [List.cons_append, List.getElem?_cons_succ, List.getElem?_cons_succ, List.append_assoc,
    List.getElem?_replicate]
  rcases lt_or_ge k zeros with hzero | hafter
  · rw [if_neg (by omega), if_pos (by omega), List.getElem?_append_left (by simpa using hzero),
      List.getElem?_replicate, if_pos hzero]
  obtain ⟨i, rfl⟩ := Nat.exists_eq_add_of_le hafter
  rw [List.getElem?_append_right (by simp), List.length_replicate, Nat.add_sub_cancel_left]
  rcases lt_or_ge i 8 with hword | hbehind
  · rw [if_pos (by omega), List.getElem?_append_left (by simpa using hword),
      getElem?_bigEndian hword]
    congr 5
    omega
  · rw [if_neg (by omega), List.getElem?_append_right (by simpa using hbehind), length_bigEndian,
      List.getElem?_replicate]
    congr 1
    rw [eq_iff_iff]
    omega

/-- One or two blocks of the tail, as the padded message ends in it. -/
theorem processTail_eq {ending : ByteString} {memory : Span UInt8} {blocks zeros : ℕ}
    (hblocks : blocks = 1 ∨ blocks = 2) (hending : ending.length = blocks * 64)
    (hmemory : memory.data = ending ++ List.replicate zeros 0) (hash : Sha256State) :
    processTail hash memory blocks = pure (hashBlocks hash ending blocks) := by
  have hsize : blocks * 64 ≤ memory.size := by
    rw [Span.size, hmemory, List.length_append]
    omega
  have hsame : hashBlocks hash ending blocks = hashBlocks hash memory.data blocks := by
    rw [hmemory, hashBlocks_append _ (by omega)]
  have hfirst : (fun t => wordAt memory.data (0 + 4 * t)) = blockAt memory.data 0 := rfl
  have hsecond : (fun t => wordAt memory.data (64 + 4 * t)) = blockAt memory.data 1 := rfl
  rw [hsame, processTail, processBlock_eq hash (by omega), pure_bind, hfirst]
  rcases hblocks with rfl | rfl
  · rw [if_neg (by decide), hashBlocks_succ, hashBlocks_zero]
  · rw [if_pos rfl, processBlock_eq _ (by omega), hsecond, hashBlocks_succ, hashBlocks_succ,
      hashBlocks_zero]

theorem fillTail_eq (offset : ℕ) (hoffset : offset ≤ data.size) :
    fillTail data offset = emptyTail.overwrite 0 (data.data.drop offset) := by
  have hwhole : (data.data.drop offset).take (data.size - offset) = data.data.drop offset :=
    List.take_of_length_le (by rw [List.length_drop]; rfl)
  simp only [fillTail]
  split_ifs with hrest
  · rw [Span.subspan_eq hoffset le_rfl, pure_bind, hwhole]
  · have hnil : data.data.drop offset = [] := by
      rw [List.drop_eq_nil_iff]
      exact Nat.sub_eq_zero_iff_le.mp (Nat.eq_zero_of_not_pos hrest)
    rw [hnil]
    rfl

/-- No access leaves the message or the tail, and the digest is the standard's. -/
theorem sha256_eq (data : Span UInt8) (hlength : data.size < 2 ^ 61) :
    sha256 data = pure (Fips180.sha256 data.data) := by
  have hfull : processBlocks data (data.size / 64 + 1) (64 * 0) (hashBlocks initialHash data.data 0) =
      _ := processBlocks_eq initialHash (Nat.zero_le _) (by omega)
  rw [Nat.mul_zero, hashBlocks_zero] at hfull
  have hoffset : 64 * (data.size / 64) ≤ data.data.length := Nat.mul_div_le data.size 64
  have hremaining : data.size - 64 * (data.size / 64) = data.size % 64 := by omega
  have hrest : (data.data.drop (64 * (data.size / 64))).length = data.size % 64 := by
    rw [List.length_drop, ← hremaining]
    rfl
  have hshort : (data.data.drop (64 * (data.size / 64))).length < 64 := by omega
  obtain ⟨started, hstarted, hdata⟩ := startTail_eq hshort
  obtain ⟨tail, htail, hbytes⟩ := tail_eq hrest (by omega) hdata
  rw [hrest] at hstarted htail hbytes
  have hending : (data.data.drop (64 * (data.size / 64)) ++ padding data.size).length =
      tailBlocksOf (data.size % 64) * 64 := by
    rw [List.length_append, hrest, length_tail]
  have hblocks : tailBlocksOf (data.size % 64) = 1 ∨ tailBlocksOf (data.size % 64) = 2 := by
    rw [tailBlocksOf]
    split_ifs
    · exact .inl rfl
    · exact .inr rfl
  have hpadded : (padded data.data).length / 64 =
      data.size / 64 + tailBlocksOf (data.size % 64) := by
    have htotal := length_tail data.size
    rw [padded, List.length_append, show data.data.length = data.size from rfl]
    omega
  have hdigest : hashBlocks initialHash (padded data.data) ((padded data.data).length / 64) =
      hashBlocks (hashBlocks initialHash data.data (data.size / 64))
        (data.data.drop (64 * (data.size / 64)) ++ padding data.size)
        (tailBlocksOf (data.size % 64)) := by
    rw [hpadded, hashBlocks_add, padded, hashBlocks_append _ hoffset,
      List.drop_append_of_le_length hoffset]
    rfl
  have htailBlocks : (if data.size % 64 < 56 then 1 else 2) = tailBlocksOf (data.size % 64) := rfl
  simp only [sha256, initial_eq, hfull, pure_bind, fillTail_eq _ hoffset, hremaining, htailBlocks]
  rw [← bind_assoc, hstarted, pure_bind, htail, pure_bind,
    processTail_eq hblocks hending hbytes, pure_bind, Fips180.sha256, hdigest,
    show digestBytes = Word.bytes from funext digestBytes_eq]

end Message

theorem sha256_eq_abc : sha256 ⟨ascii "abc", by decide⟩ = pure (Fips180.sha256 (ascii "abc")) :=
  sha256_eq ⟨ascii "abc", by decide⟩ (by decide)

example : (sha256 ⟨ascii "abc", by decide⟩).run =
    .ok (some
      [0xba, 0x78, 0x16, 0xbf, 0x8f, 0x01, 0xcf, 0xea, 0x41, 0x41, 0x40, 0xde, 0x5d, 0xae, 0x22,
        0x23, 0xb0, 0x03, 0x61, 0xa3, 0x96, 0x17, 0x7a, 0x9c, 0xb4, 0x10, 0xff, 0x61, 0xf2, 0x00,
        0x15, 0xad]) := by
  decide +kernel

end Sitos.Sha256

import Sitos.Wire.AckResult

/-!
# Fence diagnostics

A Fence failure keeps a diagnostic that later travels as a result message.
`sanitizeFenceDiagnostic` turns an arbitrary byte string into one that strict
UTF-8 accepts and that fits the message limit; a byte it cannot keep becomes a
question mark.
-/

namespace Sitos.Diagnostic

open Sitos.Bytes
open Sitos.AckResult

def replacement : UInt8 := 0x3F

def isPrintable (byte : UInt8) : Bool :=
  (0x20 ≤ byte && byte ≤ 0x7E) || byte == 0x09 || byte == 0x0A || byte == 0x0D

/-- The multi-byte sequence that starts with `first`, when it is complete,
continued, neither overlong nor a surrogate, and at most `U+10FFFF`. -/
def sequenceAt (first : UInt8) (rest : ByteString) : Option ByteString :=
  if 0xC2 ≤ first ∧ first ≤ 0xDF then
    match rest with
    | c1 :: _ => if isContinuation c1 then some [first, c1] else none
    | _ => none
  else if 0xE0 ≤ first ∧ first ≤ 0xEF then
    match rest with
    | c1 :: c2 :: _ =>
        if isContinuation c1 ∧ isContinuation c2 ∧
            ¬ (first = 0xE0 ∧ c1 < 0xA0) ∧ ¬ (first = 0xED ∧ 0xA0 ≤ c1) then
          some [first, c1, c2]
        else none
    | _ => none
  else if 0xF0 ≤ first ∧ first ≤ 0xF4 then
    match rest with
    | c1 :: c2 :: c3 :: _ =>
        if isContinuation c1 ∧ isContinuation c2 ∧ isContinuation c3 ∧
            ¬ (first = 0xF0 ∧ c1 < 0x90) ∧ ¬ (first = 0xF4 ∧ 0x90 ≤ c1) then
          some [first, c1, c2, c3]
        else none
    | _ => none
  else none

/-- One turn of the loop: the bytes to append and how much input they cost.  A
sequence that is malformed or that no longer fits costs one byte of input and
one question mark. -/
def sanitizeStep (first : UInt8) (rest output : ByteString) : ByteString :=
  if isPrintable first then [first]
  else match sequenceAt first rest with
  | some piece =>
      if output.length + piece.length ≤ kAckResultMaxMessageLength then piece
      else [replacement]
  | none => [replacement]

/-- The loop reads at least one byte a turn, so the input length bounds the
turns. -/
def sanitizeLoop : ℕ → ByteString → ByteString → ByteString
  | 0, _, output => output
  | turns + 1, input, output =>
      match input with
      | [] => output
      | first :: rest =>
          if kAckResultMaxMessageLength ≤ output.length then output
          else
            let piece := sanitizeStep first rest output
            sanitizeLoop turns (rest.drop (piece.length - 1)) (output ++ piece)

def sanitizeFenceDiagnostic (input : ByteString) : ByteString :=
  sanitizeLoop input.length input []

/-- UTF-8 is decided piece by piece: a valid text in front never changes the
verdict on what follows. -/
theorem isValidUtf8_append {left : ByteString} (hleft : isValidUtf8 left = true)
    (right : ByteString) : isValidUtf8 (left ++ right) = isValidUtf8 right := by
  fun_induction isValidUtf8 left with
  | case1 => rfl
  | case2 c0 rest hascii ih =>
      rw [List.cons_append]
      conv_lhs => unfold isValidUtf8
      rw [if_pos hascii, ih hleft]
  | case3 c0 hascii htwo c1 rest ih =>
      simp only [Bool.and_eq_true] at hleft
      rw [List.cons_append, List.cons_append, isValidUtf8, if_neg hascii, if_pos htwo]
      simp only [hleft.1, Bool.true_and, ih hleft.2]
  | case5 c0 hascii htwo hthree c1 c2 rest codePoint ih =>
      simp only [Bool.and_eq_true] at hleft
      rw [List.cons_append, List.cons_append, List.cons_append, isValidUtf8,
        if_neg hascii, if_neg htwo, if_pos hthree]
      obtain ⟨⟨⟨⟨hc1, hc2⟩, hlow⟩, hhigh⟩, hrest⟩ := hleft
      simp only [codePoint] at hlow hhigh
      simp only [hc1, hc2, hlow, hhigh, Bool.true_and, ih hrest]
  | case7 c0 hascii htwo hthree hfour c1 c2 c3 rest codePoint ih =>
      simp only [Bool.and_eq_true] at hleft
      rw [List.cons_append, List.cons_append, List.cons_append, List.cons_append,
        isValidUtf8, if_neg hascii, if_neg htwo, if_neg hthree, if_pos hfour]
      obtain ⟨⟨⟨⟨⟨hc1, hc2⟩, hc3⟩, hlow⟩, hhigh⟩, hrest⟩ := hleft
      simp only [codePoint] at hlow hhigh
      simp only [hc1, hc2, hc3, hlow, hhigh, Bool.true_and, ih hrest]
  | case4 | case6 | case8 | case9 => exact absurd hleft (by simp)

theorem isMessage_append {output piece : ByteString} (houtput : IsMessage output)
    (hfits : output.length + piece.length ≤ kAckResultMaxMessageLength)
    (hpiece : isValidUtf8 piece = true) : IsMessage (output ++ piece) := by
  obtain ⟨_, hutf8⟩ := houtput
  refine ⟨by simpa using hfits, ?_⟩
  rw [isValidUtf8_append hutf8]
  exact hpiece

/-- The second-byte tests of the sanitizer are the code-point tests of strict
UTF-8: three bytes. -/
private theorem three_byte_code_point {first c1 c2 : UInt8}
    (hlead : 0xE0 ≤ first ∧ first ≤ 0xEF) (hc1 : isContinuation c1 = true)
    (hlow : ¬ (first = 0xE0 ∧ c1 < 0xA0)) (hhigh : ¬ (first = 0xED ∧ 0xA0 ≤ c1)) :
    isValidUtf8 [first, c1, c2] = isContinuation c2 := by
  have hascii : ¬ first < 0x80 := by grind
  have htwo : ¬ (0xC2 ≤ first ∧ first ≤ 0xDF) := by grind
  have hrange :
      0x800 ≤ (first.toNat % 16 * 64 + continuationBits c1) * 64 + continuationBits c2 ∧
      ¬ (0xD800 ≤ (first.toNat % 16 * 64 + continuationBits c1) * 64 +
          continuationBits c2 ∧
        (first.toNat % 16 * 64 + continuationBits c1) * 64 + continuationBits c2 ≤
          0xDFFF) := by
    simp only [isContinuation, Bool.and_eq_true, decide_eq_true_eq] at hc1
    simp only [UInt8.le_iff_toNat_le, UInt8.lt_iff_toNat_lt, ← UInt8.toNat_inj,
      UInt8.reduceToNat] at hc1 hlow hhigh hlead
    simp only [continuationBits]
    omega
  simp only [isValidUtf8, hascii, htwo, hlead, hc1, if_false, and_self, if_true,
    Bool.true_and, Bool.and_true, ← Bool.decide_and]
  rw [decide_eq_true hrange.1, decide_eq_false hrange.2]
  simp

/-- The same for four bytes. -/
private theorem four_byte_code_point {first c1 c2 c3 : UInt8}
    (hlead : 0xF0 ≤ first ∧ first ≤ 0xF4) (hc1 : isContinuation c1 = true)
    (hlow : ¬ (first = 0xF0 ∧ c1 < 0x90)) (hhigh : ¬ (first = 0xF4 ∧ 0x90 ≤ c1)) :
    isValidUtf8 [first, c1, c2, c3] = (isContinuation c2 && isContinuation c3) := by
  have hascii : ¬ first < 0x80 := by grind
  have htwo : ¬ (0xC2 ≤ first ∧ first ≤ 0xDF) := by grind
  have hthree : ¬ (0xE0 ≤ first ∧ first ≤ 0xEF) := by grind
  have hrange :
      0x10000 ≤ ((first.toNat % 8 * 64 + continuationBits c1) * 64 +
        continuationBits c2) * 64 + continuationBits c3 ∧
      ((first.toNat % 8 * 64 + continuationBits c1) * 64 +
        continuationBits c2) * 64 + continuationBits c3 ≤ 0x10FFFF := by
    simp only [isContinuation, Bool.and_eq_true, decide_eq_true_eq] at hc1
    simp only [UInt8.le_iff_toNat_le, UInt8.lt_iff_toNat_lt, ← UInt8.toNat_inj,
      UInt8.reduceToNat] at hc1 hlow hhigh hlead
    simp only [continuationBits]
    omega
  simp only [isValidUtf8, hascii, htwo, hthree, hlead, hc1, if_false, and_self, if_true,
    Bool.true_and, Bool.and_true]
  rw [decide_eq_true hrange.1, decide_eq_true hrange.2]
  simp

theorem isValidUtf8_of_sequenceAt {first : UInt8} {rest piece : ByteString}
    (hpiece : sequenceAt first rest = some piece) : isValidUtf8 piece = true := by
  unfold sequenceAt at hpiece
  split_ifs at hpiece with htwo hthree hfour
  · have hascii : ¬ first < 0x80 := by grind
    split at hpiece
    · split_ifs at hpiece with hc1
      obtain rfl := Option.some.inj hpiece
      simp [isValidUtf8, hascii, htwo, hc1]
    · cases hpiece
  · split at hpiece
    · split_ifs at hpiece with hcontinued
      obtain ⟨hc1, hc2, hlow, hhigh⟩ := hcontinued
      obtain rfl := Option.some.inj hpiece
      rw [three_byte_code_point hthree hc1 hlow hhigh, hc2]
    · cases hpiece
  · split at hpiece
    · split_ifs at hpiece with hcontinued
      obtain ⟨hc1, hc2, hc3, hlow, hhigh⟩ := hcontinued
      obtain rfl := Option.some.inj hpiece
      rw [four_byte_code_point hfour hc1 hlow hhigh, hc2, hc3]
      rfl
    · cases hpiece

theorem isValidUtf8_sanitizeStep (first : UInt8) (rest output : ByteString) :
    isValidUtf8 (sanitizeStep first rest output) = true := by
  have hreplacement : isValidUtf8 [replacement] = true := by decide
  unfold sanitizeStep
  split_ifs with hprintable
  · have hascii : first < 0x80 := by
      simp only [isPrintable, Bool.or_eq_true, Bool.and_eq_true, decide_eq_true_eq,
        beq_iff_eq] at hprintable
      grind
    simp [isValidUtf8, hascii]
  · split
    · rename_i piece hpiece
      split_ifs
      · exact isValidUtf8_of_sequenceAt hpiece
      · exact hreplacement
    · exact hreplacement

theorem sanitizeStep_fits {output : ByteString} (first : UInt8) (rest : ByteString)
    (hroom : output.length < kAckResultMaxMessageLength) :
    output.length + (sanitizeStep first rest output).length ≤
      kAckResultMaxMessageLength := by
  unfold sanitizeStep
  split_ifs
  · exact hroom
  · split
    · split_ifs with hfits
      · exact hfits
      · exact hroom
    · exact hroom

theorem isMessage_sanitizeLoop (turns : ℕ) (input : ByteString) {output : ByteString}
    (houtput : IsMessage output) : IsMessage (sanitizeLoop turns input output) := by
  induction turns generalizing input output with
  | zero => exact houtput
  | succ turns ih =>
      unfold sanitizeLoop
      split
      · exact houtput
      · rename_i first rest
        split_ifs with hfull
        · exact houtput
        · apply ih
          exact isMessage_append houtput (sanitizeStep_fits first rest (by omega))
            (isValidUtf8_sanitizeStep first rest output)

/-- Whatever bytes a diagnostic has, its sanitized form is a legal result
message. -/
theorem isMessage_sanitizeFenceDiagnostic (input : ByteString) :
    IsMessage (sanitizeFenceDiagnostic input) :=
  isMessage_sanitizeLoop input.length input isMessage_nil

/-! ## Texts that are kept -/

/-- A legal result message whose ASCII bytes are all kept. -/
structure IsClean (text : ByteString) : Prop where
  message : IsMessage text
  printable : ∀ byte ∈ text, byte < 0x80 → isPrintable byte = true

theorem isPrintable_replacement : isPrintable replacement = true := by decide

/-- What a sequence consists of: the bytes in front of the rest, none of them ASCII. -/
theorem eq_append_of_sequenceAt {first : UInt8} {rest piece : ByteString}
    (hpiece : sequenceAt first rest = some piece) :
    first :: rest = piece ++ rest.drop (piece.length - 1) ∧ ∀ byte ∈ piece, ¬ byte < 0x80 := by
  have hcontinues : ∀ byte, isContinuation byte = true → ¬ byte < 0x80 := by
    intro byte hbyte
    simp only [isContinuation, Bool.and_eq_true, decide_eq_true_eq] at hbyte
    grind
  unfold sequenceAt at hpiece
  split_ifs at hpiece with htwo hthree hfour
  · split at hpiece
    · split_ifs at hpiece with hc1
      obtain rfl := Option.some.inj hpiece
      refine ⟨rfl, ?_⟩
      simp only [List.forall_mem_cons]
      exact ⟨by grind, hcontinues _ hc1, nofun⟩
    · cases hpiece
  · split at hpiece
    · split_ifs at hpiece with hcontinued
      obtain rfl := Option.some.inj hpiece
      refine ⟨rfl, ?_⟩
      simp only [List.forall_mem_cons]
      exact ⟨by grind, hcontinues _ hcontinued.1, hcontinues _ hcontinued.2.1, nofun⟩
    · cases hpiece
  · split at hpiece
    · split_ifs at hpiece with hcontinued
      obtain rfl := Option.some.inj hpiece
      refine ⟨rfl, ?_⟩
      simp only [List.forall_mem_cons]
      exact ⟨by grind, hcontinues _ hcontinued.1, hcontinues _ hcontinued.2.1,
        hcontinues _ hcontinued.2.2.1, nofun⟩
    · cases hpiece

/-- Where strict UTF-8 goes on, the sanitizer finds a sequence: the ranges of the second byte say
no more than those of the code point. -/
theorem exists_sequenceAt {first : UInt8} {rest : ByteString} (hascii : ¬ first < 0x80)
    (hvalid : isValidUtf8 (first :: rest) = true) : ∃ piece, sequenceAt first rest = some piece := by
  rw [isValidUtf8.eq_def] at hvalid
  simp only [hascii, if_false] at hvalid
  unfold sequenceAt
  split_ifs at hvalid ⊢ with htwo hthree hfour
  · split at hvalid
    · simp only [Bool.and_eq_true] at hvalid
      simp [hvalid.1]
    · cases hvalid
  · split at hvalid
    · rename_i c1 c2 tail
      simp only [Bool.and_eq_true, Bool.not_eq_true', Bool.and_eq_false_iff] at hvalid
      obtain ⟨⟨⟨⟨hc1, hc2⟩, hlow⟩, hhigh⟩, -⟩ := hvalid
      have hlow := of_decide_eq_true hlow
      have hhigh := hhigh.imp of_decide_eq_false of_decide_eq_false
      have hsecond : ¬ (first = 0xE0 ∧ c1 < 0xA0) ∧ ¬ (first = 0xED ∧ 0xA0 ≤ c1) := by
        simp only [isContinuation, continuationBits, Bool.and_eq_true, decide_eq_true_eq,
          UInt8.le_iff_toNat_le, UInt8.lt_iff_toNat_lt, ← UInt8.toNat_inj,
          UInt8.reduceToNat] at hc1 hc2 hlow hhigh hthree ⊢
        omega
      exact ⟨_, if_pos ⟨hc1, hc2, hsecond⟩⟩
    · cases hvalid
  · split at hvalid
    · rename_i c1 c2 c3 tail
      simp only [Bool.and_eq_true] at hvalid
      obtain ⟨⟨⟨⟨⟨hc1, hc2⟩, hc3⟩, hlow⟩, hhigh⟩, -⟩ := hvalid
      have hlow := of_decide_eq_true hlow
      have hhigh := of_decide_eq_true hhigh
      have hsecond : ¬ (first = 0xF0 ∧ c1 < 0x90) ∧ ¬ (first = 0xF4 ∧ 0x90 ≤ c1) := by
        simp only [isContinuation, continuationBits, Bool.and_eq_true, decide_eq_true_eq,
          UInt8.le_iff_toNat_le, UInt8.lt_iff_toNat_lt, ← UInt8.toNat_inj,
          UInt8.reduceToNat] at hc1 hc2 hc3 hlow hhigh hfour ⊢
        omega
      exact ⟨_, if_pos ⟨hc1, hc2, hc3, hsecond⟩⟩
    · cases hvalid

/-- A turn on a clean text keeps what it reads. -/
theorem sanitizeStep_clean {first : UInt8} {rest output : ByteString}
    (hfits : output.length + (first :: rest).length ≤ kAckResultMaxMessageLength)
    (hvalid : isValidUtf8 (first :: rest) = true)
    (hprintable : first < 0x80 → isPrintable first = true) :
    first :: rest = sanitizeStep first rest output ++
      rest.drop ((sanitizeStep first rest output).length - 1) := by
  unfold sanitizeStep
  by_cases hfirst : isPrintable first = true
  · rw [if_pos hfirst]
    rfl
  · have hascii : ¬ first < 0x80 := fun hlt => hfirst (hprintable hlt)
    obtain ⟨piece, hpiece⟩ := exists_sequenceAt hascii hvalid
    have hsplit := (eq_append_of_sequenceAt hpiece).1
    have hroom : output.length + piece.length ≤ kAckResultMaxMessageLength := by
      have hlength := congrArg List.length hsplit
      rw [List.length_append] at hlength
      omega
    rw [if_neg hfirst, hpiece]
    simp only [if_pos hroom]
    exact hsplit

theorem sanitizeLoop_clean {turns : ℕ} {input output : ByteString} (hturns : input.length ≤ turns)
    (hfits : output.length + input.length ≤ kAckResultMaxMessageLength)
    (hvalid : isValidUtf8 input = true)
    (hprintable : ∀ byte ∈ input, byte < 0x80 → isPrintable byte = true) :
    sanitizeLoop turns input output = output ++ input := by
  induction turns generalizing input output with
  | zero =>
      obtain rfl := List.eq_nil_of_length_eq_zero (Nat.le_zero.mp hturns)
      exact (List.append_nil output).symm
  | succ turns ih =>
      cases input with
      | nil => exact (List.append_nil output).symm
      | cons first rest =>
          have hroom : ¬ kAckResultMaxMessageLength ≤ output.length := by
            rw [List.length_cons] at hfits
            omega
          have hsplit := sanitizeStep_clean hfits hvalid (hprintable first List.mem_cons_self)
          have hpiece := isValidUtf8_sanitizeStep first rest output
          simp only [sanitizeLoop, if_neg hroom]
          generalize sanitizeStep first rest output = piece at hsplit hpiece ⊢
          have hnonempty : piece ≠ [] := by
            rintro rfl
            have hlength := congrArg List.length hsplit
            simp at hlength
          have hlength := congrArg List.length hsplit
          rw [List.length_append, List.length_cons] at hlength
          have hpositive := List.length_pos_iff.mpr hnonempty
          rw [hsplit, isValidUtf8_append hpiece] at hvalid
          rw [ih (by rw [List.length_cons] at hturns; omega) ?_ hvalid ?_, List.append_assoc,
            ← hsplit]
          · rw [List.length_append, List.length_cons] at *
            omega
          · intro byte hbyte
            exact hprintable byte (hsplit ▸ List.mem_append_right _ hbyte)

/-! ## What comes out is kept -/

theorem printable_sanitizeStep (first : UInt8) (rest output : ByteString) :
    ∀ byte ∈ sanitizeStep first rest output, byte < 0x80 → isPrintable byte = true := by
  have hreplacement : ∀ byte ∈ [replacement], byte < 0x80 → isPrintable byte = true := by
    intro byte hbyte _
    rw [List.mem_singleton.mp hbyte]
    exact isPrintable_replacement
  unfold sanitizeStep
  split_ifs with hprintable
  · intro byte hbyte _
    rw [List.mem_singleton.mp hbyte]
    exact hprintable
  · split
    · rename_i piece hpiece
      split_ifs
      · exact fun byte hbyte hlt => absurd hlt ((eq_append_of_sequenceAt hpiece).2 byte hbyte)
      · exact hreplacement
    · exact hreplacement

theorem printable_sanitizeLoop (turns : ℕ) (input : ByteString) {output : ByteString}
    (houtput : ∀ byte ∈ output, byte < 0x80 → isPrintable byte = true) :
    ∀ byte ∈ sanitizeLoop turns input output, byte < 0x80 → isPrintable byte = true := by
  induction turns generalizing input output with
  | zero => exact houtput
  | succ turns ih =>
      unfold sanitizeLoop
      split
      · exact houtput
      · rename_i first rest
        split_ifs with hfull
        · exact houtput
        · apply ih
          intro byte hbyte
          rcases List.mem_append.mp hbyte with hbyte | hbyte
          · exact houtput byte hbyte
          · exact printable_sanitizeStep first rest output byte hbyte

theorem isClean_sanitizeFenceDiagnostic (input : ByteString) :
    IsClean (sanitizeFenceDiagnostic input) where
  message := isMessage_sanitizeFenceDiagnostic input
  printable := printable_sanitizeLoop input.length input nofun

theorem sanitizeFenceDiagnostic_clean {text : ByteString} (hclean : IsClean text) :
    sanitizeFenceDiagnostic text = text := by
  have hlength : ([] : ByteString).length + text.length ≤ kAckResultMaxMessageLength := by
    simpa using hclean.message.1
  exact sanitizeLoop_clean le_rfl hlength hclean.message.2 hclean.printable

/-- A turn reads at least one byte, so further turns find nothing to do. -/
theorem sanitizeLoop_of_le {turns : ℕ} (more : ℕ) {input : ByteString} (output : ByteString)
    (hturns : input.length ≤ turns) :
    sanitizeLoop (turns + more) input output = sanitizeLoop turns input output := by
  induction turns generalizing input output with
  | zero =>
      obtain rfl := List.eq_nil_of_length_eq_zero (Nat.le_zero.mp hturns)
      cases more with
      | zero => rfl
      | succ more => rfl
  | succ turns ih =>
      rw [Nat.add_right_comm]
      cases input with
      | nil => rfl
      | cons first rest =>
          simp only [sanitizeLoop]
          split_ifs
          · rfl
          · refine ih _ ?_
            rw [List.length_cons] at hturns
            rw [List.length_drop]
            omega

/-- The loop ends within as many turns as there are bytes, with a legal result message; what is
legal and printable comes out as it went in, and so does what came out before. -/
theorem sanitized_diagnostic (input : ByteString) :
    (∀ more, sanitizeLoop (input.length + more) input [] = sanitizeFenceDiagnostic input) ∧
      (sanitizeFenceDiagnostic input).length ≤ kAckResultMaxMessageLength ∧
      isValidUtf8 (sanitizeFenceDiagnostic input) = true ∧
      sanitizeFenceDiagnostic (sanitizeFenceDiagnostic input) = sanitizeFenceDiagnostic input ∧
      (input.length ≤ kAckResultMaxMessageLength → isValidUtf8 input = true →
        (∀ byte ∈ input, byte < 0x80 →
          (0x20 ≤ byte ∧ byte ≤ 0x7E) ∨ byte = 0x09 ∨ byte = 0x0A ∨ byte = 0x0D) →
        sanitizeFenceDiagnostic input = input) := by
  have hclean := isClean_sanitizeFenceDiagnostic input
  refine ⟨fun more => sanitizeLoop_of_le more [] le_rfl, hclean.message.1, hclean.message.2,
    sanitizeFenceDiagnostic_clean hclean, ?_⟩
  intro hlength hutf8 hbytes
  refine sanitizeFenceDiagnostic_clean ⟨⟨hlength, hutf8⟩, fun byte hbyte hascii => ?_⟩
  simpa only [isPrintable, Bool.or_eq_true, Bool.and_eq_true, decide_eq_true_eq, beq_iff_eq,
    or_assoc] using hbytes byte hbyte hascii

end Sitos.Diagnostic

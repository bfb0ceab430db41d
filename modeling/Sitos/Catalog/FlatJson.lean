import Sitos.Core.Bytes

/-!
# Flat canonical JSON

One object of string, integer, boolean or null members, with no whitespace and
no escapes.  The reader takes tokens off the front of the remaining text; the
renderer below writes the only spelling the reader accepts, and what it writes
is read back.
-/

namespace Sitos.FlatJson

open Sitos.Bytes

inductive JsonValue where
  | null
  | text (value : ByteString)
  | integer (value : ℤ)
  | boolean (value : Bool)
  deriving DecidableEq, Repr

structure JsonMember where
  name : ByteString
  value : JsonValue
  deriving DecidableEq, Repr

def quoteMark : UInt8 := 0x22
def colon : UInt8 := 0x3A
def comma : UInt8 := 0x2C
def openBrace : UInt8 := 0x7B
def closeBrace : UInt8 := 0x7D
def minus : UInt8 := 0x2D
def zeroDigit : UInt8 := 0x30

/-- Printable ASCII other than the quote and the backslash. -/
def isPlain (c : UInt8) : Bool :=
  0x20 ≤ c && c < 0x7F && c != quoteMark && c != 0x5C

def isPlainText (text : ByteString) : Bool := text.all isPlain

def isDigit (c : UInt8) : Bool := 0x30 ≤ c && c ≤ 0x39

/-! ## Reader -/

def take (expected : UInt8) : ByteString → Option ByteString
  | [] => none
  | c :: rest => if c = expected then some rest else none

def takeWord (word text : ByteString) : Option ByteString :=
  if word.isPrefixOf text then some (text.drop word.length) else none

/-- Up to the next quote, which nothing escapes. -/
def takeString (text : ByteString) : Option (ByteString × ByteString) := do
  let text ← take quoteMark text
  let value := text.takeWhile (· != quoteMark)
  let rest ← take quoteMark (text.drop value.length)
  if isPlainText value then some (value, rest) else none

def digitsValue (digits : ByteString) : ℕ :=
  digits.foldl (fun value c => 10 * value + (c.toNat - 0x30)) 0

/-- `std::from_chars` into a signed 64-bit integer. -/
def fromChars (negative : Bool) (digits : ByteString) : Option ℤ :=
  let value : ℤ := if negative then -digitsValue digits else digitsValue digits
  if -2 ^ 63 ≤ value ∧ value < 2 ^ 63 then some value else none

/-- No leading zero and no `-0`, so an integer has one spelling. -/
def takeInteger (text : ByteString) : Option (ℤ × ByteString) :=
  let negative := text.head? == some minus
  let unsigned := if negative then text.drop 1 else text
  let digits := unsigned.takeWhile isDigit
  if digits.length = 0 ∨ (1 < digits.length ∧ digits.head? = some zeroDigit) ∨
      (negative = true ∧ digits.length = 1 ∧ digits.head? = some zeroDigit) then none
  else (fromChars negative digits).map fun number => (number, unsigned.drop digits.length)

def takeValue (text : ByteString) : Option (JsonValue × ByteString) :=
  if text.head? = some quoteMark then
    (takeString text).map fun (value, rest) => (.text value, rest)
  else
    match takeWord (ascii "null") text with
    | some rest => some (.null, rest)
    | none =>
        match takeWord (ascii "true") text with
        | some rest => some (.boolean true, rest)
        | none =>
            match takeWord (ascii "false") text with
            | some rest => some (.boolean false, rest)
            | none => (takeInteger text).map fun (number, rest) => (.integer number, rest)

/-- The member loop up to the closing brace.  A turn takes at least one byte, so
as many turns as bytes are enough. -/
def readMembers : ℕ → ByteString → Option (List JsonMember × ByteString)
  | 0, _ => none
  | turns + 1, text => do
      let (name, text) ← takeString text
      let text ← take colon text
      let (value, text) ← takeValue text
      match take closeBrace text with
      | some rest => some ([⟨name, value⟩], rest)
      | none =>
          let text ← take comma text
          let (members, rest) ← readMembers turns text
          some (⟨name, value⟩ :: members, rest)

def parseFlatObject (text : ByteString) : Option (List JsonMember) := do
  let text ← take openBrace text
  let (members, rest) ←
    match take closeBrace text with
    | some rest => some ([], rest)
    | none => readMembers text.length text
  if rest.isEmpty then some members else none

/-! ## Renderer -/

def quote (text : ByteString) : ByteString := quoteMark :: (text ++ [quoteMark])

def decimal (value : ℕ) : ByteString :=
  if value = 0 then [zeroDigit]
  else ((Nat.digits 10 value).map fun digit => UInt8.ofNat (0x30 + digit)).reverse

/-- `std::to_string` of a signed integer. -/
def toDecimal (value : ℤ) : ByteString :=
  if value < 0 then minus :: decimal value.natAbs else decimal value.natAbs

def renderValue : JsonValue → ByteString
  | .null => ascii "null"
  | .text value => quote value
  | .integer value => toDecimal value
  | .boolean true => ascii "true"
  | .boolean false => ascii "false"

def renderMember (member : JsonMember) : ByteString :=
  quote member.name ++ colon :: renderValue member.value

/-- The members and the closing brace. -/
def renderMembers : List JsonMember → ByteString
  | [] => [closeBrace]
  | [member] => renderMember member ++ [closeBrace]
  | member :: members => renderMember member ++ comma :: renderMembers members

def renderObject (members : List JsonMember) : ByteString :=
  openBrace :: renderMembers members

/-- What the renderer may be given. -/
def IsFlatValue : JsonValue → Prop
  | .text value => isPlainText value = true
  | .integer value => -2 ^ 63 ≤ value ∧ value < 2 ^ 63
  | _ => True

/-! ## Digits -/

theorem isDigit_digit {digit : ℕ} (hdigit : digit < 10) :
    isDigit (UInt8.ofNat (0x30 + digit)) = true := by
  interval_cases digit <;> rfl

theorem toNat_digit {digit : ℕ} (hdigit : digit < 10) :
    (UInt8.ofNat (0x30 + digit)).toNat - 0x30 = digit := by
  interval_cases digit <;> rfl

theorem decimal_ne_nil (value : ℕ) : decimal value ≠ [] := by
  unfold decimal
  split_ifs with hzero
  · exact List.cons_ne_nil _ _
  · simpa [Nat.digits_eq_nil_iff_eq_zero] using hzero

theorem isDigit_of_mem_decimal {value : ℕ} {c : UInt8} (hc : c ∈ decimal value) :
    isDigit c = true := by
  unfold decimal at hc
  split_ifs at hc with hzero
  · obtain rfl := List.mem_singleton.mp hc
    rfl
  · obtain ⟨digit, hdigit, rfl⟩ := List.mem_map.mp (List.mem_reverse.mp hc)
    exact isDigit_digit (Nat.digits_lt_base (by norm_num) hdigit)

theorem digitsValue_decimal (value : ℕ) : digitsValue (decimal value) = value := by
  unfold decimal
  split_ifs with hzero
  · rw [hzero]
    rfl
  · have hvalue : ∀ digits : List ℕ, (∀ digit ∈ digits, digit < 10) →
        digitsValue (digits.map fun digit => UInt8.ofNat (0x30 + digit)).reverse =
          Nat.ofDigits 10 digits := by
      intro digits hdigits
      rw [digitsValue, List.foldl_reverse]
      induction digits with
      | nil => rfl
      | cons digit digits ih =>
          have hrest := ih fun other hother => hdigits other (List.mem_cons_of_mem _ hother)
          rw [List.map_cons, List.foldr_cons, hrest, toNat_digit (hdigits digit List.mem_cons_self),
            Nat.ofDigits_cons, Nat.add_comm]
    rw [hvalue _ fun digit hdigit => Nat.digits_lt_base (by norm_num) hdigit,
      Nat.ofDigits_digits]

/-- A leading zero is the only digit. -/
theorem head_decimal {value : ℕ} (hhead : (decimal value).head? = some zeroDigit) :
    value = 0 := by
  by_contra hzero
  rw [decimal, if_neg hzero, List.head?_reverse, List.getLast?_map] at hhead
  have hne : Nat.digits 10 value ≠ [] := Nat.digits_ne_nil_iff_ne_zero.mpr hzero
  rw [List.getLast?_eq_some_getLast hne, Option.map_some, Option.some.injEq] at hhead
  have hlast := Nat.getLast_digit_ne_zero 10 hzero
  have hlt : (Nat.digits 10 value).getLast hne < 10 :=
    Nat.digits_lt_base (by norm_num) (List.getLast_mem hne)
  have hdigit := toNat_digit hlt
  rw [hhead] at hdigit
  exact hlast hdigit.symm

theorem digitsValue_concat (digits : ByteString) (c : UInt8) :
    digitsValue (digits ++ [c]) = 10 * digitsValue digits + (c.toNat - 0x30) := by
  rw [digitsValue, List.foldl_append]
  rfl

theorem ofNat_of_isDigit {c : UInt8} (hc : isDigit c = true) :
    c.toNat - 0x30 < 10 ∧ UInt8.ofNat (0x30 + (c.toNat - 0x30)) = c := by
  revert c
  decide +kernel

/-- The decimal text grows at its end. -/
theorem decimal_concat {value digit : ℕ} (hvalue : value ≠ 0) (hdigit : digit < 10) :
    decimal (10 * value + digit) = decimal value ++ [UInt8.ofNat (0x30 + digit)] := by
  have hsum : 10 * value + digit ≠ 0 := by omega
  have hdigits : Nat.digits 10 (10 * value + digit) = digit :: Nat.digits 10 value := by
    rw [Nat.add_comm]
    exact Nat.digits_add 10 (by norm_num) digit value hdigit (.inr hvalue)
  rw [decimal, if_neg hsum, hdigits, decimal, if_neg hvalue]
  simp

theorem decimal_digit {digit : ℕ} (hdigit : digit < 10) :
    decimal digit = [UInt8.ofNat (0x30 + digit)] := by
  rw [decimal]
  split_ifs with hzero
  · rw [hzero]
    rfl
  · rw [Nat.digits_of_lt 10 digit hzero hdigit]
    rfl

/-- Digits spell their value, up to zeros in front. -/
theorem exists_zeros_decimal {text : ByteString} (htext : text ≠ [])
    (hdigits : ∀ c ∈ text, isDigit c = true) :
    ∃ zeros, text = List.replicate zeros zeroDigit ++ decimal (digitsValue text) := by
  induction text using List.reverseRecOn with
  | nil => exact absurd rfl htext
  | append_singleton text c ih =>
      obtain ⟨hdigit, hc⟩ := ofNat_of_isDigit (hdigits c (by simp))
      rw [digitsValue_concat]
      by_cases hempty : text = []
      · refine ⟨0, ?_⟩
        rw [hempty, digitsValue, List.foldl_nil, Nat.mul_zero, Nat.zero_add, decimal_digit hdigit, hc]
        rfl
      · obtain ⟨zeros, hzeros⟩ := ih hempty fun c' hc' => hdigits c' (by simp [hc'])
        by_cases hvalue : digitsValue text = 0
        · refine ⟨zeros + 1, ?_⟩
          rw [hvalue, Nat.mul_zero, Nat.zero_add, decimal_digit hdigit, hc]
          have hall : text = List.replicate (zeros + 1) zeroDigit := by
            rw [hzeros, hvalue, List.replicate_succ']
            rfl
          rw [hall]
        · refine ⟨zeros, ?_⟩
          rw [decimal_concat hvalue hdigit, hc, ← List.append_assoc, ← hzeros]

/-! ## Round trips -/

@[simp]
theorem take_cons (c : UInt8) (rest : ByteString) : take c (c :: rest) = some rest := by
  simp [take]

theorem take_ne {expected c : UInt8} (rest : ByteString) (hne : c ≠ expected) :
    take expected (c :: rest) = none := by
  simp [take, hne]

/-- The tokens of the reader stop where a rendered piece stops. -/
theorem takeWhile_append {p : UInt8 → Bool} {piece rest : ByteString}
    (hpiece : ∀ c ∈ piece, p c = true) (hrest : ∀ c ∈ rest.head?, p c = false) :
    (piece ++ rest).takeWhile p = piece := by
  rw [List.takeWhile_append_of_pos hpiece]
  cases rest with
  | nil => simp
  | cons c rest =>
      have hstop : p c = false := hrest c rfl
      simp [hstop]

theorem takeString_quote {text : ByteString} (rest : ByteString)
    (htext : isPlainText text = true) : takeString (quote text ++ rest) = some (text, rest) := by
  have hplain : ∀ c ∈ text, (c != quoteMark) = true := by
    intro c hc
    have hc' := List.all_eq_true.mp htext c hc
    simp only [isPlain, Bool.and_eq_true] at hc'
    exact hc'.1.2
  have hvalue : (text ++ quoteMark :: rest).takeWhile (· != quoteMark) = text :=
    takeWhile_append hplain (by simp)
  simp [takeString, quote, hvalue, htext]

theorem takeInteger_toDecimal {value : ℤ} {rest : ByteString}
    (hvalue : -2 ^ 63 ≤ value ∧ value < 2 ^ 63) (hrest : ∀ c ∈ rest.head?, isDigit c = false) :
    takeInteger (toDecimal value ++ rest) = some (value, rest) := by
  have hdigits : (decimal value.natAbs ++ rest).takeWhile isDigit = decimal value.natAbs :=
    takeWhile_append (fun c hc => isDigit_of_mem_decimal hc) hrest
  have hlength : (decimal value.natAbs).length ≠ 0 := by
    simpa using decimal_ne_nil value.natAbs
  have hleading : ¬(1 < (decimal value.natAbs).length ∧
      (decimal value.natAbs).head? = some zeroDigit) := by
    rintro ⟨hlong, hhead⟩
    rw [head_decimal hhead] at hlong
    exact absurd hlong (by decide)
  by_cases hnegative : value < 0
  · have hzero : (decimal value.natAbs).head? ≠ some zeroDigit := by
      intro hhead
      have hnatAbs := head_decimal hhead
      omega
    have hnumber : fromChars true (decimal value.natAbs) = some value := by
      have habs : -(value.natAbs : ℤ) = value := by omega
      rw [fromChars, digitsValue_decimal, if_pos rfl, habs]
      exact if_pos hvalue
    simp [takeInteger, toDecimal, hnegative, hdigits, hzero, decimal_ne_nil, hnumber]
  · have hhead : ((decimal value.natAbs ++ rest).head? == some minus) = false := by
      rw [List.head?_append_of_ne_nil _ (decimal_ne_nil _), beq_eq_false_iff_ne]
      intro hminus
      have hdigit := isDigit_of_mem_decimal (List.mem_of_head? hminus)
      exact absurd hdigit (by decide)
    have hnumber : fromChars false (decimal value.natAbs) = some value := by
      have habs : (value.natAbs : ℤ) = value := by omega
      rw [fromChars, digitsValue_decimal, if_neg Bool.false_ne_true, habs]
      exact if_pos hvalue
    rw [toDecimal, if_neg hnegative]
    simp only [takeInteger, hhead, Bool.false_eq_true, if_false, hdigits, false_and, or_false]
    rw [if_neg (not_or.mpr ⟨hlength, hleading⟩), hnumber, Option.map_some, List.drop_left]

/-- No word of the grammar starts like a number. -/
theorem takeWord_toDecimal {first : UInt8} {word : ByteString} (value : ℤ) (rest : ByteString)
    (hfirst : isDigit first = false) (hminus : first ≠ minus) :
    takeWord (first :: word) (toDecimal value ++ rest) = none := by
  have hhead : ∀ c ∈ (toDecimal value).head?, first ≠ c := by
    intro c hc
    rintro rfl
    unfold toDecimal at hc
    split_ifs at hc
    · exact hminus (Option.some.inj hc).symm
    · have hdigit := isDigit_of_mem_decimal (List.mem_of_head? hc)
      rw [hfirst] at hdigit
      exact Bool.false_ne_true hdigit
  cases htext : toDecimal value with
  | nil =>
      unfold toDecimal at htext
      split_ifs at htext
      exact absurd htext (decimal_ne_nil _)
  | cons c text =>
      have hne : first ≠ c := hhead c (by rw [htext]; rfl)
      simp [takeWord, hne]

theorem head_toDecimal_ne_quote (value : ℤ) (rest : ByteString) :
    (toDecimal value ++ rest).head? ≠ some quoteMark := by
  unfold toDecimal
  split_ifs
  · rw [List.cons_append, List.head?_cons]
    decide
  · rw [List.head?_append_of_ne_nil _ (decimal_ne_nil _)]
    intro hquote
    have hdigit := isDigit_of_mem_decimal (List.mem_of_head? hquote)
    exact absurd hdigit (by decide)

theorem takeValue_renderValue {value : JsonValue} {rest : ByteString} (hvalue : IsFlatValue value)
    (hrest : ∀ c ∈ rest.head?, isDigit c = false) :
    takeValue (renderValue value ++ rest) = some (value, rest) := by
  cases value with
  | null => rfl
  | text value =>
      have hstring := takeString_quote rest hvalue
      have hhead : (quote value ++ rest).head? = some quoteMark := rfl
      rw [renderValue, takeValue, if_pos hhead, hstring]
      rfl
  | integer value =>
      rw [renderValue, takeValue, if_neg (head_toDecimal_ne_quote value rest)]
      have hnull : takeWord (ascii "null") (toDecimal value ++ rest) = none :=
        takeWord_toDecimal value rest (by decide) (by decide)
      have htrue : takeWord (ascii "true") (toDecimal value ++ rest) = none :=
        takeWord_toDecimal value rest (by decide) (by decide)
      have hfalse : takeWord (ascii "false") (toDecimal value ++ rest) = none :=
        takeWord_toDecimal value rest (by decide) (by decide)
      rw [hnull, htrue, hfalse, takeInteger_toDecimal hvalue hrest]
      rfl
  | boolean value => cases value <;> rfl

theorem length_renderMembers_pos (members : List JsonMember) :
    0 < (renderMembers members).length := by
  match members with
  | [] => exact Nat.zero_lt_one
  | [_] => simp [renderMembers]
  | _ :: _ :: _ =>
      rw [renderMembers, List.length_append, List.length_cons]
      · omega
      · simp

theorem head_not_digit {c : UInt8} (rest : ByteString) (hc : isDigit c = false) :
    ∀ d ∈ (c :: rest).head?, isDigit d = false := by
  intro d hd
  obtain rfl := Option.some.inj hd
  exact hc

/-- The member loop reads a rendered member list back. -/
theorem readMembers_renderMembers {members : List JsonMember} {turns : ℕ}
    (hmembers : ∀ member ∈ members, isPlainText member.name = true ∧ IsFlatValue member.value)
    (hne : members ≠ []) (hturns : members.length ≤ turns) :
    readMembers turns (renderMembers members) = some (members, []) := by
  induction members generalizing turns with
  | nil => exact absurd rfl hne
  | cons member members ih =>
      obtain ⟨hname, hvalue⟩ := hmembers member List.mem_cons_self
      have hmembers' : ∀ other ∈ members,
          isPlainText other.name = true ∧ IsFlatValue other.value :=
        fun other hother => hmembers other (List.mem_cons_of_mem _ hother)
      cases turns with
      | zero => exact absurd hturns (by simp)
      | succ turns =>
          cases members with
          | nil =>
              have hstring := takeString_quote
                (colon :: (renderValue member.value ++ [closeBrace])) hname
              have hread := takeValue_renderValue hvalue
                (head_not_digit [] (by decide : isDigit closeBrace = false))
              simp [readMembers, renderMembers, renderMember, hstring, hread]
          | cons next members =>
              have hrest := ih hmembers' (List.cons_ne_nil _ _)
                (Nat.le_of_succ_le_succ hturns)
              have hstring := takeString_quote
                (colon :: (renderValue member.value ++
                  comma :: renderMembers (next :: members))) hname
              have hread := takeValue_renderValue hvalue
                (head_not_digit (renderMembers (next :: members))
                  (by decide : isDigit comma = false))
              have hclose : take closeBrace (comma :: renderMembers (next :: members)) = none :=
                take_ne _ (by decide)
              rw [renderMembers, readMembers, renderMember, List.append_assoc, List.cons_append,
                hstring]
              · simp only [Option.bind_eq_bind, Option.bind_some, take_cons, hread, hclose, hrest]
              · simp

theorem length_le_length_renderMembers (members : List JsonMember) :
    members.length ≤ (renderMembers members).length := by
  match members with
  | [] => exact Nat.zero_le _
  | [_] => exact length_renderMembers_pos _
  | member :: next :: members =>
      have hrest := length_le_length_renderMembers (next :: members)
      rw [renderMembers]
      · simp only [List.length_append, List.length_cons] at hrest ⊢
        omega
      · simp

/-- The reader accepts what the renderer writes, and reads it back. -/
theorem parseFlatObject_renderObject {members : List JsonMember}
    (hmembers : ∀ member ∈ members, isPlainText member.name = true ∧ IsFlatValue member.value) :
    parseFlatObject (renderObject members) = some members := by
  cases members with
  | nil => rfl
  | cons member members =>
      have hclose : take closeBrace (renderMembers (member :: members)) = none := by
        cases members <;>
          exact take_ne _ (by decide)
      have hread := readMembers_renderMembers hmembers (List.cons_ne_nil _ _)
        (length_le_length_renderMembers (member :: members))
      simp [parseFlatObject, renderObject, hclose, hread]

end Sitos.FlatJson

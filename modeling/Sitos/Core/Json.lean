import Sitos.Core.Bytes

/-!
# The JSON grammar

Every phrase of the grammar relates a text that begins with it to the text behind it.  Strings are
read in UTF-8: an unescaped character is the encoding of a scalar value, and a surrogate is only
escaped in pairs.

A value is given the room it has: how deep the arrays and objects in it may be nested.
-/

namespace Sitos.Json

open Sitos.Bytes

def quotationMark : UInt8 := 0x22
def reverseSolidus : UInt8 := 0x5C
def beginArray : UInt8 := 0x5B
def endArray : UInt8 := 0x5D
def beginObject : UInt8 := 0x7B
def endObject : UInt8 := 0x7D
def nameSeparator : UInt8 := 0x3A
def valueSeparator : UInt8 := 0x2C
def decimalPoint : UInt8 := 0x2E
def minus : UInt8 := 0x2D
def plus : UInt8 := 0x2B
def zero : UInt8 := 0x30

/-- The code of `u`. -/
def unicodeMark : UInt8 := 0x75

def isSpace (c : UInt8) : Bool := c == 0x20 || c == 0x09 || c == 0x0A || c == 0x0D

def isDigit (c : UInt8) : Bool := 0x30 ≤ c && c ≤ 0x39

/-- White space, as much of it as one likes. -/
def Spaces (text rest : ByteString) : Prop :=
  ∃ space, (∀ c ∈ space, isSpace c = true) ∧ text = space ++ rest

/-! ## Numbers -/

def Digits (text rest : ByteString) : Prop :=
  ∃ digits, digits ≠ [] ∧ (∀ c ∈ digits, isDigit c = true) ∧ text = digits ++ rest

def Minus (text rest : ByteString) : Prop := text = rest ∨ text = minus :: rest

/-- No zero leads other digits. -/
def Int (text rest : ByteString) : Prop :=
  text = zero :: rest ∨ (text.head? ≠ some zero ∧ Digits text rest)

def Frac (text rest : ByteString) : Prop :=
  text = rest ∨ ∃ digits, text = decimalPoint :: digits ∧ Digits digits rest

def Sign (text rest : ByteString) : Prop :=
  text = rest ∨ text = plus :: rest ∨ text = minus :: rest

def Exp (text rest : ByteString) : Prop :=
  text = rest ∨ ∃ e sign digits, (e = 0x65 ∨ e = 0x45) ∧ text = e :: sign ∧ Sign sign digits ∧
    Digits digits rest

def Number (text rest : ByteString) : Prop :=
  ∃ int frac exp, Minus text int ∧ Int int frac ∧ Frac frac exp ∧ Exp exp rest

/-! ## Strings -/

/-- The characters with an escape of two bytes, and what they stand for. -/
def shortEscapes : List (UInt8 × UInt8) :=
  [(0x22, 0x22), (0x5C, 0x5C), (0x2F, 0x2F), (0x62, 0x08), (0x66, 0x0C), (0x6E, 0x0A), (0x72, 0x0D),
    (0x74, 0x09)]

def hexDigitValue (c : UInt8) : Option ℕ :=
  if 0x30 ≤ c ∧ c ≤ 0x39 then some (c.toNat - 0x30)
  else if 0x61 ≤ c ∧ c ≤ 0x66 then some (c.toNat - 0x57)
  else if 0x41 ≤ c ∧ c ≤ 0x46 then some (c.toNat - 0x37)
  else none

/-- Four digits, in either case. -/
def Hex4 (text : ByteString) (value : ℕ) (rest : ByteString) : Prop :=
  ∃ c1 c2 c3 c4 d1 d2 d3 d4, text = c1 :: c2 :: c3 :: c4 :: rest ∧
    hexDigitValue c1 = some d1 ∧ hexDigitValue c2 = some d2 ∧ hexDigitValue c3 = some d3 ∧
    hexDigitValue c4 = some d4 ∧ value = ((d1 * 16 + d2) * 16 + d3) * 16 + d4

def encode (c : Char) : ByteString := String.utf8EncodeChar c

/-- What one character of a string stands for. -/
inductive Character : ByteString → ByteString → ByteString → Prop where
  | unescaped {rest : ByteString} (c : Char) (hcontrol : 0x20 ≤ c.val.toNat)
      (hquotation : c.val.toNat ≠ quotationMark.toNat)
      (hescape : c.val.toNat ≠ reverseSolidus.toNat) :
      Character (encode c ++ rest) (encode c) rest
  | short {rest : ByteString} (mark value : UInt8) (hshort : (mark, value) ∈ shortEscapes) :
      Character (reverseSolidus :: mark :: rest) [value] rest
  | unicode {text rest : ByteString} (c : Char) (hcode : Hex4 text c.val.toNat rest) :
      Character (reverseSolidus :: unicodeMark :: text) (encode c) rest
  | surrogates {text middle rest : ByteString} (c : Char) (high low : ℕ)
      (hfirst : Hex4 text high (reverseSolidus :: unicodeMark :: middle))
      (hsecond : Hex4 middle low rest) (hhigh : 0xD800 ≤ high ∧ high ≤ 0xDBFF)
      (hlow : 0xDC00 ≤ low ∧ low ≤ 0xDFFF)
      (hcode : c.val.toNat = 0x10000 + (high - 0xD800) * 0x400 + (low - 0xDC00)) :
      Character (reverseSolidus :: unicodeMark :: text) (encode c) rest

inductive Characters : ByteString → ByteString → ByteString → Prop where
  | nil {rest : ByteString} : Characters rest [] rest
  | cons {text middle rest piece value : ByteString} (hfirst : Character text piece middle)
      (hothers : Characters middle value rest) : Characters text (piece ++ value) rest

/-- A string, what it stands for and what is behind it. -/
def Quoted (text value rest : ByteString) : Prop :=
  ∃ inner, text = quotationMark :: inner ∧ Characters inner value (quotationMark :: rest)

/-! ## Values -/

def literals : List ByteString := [ascii "true", ascii "false", ascii "null"]

/-- A value, or what stands between the brackets of an object or an array that is not empty. -/
inductive Part where
  | value
  | members
  | elements

inductive Phrase : Part → ℕ → ByteString → ByteString → Prop where
  | string {room : ℕ} {text value rest : ByteString} (hstring : Quoted text value rest) :
      Phrase .value room text rest
  | number {room : ℕ} {text rest : ByteString} (hnumber : Number text rest) :
      Phrase .value room text rest
  | literal {room : ℕ} {word rest : ByteString} (hword : word ∈ literals) :
      Phrase .value room (word ++ rest) rest
  | emptyObject {room : ℕ} {text rest : ByteString} (hspace : Spaces text (endObject :: rest)) :
      Phrase .value room (beginObject :: text) rest
  | object {room : ℕ} {text inner rest : ByteString} (hspace : Spaces text inner)
      (hmembers : Phrase .members room inner (endObject :: rest)) :
      Phrase .value (room + 1) (beginObject :: text) rest
  | emptyArray {room : ℕ} {text rest : ByteString} (hspace : Spaces text (endArray :: rest)) :
      Phrase .value room (beginArray :: text) rest
  | array {room : ℕ} {text inner rest : ByteString} (hspace : Spaces text inner)
      (helements : Phrase .elements room inner (endArray :: rest)) :
      Phrase .value (room + 1) (beginArray :: text) rest
  | lastMember {room : ℕ} {text name a b c d rest : ByteString} (hname : Quoted text name a)
      (hbefore : Spaces a (nameSeparator :: b)) (hafter : Spaces b c)
      (hvalue : Phrase .value room c d) (hspace : Spaces d rest) : Phrase .members room text rest
  | member {room : ℕ} {text name a b c d e f rest : ByteString} (hname : Quoted text name a)
      (hbefore : Spaces a (nameSeparator :: b)) (hafter : Spaces b c)
      (hvalue : Phrase .value room c d) (hspace : Spaces d (valueSeparator :: e))
      (hnext : Spaces e f) (hothers : Phrase .members room f rest) : Phrase .members room text rest
  | lastElement {room : ℕ} {text d rest : ByteString} (hvalue : Phrase .value room text d)
      (hspace : Spaces d rest) : Phrase .elements room text rest
  | element {room : ℕ} {text d e f rest : ByteString} (hvalue : Phrase .value room text d)
      (hspace : Spaces d (valueSeparator :: e)) (hnext : Spaces e f)
      (hothers : Phrase .elements room f rest) : Phrase .elements room text rest

/-! ## Objects with known members -/

/-- A member: its name, and what its value stands for when the name is a known one. -/
abbrev Member := ByteString × Option ByteString

/-- Known members are strings; any other value is read and forgotten. -/
inductive Content (known : List ByteString) (room : ℕ) :
    ByteString → Option ByteString → ByteString → ByteString → Prop where
  | known {name text value rest : ByteString} (hknown : name ∈ known)
      (hstring : Quoted text value rest) : Content known room name (some value) text rest
  | other {name text rest : ByteString} (hother : name ∉ known)
      (hvalue : Phrase .value room text rest) : Content known room name none text rest

inductive Members (known : List ByteString) (room : ℕ) :
    List Member → ByteString → ByteString → Prop where
  | last {name text a b c d rest : ByteString} {content : Option ByteString}
      (hname : Quoted text name a) (hbefore : Spaces a (nameSeparator :: b)) (hafter : Spaces b c)
      (hcontent : Content known room name content c d) (hspace : Spaces d rest) :
      Members known room [(name, content)] text rest
  | next {name text a b c d e f rest : ByteString} {content : Option ByteString}
      {others : List Member} (hname : Quoted text name a)
      (hbefore : Spaces a (nameSeparator :: b)) (hafter : Spaces b c)
      (hcontent : Content known room name content c d)
      (hspace : Spaces d (valueSeparator :: e)) (hnext : Spaces e f)
      (hothers : Members known room others f rest) :
      Members known room ((name, content) :: others) text rest

/-- A text that is one object with members. -/
def ObjectText (known : List ByteString) (room : ℕ) (members : List Member) (text : ByteString) :
    Prop :=
  ∃ a b c d, Spaces text (beginObject :: a) ∧ Spaces a b ∧
    Members known room members b (endObject :: c) ∧ Spaces c d ∧ d = []

/-! ## The bytes of a text -/

section Bytes

variable {text rest : ByteString}

/-- No byte is larger than the ones that UTF-8 is made of. -/
def Narrow (text : ByteString) : Prop := ∀ c ∈ text, c < 0xF8

theorem narrow_append {piece : ByteString} (hpiece : ∀ c ∈ piece, c < 0xF8)
    (hrest : Narrow rest) : Narrow (piece ++ rest) := by
  intro c hc
  rcases List.mem_append.mp hc with hc | hc
  · exact hpiece c hc
  · exact hrest c hc

theorem narrow_cons {c : UInt8} (hc : c < 0xF8) (hrest : Narrow rest) : Narrow (c :: rest) :=
  fun c' hc' => (List.mem_cons.mp hc').elim (fun heq => heq ▸ hc) (hrest c')

theorem lt_of_class (c : UInt8) :
    (isSpace c = true → c < 0xF8) ∧ (isDigit c = true → c < 0xF8) ∧
      ((hexDigitValue c).isSome = true → c < 0xF8) ∧
      (c ∈ shortEscapes.map Prod.fst → c < 0xF8) := by
  have hcheck : ∀ c : UInt8,
      (isSpace c = true → c < 0xF8) ∧ (isDigit c = true → c < 0xF8) ∧
        ((hexDigitValue c).isSome = true → c < 0xF8) ∧
        (c ∈ shortEscapes.map Prod.fst → c < 0xF8) := by
    decide +kernel
  exact hcheck c

theorem narrow_of_spaces (hspaces : Spaces text rest) (hrest : Narrow rest) : Narrow text := by
  obtain ⟨space, hspace, rfl⟩ := hspaces
  exact narrow_append (fun c hc => (lt_of_class c).1 (hspace c hc)) hrest

theorem narrow_of_digits (hdigits : Digits text rest) (hrest : Narrow rest) : Narrow text := by
  obtain ⟨digits, -, hall, rfl⟩ := hdigits
  exact narrow_append (fun c hc => (lt_of_class c).2.1 (hall c hc)) hrest

theorem narrow_of_number (hnumber : Number text rest) (hrest : Narrow rest) : Narrow text := by
  obtain ⟨int, frac, exp, hminus, hint, hfrac, hexp⟩ := hnumber
  have hnarrowExp : Narrow exp := by
    rcases hexp with rfl | ⟨e, sign, digits, he, rfl, hsign, hdigits⟩
    · exact hrest
    · have hnarrowDigits := narrow_of_digits hdigits hrest
      have hnarrowSign : Narrow sign := by
        rcases hsign with rfl | rfl | rfl
        · exact hnarrowDigits
        · exact narrow_cons (by decide) hnarrowDigits
        · exact narrow_cons (by decide) hnarrowDigits
      rcases he with rfl | rfl
      · exact narrow_cons (by decide) hnarrowSign
      · exact narrow_cons (by decide) hnarrowSign
  have hnarrowFrac : Narrow frac := by
    rcases hfrac with rfl | ⟨digits, rfl, hdigits⟩
    · exact hnarrowExp
    · exact narrow_cons (by decide) (narrow_of_digits hdigits hnarrowExp)
  have hnarrowInt : Narrow int := by
    rcases hint with rfl | ⟨-, hdigits⟩
    · exact narrow_cons (by decide) hnarrowFrac
    · exact narrow_of_digits hdigits hnarrowFrac
  rcases hminus with rfl | rfl
  · exact hnarrowInt
  · exact narrow_cons (by decide) hnarrowInt

theorem ofNat_lt {value : ℕ} (hvalue : value < 0xF8) :
    UInt8.ofNat value < 0xF8 := by
  rw [UInt8.lt_iff_toNat_lt, UInt8.toNat_ofNat']
  exact (Nat.mod_le _ _).trans_lt hvalue

theorem lt_of_mem_encode {c : Char} : ∀ b ∈ encode c, b < 0xF8 := by
  rw [encode, String.utf8EncodeChar]
  generalize c.val.toNat = v
  split_ifs <;>
    simp only [List.forall_mem_cons, List.not_mem_nil, false_imp_iff, implies_true, and_true]
  · exact ofNat_lt (by omega)
  · exact ⟨ofNat_lt (by omega), ofNat_lt (by omega)⟩
  · exact ⟨ofNat_lt (by omega), ofNat_lt (by omega), ofNat_lt (by omega)⟩
  · exact ⟨ofNat_lt (by omega), ofNat_lt (by omega), ofNat_lt (by omega), ofNat_lt (by omega)⟩

theorem narrow_of_hex4 {value : ℕ} (hhex : Hex4 text value rest) (hrest : Narrow rest) :
    Narrow text := by
  have hcheck (c : UInt8) {digit : ℕ} (hdigit : hexDigitValue c = some digit) : c < 0xF8 :=
    (lt_of_class c).2.2.1 (by rw [hdigit]; rfl)
  obtain ⟨c1, c2, c3, c4, d1, d2, d3, d4, rfl, h1, h2, h3, h4, -⟩ := hhex
  exact narrow_cons (hcheck c1 h1) (narrow_cons (hcheck c2 h2)
    (narrow_cons (hcheck c3 h3) (narrow_cons (hcheck c4 h4) hrest)))

theorem narrow_of_character {piece : ByteString} (hcharacter : Character text piece rest)
    (hrest : Narrow rest) : Narrow text := by
  cases hcharacter with
  | unescaped c => exact narrow_append lt_of_mem_encode hrest
  | short mark value hshort =>
      have hmark : mark < 0xF8 :=
        (lt_of_class mark).2.2.2 (List.mem_map_of_mem (f := Prod.fst) hshort)
      exact narrow_cons (by decide) (narrow_cons hmark hrest)
  | unicode c hcode =>
      exact narrow_cons (by decide) (narrow_cons (by decide) (narrow_of_hex4 hcode hrest))
  | surrogates c high low hfirst hsecond =>
      have hmiddle := narrow_of_hex4 hsecond hrest
      exact narrow_cons (by decide) (narrow_cons (by decide) (narrow_of_hex4 hfirst
        (narrow_cons (by decide) (narrow_cons (by decide) hmiddle))))

theorem narrow_of_quoted {value : ByteString} (hstring : Quoted text value rest)
    (hrest : Narrow rest) : Narrow text := by
  obtain ⟨inner, rfl, hcharacters⟩ := hstring
  have hclose : Narrow (quotationMark :: rest) := narrow_cons (by decide) hrest
  generalize quotationMark :: rest = close at hcharacters hclose
  refine narrow_cons (by decide) ?_
  induction hcharacters with
  | nil => exact hclose
  | cons hfirst hothers ih => exact narrow_of_character hfirst (ih hclose)

theorem lt_of_mem_literal {word : ByteString} (hword : word ∈ literals) : ∀ c ∈ word, c < 0xF0 := by
  have hall : (literals.all fun word => word.all fun c => c < 0xF0) = true := by decide
  intro c hc
  exact of_decide_eq_true (List.all_eq_true.mp (List.all_eq_true.mp hall word hword) c hc)

theorem narrow_of_phrase {part : Part} {room : ℕ} (hphrase : Phrase part room text rest)
    (hrest : Narrow rest) : Narrow text := by
  induction hphrase with
  | string hstring => exact narrow_of_quoted hstring hrest
  | number hnumber => exact narrow_of_number hnumber hrest
  | literal hword =>
      exact narrow_append (fun c hc => (lt_of_mem_literal hword c hc).trans (by decide)) hrest
  | emptyObject hspace =>
      exact narrow_cons (by decide) (narrow_of_spaces hspace (narrow_cons (by decide) hrest))
  | object hspace hmembers ih =>
      exact narrow_cons (by decide) (narrow_of_spaces hspace (ih (narrow_cons (by decide) hrest)))
  | emptyArray hspace =>
      exact narrow_cons (by decide) (narrow_of_spaces hspace (narrow_cons (by decide) hrest))
  | array hspace helements ih =>
      exact narrow_cons (by decide) (narrow_of_spaces hspace (ih (narrow_cons (by decide) hrest)))
  | lastMember hname hbefore hafter hvalue hspace ih =>
      have hcolon := narrow_of_spaces hafter (ih (narrow_of_spaces hspace hrest))
      exact narrow_of_quoted hname (narrow_of_spaces hbefore (narrow_cons (by decide) hcolon))
  | member hname hbefore hafter hvalue hspace hnext hothers ihvalue ihothers =>
      have hcomma := narrow_cons (c := valueSeparator) (by decide)
        (narrow_of_spaces hnext (ihothers hrest))
      have hcolon := narrow_of_spaces hafter (ihvalue (narrow_of_spaces hspace hcomma))
      exact narrow_of_quoted hname (narrow_of_spaces hbefore (narrow_cons (by decide) hcolon))
  | lastElement hvalue hspace ih => exact ih (narrow_of_spaces hspace hrest)
  | element hvalue hspace hnext hothers ihvalue ihothers =>
      have hcomma := narrow_cons (c := valueSeparator) (by decide)
        (narrow_of_spaces hnext (ihothers hrest))
      exact ihvalue (narrow_of_spaces hspace hcomma)

theorem narrow_of_content {known : List ByteString} {room : ℕ} {key : ByteString}
    {content : Option ByteString}
    (hcontent : Content known room key content text rest) (hrest : Narrow rest) :
    Narrow text := by
  cases hcontent with
  | known hknown hstring => exact narrow_of_quoted hstring hrest
  | other hother hvalue => exact narrow_of_phrase hvalue hrest

theorem narrow_of_members {known : List ByteString} {room : ℕ} {members : List Member}
    (hmembers : Members known room members text rest) (hrest : Narrow rest) :
    Narrow text := by
  induction hmembers with
  | last hname hbefore hafter hcontent hspace =>
      have hcolon := narrow_of_spaces hafter
        (narrow_of_content hcontent (narrow_of_spaces hspace hrest))
      exact narrow_of_quoted hname (narrow_of_spaces hbefore (narrow_cons (by decide) hcolon))
  | next hname hbefore hafter hcontent hspace hnext hothers ih =>
      have hcomma := narrow_cons (c := valueSeparator) (by decide)
        (narrow_of_spaces hnext (ih hrest))
      have hcolon := narrow_of_spaces hafter
        (narrow_of_content hcontent (narrow_of_spaces hspace hcomma))
      exact narrow_of_quoted hname (narrow_of_spaces hbefore (narrow_cons (by decide) hcolon))

theorem narrow_of_objectText {known : List ByteString} {room : ℕ} {members : List Member}
    (htext : ObjectText known room members text) : Narrow text := by
  obtain ⟨a, b, c, d, hopen, hnext, hmembers, hclose, rfl⟩ := htext
  have hend := narrow_of_spaces hclose fun c hc => absurd hc List.not_mem_nil
  have hinner := narrow_of_members hmembers (narrow_cons (by decide) hend)
  exact narrow_of_spaces hopen (narrow_cons (by decide) (narrow_of_spaces hnext hinner))

end Bytes

end Sitos.Json

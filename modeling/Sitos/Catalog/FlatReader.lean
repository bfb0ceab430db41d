import Sitos.Catalog.FlatJson
import Sitos.Core.Cursor

/-!
# The flat JSON reader

Every text that the reader accepts is the one that the renderer writes for the members, so an
object has one spelling.  The reader itself moves an offset through the text; it follows the
functions on the rest of the text, stays inside, and its loop ends.
-/

namespace Sitos.FlatJson

open Sitos.Bytes
open Sitos.Cursor

/-! ## One spelling -/

section Spelling

variable {text rest : ByteString}

theorem eq_cons_of_take {expected : UInt8} (htake : take expected text = some rest) :
    text = expected :: rest := by
  cases text with
  | nil => cases htake
  | cons c text =>
      rw [take] at htake
      split_ifs at htake with hc
      rw [hc, Option.some.inj htake]

theorem eq_append_of_takeWord {word : ByteString} (htake : takeWord word text = some rest) :
    text = word ++ rest := by
  rw [takeWord] at htake
  split_ifs at htake with hword
  obtain ⟨tail, rfl⟩ := List.isPrefixOf_iff_prefix.mp hword
  rw [List.drop_left] at htake
  rw [Option.some.inj htake]

theorem eq_quote_of_takeString {value : ByteString} (htake : takeString text = some (value, rest)) :
    text = quote value ++ rest ∧ isPlainText value = true := by
  simp only [takeString, Option.bind_eq_bind, Option.bind_eq_some_iff] at htake
  obtain ⟨inner, hopen, tail, hclose, hplain⟩ := htake
  split_ifs at hplain with hvalue
  obtain ⟨rfl, rfl⟩ := Prod.mk.inj (Option.some.inj hplain)
  refine ⟨?_, hvalue⟩
  have hinner : inner = inner.takeWhile (· != quoteMark) ++ quoteMark :: tail := by
    rw [← eq_cons_of_take hclose]
    exact (List.prefix_iff_eq_append.mp (List.takeWhile_prefix _)).symm
  rw [eq_cons_of_take hopen, quote, List.cons_append, List.append_assoc, List.singleton_append,
    ← hinner]

theorem eq_decimal_of_digits {digits : ByteString} (hdigits : ∀ c ∈ digits, isDigit c = true)
    (hne : digits ≠ []) (hlead : ¬(1 < digits.length ∧ digits.head? = some zeroDigit)) :
    digits = decimal (digitsValue digits) := by
  obtain ⟨zeros, hzeros⟩ := exists_zeros_decimal hne hdigits
  cases zeros with
  | zero => exact hzeros
  | succ zeros =>
      refine absurd ⟨?_, ?_⟩ hlead
      · have hpos := List.length_pos_iff.mpr (decimal_ne_nil (digitsValue digits))
        rw [hzeros, List.length_append, List.length_replicate]
        omega
      · rw [hzeros]
        rfl

theorem fromChars_eq_some {negative : Bool} {digits : ByteString} {number : ℤ}
    (hnumber : fromChars negative digits = some number) :
    number = if negative then -(digitsValue digits : ℤ) else digitsValue digits := by
  simp only [fromChars] at hnumber
  split_ifs at hnumber with hnegative hrange hrange
  · rw [if_pos hnegative, ← Option.some.inj hnumber]
  · rw [if_neg hnegative, ← Option.some.inj hnumber]

theorem eq_toDecimal_of_takeInteger {value : ℤ} (htake : takeInteger text = some (value, rest)) :
    text = toDecimal value ++ rest := by
  unfold takeInteger at htake
  simp only at htake
  generalize hnegative : (text.head? == some minus) = negative at htake
  generalize hunsigned : (if negative = true then text.drop 1 else text) = unsigned at htake
  generalize hdigits : unsigned.takeWhile isDigit = digits at htake
  split_ifs at htake with hrefused
  obtain ⟨number, hnumber, hpair⟩ := Option.map_eq_some_iff.mp htake
  obtain ⟨rfl, rfl⟩ := Prod.mk.inj hpair
  simp only [not_or] at hrefused
  obtain ⟨hcount, hlead, hminusZero⟩ := hrefused
  have hspelled : digits = decimal (digitsValue digits) := by
    refine eq_decimal_of_digits (fun c hc => ?_) (fun h => hcount (h ▸ rfl)) hlead
    rw [← hdigits] at hc
    exact List.mem_takeWhile_imp hc
  have hrest : unsigned = digits ++ unsigned.drop digits.length := by
    rw [← hdigits]
    exact (List.prefix_iff_eq_append.mp (List.takeWhile_prefix _)).symm
  cases negative with
  | true =>
      rw [if_pos rfl] at hunsigned
      have hnumber := fromChars_eq_some hnumber
      rw [if_pos rfl] at hnumber
      have hpositive : digitsValue digits ≠ 0 := by
        intro hzero
        rw [hzero] at hspelled
        exact hminusZero ⟨rfl, by rw [hspelled]; rfl, by rw [hspelled]; rfl⟩
      have htext : text = minus :: unsigned := by
        cases text with
        | nil => cases hnegative
        | cons c text =>
            rw [← hunsigned, List.drop_succ_cons, List.drop_zero,
              ← Option.some.inj (eq_of_beq hnegative)]
      have hdecimal : toDecimal number = minus :: digits := by
        rw [toDecimal, if_pos (by omega), hnumber, Int.natAbs_neg, Int.natAbs_natCast, ← hspelled]
      rw [htext, hdecimal, List.cons_append, ← hrest]
  | false =>
      rw [if_neg Bool.false_ne_true] at hunsigned
      have hnumber := fromChars_eq_some hnumber
      rw [if_neg Bool.false_ne_true] at hnumber
      have hdecimal : toDecimal number = digits := by
        rw [toDecimal, if_neg (by omega), hnumber, Int.natAbs_natCast, ← hspelled]
      rw [hdecimal, hunsigned, ← hrest]

theorem eq_renderValue_of_takeValue {value : JsonValue} (htake : takeValue text = some (value, rest)) :
    text = renderValue value ++ rest := by
  rw [takeValue] at htake
  split_ifs at htake with hquote
  · obtain ⟨⟨string, after⟩, hstring, hpair⟩ := Option.map_eq_some_iff.mp htake
    obtain ⟨rfl, rfl⟩ := Prod.mk.inj hpair
    exact (eq_quote_of_takeString hstring).1
  · split at htake
    next after hnull =>
      obtain ⟨rfl, rfl⟩ := Prod.mk.inj (Option.some.inj htake)
      exact eq_append_of_takeWord hnull
    next hnull =>
      split at htake
      next after htrue =>
        obtain ⟨rfl, rfl⟩ := Prod.mk.inj (Option.some.inj htake)
        exact eq_append_of_takeWord htrue
      next htrue =>
        split at htake
        next after hfalse =>
          obtain ⟨rfl, rfl⟩ := Prod.mk.inj (Option.some.inj htake)
          exact eq_append_of_takeWord hfalse
        next hfalse =>
          obtain ⟨⟨number, after⟩, hnumber, hpair⟩ := Option.map_eq_some_iff.mp htake
          obtain ⟨rfl, rfl⟩ := Prod.mk.inj hpair
          exact eq_toDecimal_of_takeInteger hnumber

/-- One turn of the member loop, up to what follows the member. -/
def takeMember (text : ByteString) : Option (JsonMember × ByteString) := do
  let (name, text) ← takeString text
  let text ← take colon text
  let (value, text) ← takeValue text
  some (⟨name, value⟩, text)

theorem readMembers_succ (turns : ℕ) (text : ByteString) :
    readMembers (turns + 1) text =
      (takeMember text).bind fun (member, text) =>
        match take closeBrace text with
        | some rest => some ([member], rest)
        | none =>
            (take comma text).bind fun text =>
              (readMembers turns text).map fun (members, rest) => (member :: members, rest) := by
  simp only [readMembers, takeMember, Option.bind_eq_bind, Option.bind_assoc, Option.bind_some,
    Option.map_eq_bind]
  rfl

theorem eq_renderMember_of_takeMember {member : JsonMember}
    (htake : takeMember text = some (member, rest)) : text = renderMember member ++ rest := by
  simp only [takeMember, Option.bind_eq_bind, Option.bind_eq_some_iff, Prod.exists] at htake
  obtain ⟨name, afterName, hname, afterColon, hcolon, value, afterValue, hvalue, hpair⟩ := htake
  obtain ⟨rfl, rfl⟩ := Prod.mk.inj (Option.some.inj hpair)
  rw [(eq_quote_of_takeString hname).1, eq_cons_of_take hcolon, eq_renderValue_of_takeValue hvalue,
    renderMember, List.append_assoc, List.cons_append]

theorem eq_renderMembers_of_readMembers {turns : ℕ} {members : List JsonMember}
    (hread : readMembers turns text = some (members, rest)) :
    members ≠ [] ∧ text = renderMembers members ++ rest := by
  induction turns generalizing text members with
  | zero => cases hread
  | succ turns ih =>
      simp only [readMembers_succ, Option.bind_eq_some_iff, Prod.exists] at hread
      obtain ⟨member, afterMember, hmember, hread⟩ := hread
      rw [eq_renderMember_of_takeMember hmember]
      split at hread
      next after hclose =>
        obtain ⟨rfl, rfl⟩ := Prod.mk.inj (Option.some.inj hread)
        refine ⟨List.cons_ne_nil _ _, ?_⟩
        rw [eq_cons_of_take hclose]
        simp [renderMembers]
      next hclose =>
        simp only [Option.bind_eq_some_iff, Option.map_eq_some_iff, Prod.exists] at hread
        obtain ⟨afterComma, hcomma, others, after, hothers, hpair⟩ := hread
        obtain ⟨rfl, rfl⟩ := Prod.mk.inj hpair
        obtain ⟨hne, hafter⟩ := ih hothers
        refine ⟨List.cons_ne_nil _ _, ?_⟩
        rw [eq_cons_of_take hcomma, hafter, renderMembers]
        · simp
        · exact hne

/-- An accepted text is written again from its members. -/
theorem renderObject_of_parseFlatObject {members : List JsonMember}
    (hparsed : parseFlatObject text = some members) : renderObject members = text := by
  simp only [parseFlatObject, Option.bind_eq_bind, Option.bind_eq_some_iff] at hparsed
  obtain ⟨inner, hopen, hparsed⟩ := hparsed
  split at hparsed
  next after hclose =>
    rw [Option.bind_some] at hparsed
    split_ifs at hparsed with hempty
    obtain rfl := Option.some.inj hparsed
    obtain rfl : after = [] := List.isEmpty_iff.mp hempty
    rw [eq_cons_of_take hopen, eq_cons_of_take hclose]
    rfl
  next hclose =>
    simp only [Option.bind_eq_some_iff, Prod.exists] at hparsed
    obtain ⟨read, after, hread, hend⟩ := hparsed
    split_ifs at hend with hempty
    obtain rfl := Option.some.inj hend
    rw [eq_cons_of_take hopen, (eq_renderMembers_of_readMembers hread).2, List.isEmpty_iff.mp hempty,
      List.append_nil]
    rfl

end Spelling

/-! ## The reader at its offset -/

def takeAt (text : Span UInt8) (expected : UInt8) (at_ : ℕ) : Checked (Unit × ℕ) := do
  if at_ ≥ text.size then reject
  else if (← text.at at_) ≠ expected then reject
  else
    let at_ ← advance at_ 1
    pure ((), at_)

def takeWordAt (text : Span UInt8) (word : ByteString) (at_ : ℕ) : Checked (Unit × ℕ) := do
  if (← text.substr at_ word.length) ≠ word then reject
  else
    let at_ ← advance at_ word.length
    pure ((), at_)

def takeStringAt (text : Span UInt8) (at_ : ℕ) : Checked (ByteString × ℕ) := do
  let (_, at_) ← takeAt text quoteMark at_
  match text.find quoteMark at_ with
  | none => reject
  | some stop =>
      let value ← text.substr at_ (stop - at_)
      if !isPlainText value then reject
      else
        let at_ ← advance stop 1
        pure (value, at_)

/-- The digit loop, with a bound on its rounds that is never reached. -/
def skipDigits (text : Span UInt8) : ℕ → ℕ → Checked ℕ
  | 0, _ => fault .outside
  | rounds + 1, at_ => do
      if at_ < text.size then
        if isDigit (← text.at at_) then
          let at_ ← advance at_ 1
          skipDigits text rounds at_
        else pure at_
      else pure at_

/-- The integer that begins at one offset and has its first digit at another. -/
def takeDigitsAt (text : Span UInt8) (begin firstDigit : ℕ) : Checked (ℤ × ℕ) := do
  let at_ ← skipDigits text (text.size + 1) firstDigit
  let digitCount := at_ - firstDigit
  if digitCount = 0 then reject
  else
    let lead ← text.at firstDigit
    if (1 < digitCount ∧ lead = zeroDigit) ∨
        (firstDigit ≠ begin ∧ digitCount = 1 ∧ lead = zeroDigit) then reject
    else
      let digits ← text.substr begin (at_ - begin)
      match fromChars (firstDigit ≠ begin) (digits.drop (firstDigit - begin)) with
      | none => reject
      | some number => pure (number, at_)

def takeIntegerAt (text : Span UInt8) (begin : ℕ) : Checked (ℤ × ℕ) := do
  if begin < text.size then
    if (← text.at begin) = minus then
      let firstDigit ← advance begin 1
      takeDigitsAt text begin firstDigit
    else takeDigitsAt text begin begin
  else takeDigitsAt text begin begin

/-- Whether a quote stands at the offset. -/
def isQuotedAt (text : Span UInt8) (at_ : ℕ) : Checked Bool :=
  if at_ < text.size then (· == quoteMark) <$> text.at at_ else pure false

def takeValueAt (text : Span UInt8) (at_ : ℕ) : Checked (JsonValue × ℕ) := do
  if ← isQuotedAt text at_ then
    let (value, at_) ← takeStringAt text at_
    pure (.text value, at_)
  else
    match ← attempt (takeWordAt text (ascii "null") at_) with
    | some (_, at_) => pure (.null, at_)
    | none =>
        match ← attempt (takeWordAt text (ascii "true") at_) with
        | some (_, at_) => pure (.boolean true, at_)
        | none =>
            match ← attempt (takeWordAt text (ascii "false") at_) with
            | some (_, at_) => pure (.boolean false, at_)
            | none => do
                let (number, at_) ← takeIntegerAt text at_
                pure (.integer number, at_)

def takeMemberAt (text : Span UInt8) (at_ : ℕ) : Checked (JsonMember × ℕ) := do
  let (name, at_) ← takeStringAt text at_
  let (_, at_) ← takeAt text colon at_
  let (value, at_) ← takeValueAt text at_
  pure (⟨name, value⟩, at_)

/-- The member loop, with a bound on its rounds that is never reached. -/
def readMembersAt (text : Span UInt8) : ℕ → ℕ → Checked (List JsonMember × ℕ)
  | 0, _ => fault .outside
  | rounds + 1, at_ => do
      let (member, at_) ← takeMemberAt text at_
      match ← attempt (takeAt text closeBrace at_) with
      | some (_, at_) => pure ([member], at_)
      | none => do
          let (_, at_) ← takeAt text comma at_
          let (members, at_) ← readMembersAt text rounds at_
          pure (member :: members, at_)

def readObjectAt (text : Span UInt8) : Checked (List JsonMember × ℕ) := do
  let (_, at_) ← takeAt text openBrace 0
  match ← attempt (takeAt text closeBrace at_) with
  | some (_, at_) => pure ([], at_)
  | none => readMembersAt text (text.size + 1) at_

def parseFlatObjectAt (text : Span UInt8) : Checked (List JsonMember) := do
  let (members, at_) ← readObjectAt text
  if at_ ≠ text.size then reject else pure members

section Reader

variable {text : Span UInt8} {at_ : ℕ}

theorem follows_take (expected : UInt8) (at_ : ℕ) :
    Follows text (takeAt text expected at_)
      ((take expected (text.data.drop at_)).map (Prod.mk ())) := by
  rw [takeAt]
  by_cases hend : at_ ≥ text.size
  · rw [if_pos hend, List.drop_eq_nil_of_le hend]
    exact follows_reject
  have hlt : at_ < text.data.length := not_le.mp hend
  have hsize := text.length_lt
  rw [if_neg hend, Span.at_eq (List.getElem?_eq_getElem hlt), pure_bind,
    List.drop_eq_getElem_cons hlt, take]
  by_cases hc : text.data[at_] = expected
  · rw [if_neg (not_not.mpr hc), if_pos hc, advance_eq (by omega), pure_bind]
    exact follows_pure hlt
  · rw [if_pos hc, if_neg hc]
    exact follows_reject

theorem follows_takeWord (word : ByteString) (hat : at_ ≤ text.size) :
    Follows text (takeWordAt text word at_)
      ((takeWord word (text.data.drop at_)).map (Prod.mk ())) := by
  have hsize := text.length_lt
  rw [takeWordAt, Span.substr_eq hat, pure_bind, takeWord]
  by_cases hword : (text.data.drop at_).take word.length = word
  · have hlong : at_ + word.length ≤ text.size := by
      have hlength := congrArg List.length hword
      rw [List.length_take, List.length_drop] at hlength
      rw [Span.size] at hat ⊢
      omega
    have hlist : word.isPrefixOf (text.data.drop at_) = true :=
      List.isPrefixOf_iff_prefix.mpr (List.prefix_iff_eq_take.mpr hword.symm)
    rw [if_neg (not_not.mpr hword), if_pos hlist,
      advance_eq (by rw [Span.size] at hlong; omega), pure_bind, List.drop_drop]
    exact follows_pure hlong
  · have hlist : ¬word.isPrefixOf (text.data.drop at_) = true := fun h =>
      hword (List.prefix_iff_eq_take.mp (List.isPrefixOf_iff_prefix.mp h)).symm
    rw [if_pos hword, if_neg hlist]
    exact follows_reject

/-- An element stands first behind all the others. -/
theorem idxOf?_eq (value : UInt8) (list : ByteString) :
    (∃ tail, list = list.takeWhile (· != value) ++ value :: tail ∧
      list.idxOf? value = some (list.takeWhile (· != value)).length) ∨
    (list.takeWhile (· != value) = list ∧ list.idxOf? value = none) := by
  induction list with
  | nil => exact .inr ⟨rfl, rfl⟩
  | cons c list ih =>
      by_cases hc : c = value
      · exact .inl ⟨list, by simp [hc], by simp [hc, List.idxOf?_cons]⟩
      · have hkeep : (c :: list).takeWhile (· != value) = c :: list.takeWhile (· != value) := by
          simp [hc]
        have hskip : (c :: list).idxOf? value = (list.idxOf? value).map (· + 1) := by
          simp [hc, List.idxOf?_cons]
        rw [hkeep, hskip]
        rcases ih with ⟨tail, hlist, hindex⟩ | ⟨hlist, hindex⟩
        · refine .inl ⟨tail, by rw [List.cons_append, ← hlist], ?_⟩
          rw [hindex, Option.map_some, List.length_cons]
        · exact .inr ⟨by rw [hlist], by rw [hindex, Option.map_none]⟩

/-- The rest of a string after its opening quote. -/
def takeQuoted (text : ByteString) : Option (ByteString × ByteString) := do
  let value := text.takeWhile (· != quoteMark)
  let rest ← take quoteMark (text.drop value.length)
  if isPlainText value then some (value, rest) else none

theorem takeString_eq (rest : ByteString) :
    takeString rest = (take quoteMark rest).map (Prod.mk ()) >>= fun pair => takeQuoted pair.2 := by
  rw [takeString]
  cases take quoteMark rest with
  | none => rfl
  | some rest => rfl

theorem follows_takeString (at_ : ℕ) :
    Follows text (takeStringAt text at_) (takeString (text.data.drop at_)) := by
  rw [takeString_eq, takeStringAt]
  refine (follows_take quoteMark at_).bind fun _ at_ hat => ?_
  have hsize := text.length_lt
  simp only [takeQuoted, Span.find]
  rcases idxOf?_eq quoteMark (text.data.drop at_) with ⟨tail, hdrop, hindex⟩ | ⟨hdrop, hindex⟩
  · generalize hvalue : (text.data.drop at_).takeWhile (· != quoteMark) = value at hdrop hindex
    have hlength := congrArg List.length hdrop
    rw [List.length_drop, List.length_append, List.length_cons] at hlength
    have hrest : (text.data.drop at_).drop value.length = quoteMark :: tail := by
      rw [hdrop, List.drop_left]
    have htail : tail = text.data.drop (at_ + value.length + 1) := by
      rw [← List.drop_drop, ← List.drop_drop, hrest, List.drop_succ_cons, List.drop_zero]
    simp only [hindex, Option.map_some]
    rw [Span.substr_eq hat, pure_bind, Nat.add_sub_cancel_left, hrest, take_cons]
    rw [show (text.data.drop at_).take value.length = value by rw [hdrop, List.take_left]]
    simp only [Option.bind_eq_bind, Option.bind_some]
    by_cases hplain : isPlainText value = true
    · rw [if_neg (by simp [hplain]), if_pos hplain, advance_eq (by omega), pure_bind, htail]
      exact follows_pure (by rw [Span.size]; omega)
    · rw [if_pos (by simp [hplain]), if_neg hplain]
      exact follows_reject
  · simp only [hindex, Option.map_none, hdrop, List.drop_length]
    exact follows_reject

theorem skipDigits_eq {rounds : ℕ} (hrounds : text.size < at_ + rounds) (hat : at_ ≤ text.size) :
    skipDigits text rounds at_ =
      pure (at_ + ((text.data.drop at_).takeWhile isDigit).length) := by
  induction rounds generalizing at_ with
  | zero => omega
  | succ rounds ih =>
      rw [skipDigits]
      by_cases hlt : at_ < text.size
      · have hdata : at_ < text.data.length := hlt
        have hsize := text.length_lt
        rw [if_pos hlt, Span.at_eq (List.getElem?_eq_getElem hdata), pure_bind,
          List.drop_eq_getElem_cons hdata, List.takeWhile_cons]
        by_cases hdigit : isDigit text.data[at_] = true
        · rw [if_pos hdigit, if_pos hdigit, advance_eq (by omega), pure_bind,
            ih (by omega) (by omega), List.length_cons, Nat.add_right_comm, Nat.add_assoc]
        · rw [if_neg hdigit, if_neg hdigit]
          rfl
      · rw [if_neg hlt, List.drop_eq_nil_of_le (not_lt.mp hlt)]
        rfl

/-- The integer after its sign. -/
def takeDigits (negative : Bool) (unsigned : ByteString) : Option (ℤ × ByteString) :=
  let digits := unsigned.takeWhile isDigit
  if digits.length = 0 ∨ (1 < digits.length ∧ digits.head? = some zeroDigit) ∨
      (negative = true ∧ digits.length = 1 ∧ digits.head? = some zeroDigit) then none
  else (fromChars negative digits).map fun number => (number, unsigned.drop digits.length)

theorem follows_takeDigits {begin firstDigit : ℕ} (hbegin : begin ≤ firstDigit)
    (hfirst : firstDigit ≤ text.size) :
    Follows text (takeDigitsAt text begin firstDigit)
      (takeDigits (firstDigit ≠ begin) (text.data.drop firstDigit)) := by
  rw [takeDigitsAt, skipDigits_eq (by omega) hfirst, pure_bind, takeDigits]
  generalize hdigits : (text.data.drop firstDigit).takeWhile isDigit = digits
  have hrest : text.data.drop firstDigit = digits ++ text.data.drop (firstDigit + digits.length) := by
    rw [← List.drop_drop, ← hdigits]
    exact (List.prefix_iff_eq_append.mp (List.takeWhile_prefix _)).symm
  have hlength := congrArg List.length hrest
  rw [List.length_append, List.length_drop, List.length_drop] at hlength
  simp only [Nat.add_sub_cancel_left]
  by_cases hcount : digits.length = 0
  · rw [if_pos hcount, if_pos (.inl hcount)]
    exact follows_reject
  have hbound : firstDigit < text.data.length := by omega
  have hhead : digits.head? = some text.data[firstDigit] := by
    have hne : digits ≠ [] := fun h => hcount (h ▸ rfl)
    rw [← List.head?_append_of_ne_nil digits hne, ← hrest, List.drop_eq_getElem_cons hbound,
      List.head?_cons]
  have hsubstr : ((text.data.drop begin).take (firstDigit + digits.length - begin)).drop
      (firstDigit - begin) = digits := by
    rw [List.drop_take, List.drop_drop, Nat.add_sub_cancel' hbegin, hrest,
      show firstDigit + digits.length - begin - (firstDigit - begin) = digits.length by omega,
      List.take_left]
  rw [if_neg hcount, Span.at_eq (List.getElem?_eq_getElem hbound), pure_bind, hhead]
  simp only [hcount, false_or, Option.some.injEq, decide_eq_true_iff]
  by_cases hrefused : (1 < digits.length ∧ text.data[firstDigit] = zeroDigit) ∨
      (firstDigit ≠ begin ∧ digits.length = 1 ∧ text.data[firstDigit] = zeroDigit)
  · rw [if_pos hrefused, if_pos hrefused]
    exact follows_reject
  rw [if_neg hrefused, if_neg hrefused, Span.substr_eq (by omega), pure_bind, hsubstr]
  cases fromChars (firstDigit ≠ begin) digits with
  | none => exact follows_reject
  | some number =>
      rw [Option.map_some, List.drop_drop]
      exact follows_pure (by rw [Span.size]; omega)

theorem follows_takeInteger {begin : ℕ} (hbegin : begin ≤ text.size) :
    Follows text (takeIntegerAt text begin) (takeInteger (text.data.drop begin)) := by
  have hsize := text.length_lt
  rw [takeIntegerAt]
  by_cases hlt : begin < text.size
  · have hdata : begin < text.data.length := hlt
    rw [if_pos hlt, Span.at_eq (List.getElem?_eq_getElem hdata), pure_bind]
    by_cases hminus : text.data[begin] = minus
    · rw [if_pos hminus, advance_eq (by omega), pure_bind]
      have hmodel : takeInteger (text.data.drop begin) = takeDigits true (text.data.drop (begin + 1)) := by
        rw [List.drop_eq_getElem_cons hdata, hminus]
        rfl
      rw [hmodel]
      simpa using follows_takeDigits (Nat.le_succ begin) hdata
    · rw [if_neg hminus]
      have hmodel : takeInteger (text.data.drop begin) = takeDigits false (text.data.drop begin) := by
        have hhead : ((text.data.drop begin).head? == some minus) = false := by
          rw [List.drop_eq_getElem_cons hdata, List.head?_cons]
          simpa using hminus
        simp only [takeInteger, hhead]
        rfl
      rw [hmodel]
      simpa using follows_takeDigits (le_refl begin) hbegin
  · rw [if_neg hlt]
    have hmodel : takeInteger (text.data.drop begin) = takeDigits false (text.data.drop begin) := by
      rw [List.drop_eq_nil_of_le (not_lt.mp hlt)]
      rfl
    rw [hmodel]
    simpa using follows_takeDigits (le_refl begin) hbegin

theorem isQuotedAt_eq (at_ : ℕ) :
    isQuotedAt text at_ = pure (decide ((text.data.drop at_).head? = some quoteMark)) := by
  rw [isQuotedAt]
  by_cases hlt : at_ < text.size
  · have hdata : at_ < text.data.length := hlt
    rw [if_pos hlt, Span.at_eq (List.getElem?_eq_getElem hdata), map_pure,
      List.drop_eq_getElem_cons hdata, List.head?_cons]
    simp only [Option.some.injEq, beq_eq_decide]
  · rw [if_neg hlt, List.drop_eq_nil_of_le (not_lt.mp hlt)]
    rfl

theorem follows_takeValue (hat : at_ ≤ text.size) :
    Follows text (takeValueAt text at_) (takeValue (text.data.drop at_)) := by
  rw [takeValueAt, isQuotedAt_eq, pure_bind, takeValue]
  by_cases hquote : (text.data.drop at_).head? = some quoteMark
  · rw [if_pos (decide_eq_true hquote), if_pos hquote]
    exact (follows_takeString at_).map JsonValue.text
  rw [if_neg (by simpa using hquote), if_neg hquote]
  rcases (follows_takeWord (ascii "null") hat).token with ⟨hnull, hread⟩ | ⟨stop, hstop, hnull, hread⟩
  · rw [hread, attempt_reject, pure_bind, hnull]
    rcases (follows_takeWord (ascii "true") hat).token with ⟨htrue, hread⟩ | ⟨stop, hstop, htrue, hread⟩
    · simp only [hread, attempt_reject, pure_bind, htrue]
      rcases (follows_takeWord (ascii "false") hat).token with ⟨hfalse, hread⟩ | ⟨stop, hstop, hfalse, hread⟩
      · simp only [hread, attempt_reject, pure_bind, hfalse]
        exact (follows_takeInteger hat).map JsonValue.integer
      · simp only [hread, attempt_pure, pure_bind, hfalse]
        exact follows_pure hstop
    · simp only [hread, attempt_pure, pure_bind, htrue]
      exact follows_pure hstop
  · rw [hread, attempt_pure, pure_bind, hnull]
    exact follows_pure hstop

theorem follows_takeMember (at_ : ℕ) :
    Follows text (takeMemberAt text at_) (takeMember (text.data.drop at_)) := by
  refine (follows_takeString at_).bind fun name at_ _ => ?_
  have hcolon : Follows text (takeAt text colon at_) _ := follows_take colon at_
  rcases hcolon.token with ⟨hcolon, hread⟩ | ⟨afterColon, hafterColon, hcolon, hread⟩
  · simp only [hread, hcolon]
    exact follows_reject
  · simp only [hread, hcolon, pure_bind, Option.bind_eq_bind, Option.bind_some]
    exact (follows_takeValue hafterColon).bind fun value at_ hat => follows_pure hat

theorem length_of_takeMember {member : JsonMember} {rest after : ByteString}
    (htake : takeMember rest = some (member, after)) : after.length < rest.length := by
  rw [eq_renderMember_of_takeMember htake, List.length_append, renderMember, List.length_append,
    List.length_cons]
  omega

/-- A round takes a byte, so as many rounds as bytes are left, and one, are enough. -/
theorem follows_readMembers {rounds turns : ℕ} (hat : at_ ≤ text.size)
    (hrounds : (text.data.drop at_).length < rounds)
    (hturns : (text.data.drop at_).length ≤ turns) :
    Follows text (readMembersAt text rounds at_) (readMembers turns (text.data.drop at_)) := by
  induction rounds generalizing turns at_ with
  | zero => exact absurd hrounds (Nat.not_lt_zero _)
  | succ rounds ih =>
      have hmember : Follows text (takeMemberAt text at_) _ := follows_takeMember at_
      rw [readMembersAt]
      rcases hmember.outcome with ⟨hmember, hread⟩ | ⟨member, afterMember, hafter, hmember, hread⟩
      · have hnone : readMembers turns (text.data.drop at_) = none := by
          cases turns with
          | zero => rfl
          | succ turns => rw [readMembers_succ, hmember]; rfl
        rw [hread, hnone]
        exact follows_reject
      · have hlength := length_of_takeMember hmember
        obtain ⟨turns, rfl⟩ : ∃ fewer, turns = fewer + 1 := ⟨turns - 1, by omega⟩
        rw [readMembers_succ, hread, hmember, pure_bind]
        simp only [Option.bind_some]
        rcases (follows_take closeBrace afterMember).token with
          ⟨hclose, hread⟩ | ⟨afterClose, hafterClose, hclose, hread⟩
        · rw [hread, hclose, attempt_reject, pure_bind]
          simp only
          rcases (follows_take comma afterMember).token with
            ⟨hcomma, hread⟩ | ⟨afterComma, hafterComma, hcomma, hread⟩
          · rw [hread, hcomma]
            exact follows_reject
          · have hlengthComma := congrArg List.length (eq_cons_of_take hcomma)
            rw [List.length_cons] at hlengthComma
            rw [hread, hcomma, pure_bind]
            simp only [Option.bind_some]
            exact (ih hafterComma (by omega) (by omega)).map (member :: ·)
        · rw [hread, hclose, attempt_pure, pure_bind]
          exact follows_pure hafterClose

/-- The object before the end of the text is asked for. -/
def readObject (text : ByteString) : Option (List JsonMember × ByteString) := do
  let text ← take openBrace text
  match take closeBrace text with
  | some rest => some ([], rest)
  | none => readMembers text.length text

theorem parseFlatObject_eq (text : ByteString) :
    parseFlatObject text =
      (readObject text).bind fun pair => if pair.2.isEmpty then some pair.1 else none := by
  rw [parseFlatObject, readObject]
  cases take openBrace text with
  | none => rfl
  | some inner =>
      cases htake : take closeBrace inner with
      | none => simp only [Option.bind_eq_bind, Option.bind_some, htake]
      | some rest => simp only [Option.bind_eq_bind, Option.bind_some, htake]

theorem follows_readObject (text : Span UInt8) :
    Follows text (readObjectAt text) (readObject text.data) := by
  rw [readObjectAt, readObject]
  rcases (follows_take openBrace 0).token with
    ⟨hopen, hread⟩ | ⟨afterOpen, hafterOpen, hopen, hread⟩
  · rw [List.drop_zero] at hopen
    rw [hread, hopen]
    exact follows_reject
  rw [List.drop_zero] at hopen
  rw [hread, hopen, pure_bind]
  simp only [Option.bind_eq_bind, Option.bind_some]
  rcases (follows_take closeBrace afterOpen).token with
    ⟨hclose, hread⟩ | ⟨afterClose, hafterClose, hclose, hread⟩
  · rw [hread, hclose, attempt_reject, pure_bind]
    refine follows_readMembers hafterOpen ?_ (le_refl _)
    rw [List.length_drop, Span.size]
    omega
  · rw [hread, hclose, attempt_pure, pure_bind]
    exact follows_pure hafterClose

/-- The reader accepts what the model accepts, ends, and stays inside the text. -/
theorem parseFlatObjectAt_eq (text : Span UInt8) :
    parseFlatObjectAt text = (parseFlatObject text.data).elim reject pure := by
  rw [parseFlatObject_eq]
  exact (follows_readObject text).whole

end Reader

end Sitos.FlatJson

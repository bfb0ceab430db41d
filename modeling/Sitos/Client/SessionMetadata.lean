import Sitos.Catalog.FlatReader
import Sitos.Core.Json
import Sitos.Wire.Fence

/-!
# The session metadata that a publisher reads

A publisher learns the generation of its session from a JSON document that the node replies with.
The parser walks the text once: it keeps the three members it knows, which have to be strings, and
skips the others.

It is written down twice.  The first reader moves an offset as the source does and is checked at
every access; the second one takes phrases off the front of the text.
-/

namespace Sitos.SessionMetadata

open Sitos.AckResult
open Sitos.Bytes
open Sitos.Cursor
open Sitos.FenceWire
open Sitos.FlatJson (take takeAt takeWord takeWordAt)
open Sitos.Json

/-! ## Constants -/

def kMetadataMax : ℕ := 16384

def kSkipDepthMax : ℕ := 16

def kState : ByteString := ascii "state"
def kCreatedAt : ByteString := ascii "created_at"
def kGenerationUuid : ByteString := ascii "generation_uuid"

def knownMembers : List ByteString := [kState, kCreatedAt, kGenerationUuid]

/-! ## Code points -/

def hexValue (value : UInt8) : Option ℕ :=
  if 0x30 ≤ value ∧ value ≤ 0x39 then some (value.toNat - 0x30)
  else if 0x61 ≤ value ∧ value ≤ 0x66 then some (value.toNat - 0x57)
  else if 0x41 ≤ value ∧ value ≤ 0x46 then some (value.toNat - 0x37)
  else none

def appendCodePoint (codePoint : ℕ) : ByteString :=
  if codePoint ≤ 0x7F then [UInt8.ofNat codePoint]
  else if codePoint ≤ 0x7FF then
    [UInt8.ofNat (0xC0 + codePoint / 64), UInt8.ofNat (0x80 + codePoint % 64)]
  else if codePoint ≤ 0xFFFF then
    [UInt8.ofNat (0xE0 + codePoint / 4096), UInt8.ofNat (0x80 + codePoint / 64 % 64),
      UInt8.ofNat (0x80 + codePoint % 64)]
  else
    [UInt8.ofNat (0xF0 + codePoint / 262144), UInt8.ofNat (0x80 + codePoint / 4096 % 64),
      UInt8.ofNat (0x80 + codePoint / 64 % 64), UInt8.ofNat (0x80 + codePoint % 64)]

/-- How many bytes a leading byte asks for; none when it cannot lead. -/
def width (value : UInt8) : ℕ :=
  if 0xF0 ≤ value then 4 else if 0xE0 ≤ value then 3 else if 0xC2 ≤ value then 2 else 0

/-- The bits of a leading byte that belong to the code point. -/
def leadBits (value : UInt8) : ℕ := value.toNat % 2 ^ (7 - width value)

def minimum (width : ℕ) : ℕ := if width = 2 then 0x80 else if width = 3 then 0x800 else 0x10000

def isRefused (width codePoint : ℕ) : Bool :=
  codePoint < minimum width || 0x10FFFF < codePoint || (0xD800 ≤ codePoint && codePoint ≤ 0xDFFF)

/-- The characters that stand behind a backslash, other than `u`. -/
def escapeOf (escaped : UInt8) : Option UInt8 :=
  if escaped = quotationMark ∨ escaped = reverseSolidus ∨ escaped = 0x2F then some escaped
  else if escaped = 0x62 then some 0x08
  else if escaped = 0x66 then some 0x0C
  else if escaped = 0x6E then some 0x0A
  else if escaped = 0x72 then some 0x0D
  else if escaped = 0x74 then some 0x09
  else none

/-! ## What was read of the members -/

structure Fields where
  state : Option ByteString
  createdAt : Option ByteString
  generation : Option ByteString
  deriving DecidableEq, Repr

def Fields.unseen : Fields := ⟨none, none, none⟩

/-- Whether a known member was seen. -/
def Fields.seen (fields : Fields) (key : ByteString) : Bool :=
  if key = kState then fields.state.isSome
  else if key = kCreatedAt then fields.createdAt.isSome
  else fields.generation.isSome

def Fields.set (fields : Fields) (key value : ByteString) : Fields :=
  if key = kState then { fields with state := some value }
  else if key = kCreatedAt then { fields with createdAt := some value }
  else { fields with generation := some value }

/-- What the parser makes of the members when the text ends behind them. -/
def Fields.result (fields : Fields) : Option FenceUuid :=
  match fields.state, fields.createdAt, fields.generation with
  | some state, some _, some generation =>
      if state ≠ ascii "active" then none
      else
        match parseFenceUuid generation with
        | none => none
        | some parsed => if formatFenceUuid parsed ≠ generation then none else some parsed
  | _, _, _ => none

/-! ## The parser at its offset -/

/-- The byte at the offset, if the text reaches that far. -/
def peekAt (text : Span UInt8) (at_ : ℕ) : Checked (Option UInt8) :=
  if at_ < text.size then some <$> text.at at_ else pure none

def hexDigitsAt (text : Span UInt8) (at_ : ℕ) : ℕ → ℕ → Checked ℕ
  | 0, result => pure result
  | count + 1, result => do
      match hexValue (← text.at at_) with
      | none => reject
      | some digit => hexDigitsAt text (at_ + 1) count (result * 16 + digit)

def readHex4At (text : Span UInt8) (at_ : ℕ) : Checked (ℕ × ℕ) := do
  let stop ← advance at_ 4
  if stop > text.size then reject
  else
    let value ← hexDigitsAt text at_ 4 0
    pure (value, stop)

def parseUnicodeEscapeAt (text : Span UInt8) (at_ : ℕ) : Checked (ByteString × ℕ) := do
  let (first, at_) ← readHex4At text at_
  if 0xDC00 ≤ first ∧ first ≤ 0xDFFF then reject
  else if 0xD800 ≤ first ∧ first ≤ 0xDBFF then
    let stop ← advance at_ 2
    if stop > text.size then reject
    else if (← text.at at_) ≠ reverseSolidus then reject
    else if (← text.at (at_ + 1)) ≠ unicodeMark then reject
    else
      let (second, at_) ← readHex4At text stop
      if second < 0xDC00 ∨ 0xDFFF < second then reject
      else pure (appendCodePoint (0x10000 + (first - 0xD800) * 0x400 + (second - 0xDC00)), at_)
  else pure (appendCodePoint first, at_)

/-- The white space loop, with a bound on its rounds that is never reached. -/
def skipSpacesAt (text : Span UInt8) : ℕ → ℕ → Checked ℕ
  | 0, _ => fault .outside
  | rounds + 1, at_ => do
      match ← peekAt text at_ with
      | none => pure at_
      | some value =>
          if isSpace value then
            let at_ ← advance at_ 1
            skipSpacesAt text rounds at_
          else pure at_

def skipWhitespaceAt (text : Span UInt8) (at_ : ℕ) : Checked ℕ :=
  skipSpacesAt text (text.size + 1) at_

def continuationsAt (text : Span UInt8) (at_ : ℕ) : ℕ → ℕ → Checked (ℕ × ℕ)
  | 0, codePoint => pure (codePoint, at_)
  | count + 1, codePoint => do
      let continuation ← text.at at_
      let next ← advance at_ 1
      if !isContinuation continuation then reject
      else continuationsAt text next count (codePoint * 64 + continuationBits continuation)

/-- What follows a byte that is neither ASCII nor a backslash. -/
def multibyteAt (text : Span UInt8) (value : UInt8) (at_ : ℕ) : Checked (ByteString × ℕ) := do
  if width value = 0 then reject
  else
    let stop ← advance at_ (width value - 1)
    if stop > text.size then reject
    else
      let (codePoint, at_) ← continuationsAt text at_ (width value - 1) (leadBits value)
      if isRefused (width value) codePoint then reject
      else pure (appendCodePoint codePoint, at_)

/-- What follows a backslash. -/
def escapeAt (text : Span UInt8) (at_ : ℕ) : Checked (ByteString × ℕ) := do
  if at_ ≥ text.size then reject
  else
    let escaped ← text.at at_
    let at_ ← advance at_ 1
    if escaped = unicodeMark then parseUnicodeEscapeAt text at_
    else
      match escapeOf escaped with
      | none => reject
      | some value => pure ([value], at_)

/-- The rest of a character of a string whose first byte was read. -/
def characterAt (text : Span UInt8) (value : UInt8) (at_ : ℕ) : Checked (ByteString × ℕ) :=
  if value < 0x20 then reject
  else if value ≠ reverseSolidus then
    if value < 0x80 then pure ([value], at_) else multibyteAt text value at_
  else escapeAt text at_

/-- The character loop, with a bound on its rounds that is never reached. -/
def charactersAt (text : Span UInt8) : ℕ → ℕ → Checked (ByteString × ℕ)
  | 0, _ => fault .outside
  | rounds + 1, at_ => do
      if at_ < text.size then
        let value ← text.at at_
        let at_ ← advance at_ 1
        if value = quotationMark then pure ([], at_)
        else
          let (piece, at_) ← characterAt text value at_
          let (output, at_) ← charactersAt text rounds at_
          pure (piece ++ output, at_)
      else reject

def parseStringAt (text : Span UInt8) (at_ : ℕ) : Checked (ByteString × ℕ) := do
  let (_, at_) ← takeAt text quotationMark at_
  charactersAt text (text.size + 1) at_

def skipDigitsAt (text : Span UInt8) (at_ : ℕ) : Checked ℕ :=
  FlatJson.skipDigits text (text.size + 1) at_

def skipIntAt (text : Span UInt8) (at_ : ℕ) : Checked (Unit × ℕ) := do
  if at_ ≥ text.size then reject
  else
    let first ← text.at at_
    if first = zero then
      let at_ ← advance at_ 1
      match ← peekAt text at_ with
      | none => pure ((), at_)
      | some next => if isDigit next then reject else pure ((), at_)
    else if first < 0x31 ∨ 0x39 < first then reject
    else
      let at_ ← skipDigitsAt text at_
      pure ((), at_)

/-- One digit at least. -/
def requireDigitsAt (text : Span UInt8) (at_ : ℕ) : Checked (Unit × ℕ) := do
  let stop ← skipDigitsAt text at_
  if stop = at_ then reject else pure ((), stop)

def skipFractionAt (text : Span UInt8) (at_ : ℕ) : Checked (Unit × ℕ) := do
  match ← peekAt text at_ with
  | none => pure ((), at_)
  | some value =>
      if value = decimalPoint then
        let at_ ← advance at_ 1
        requireDigitsAt text at_
      else pure ((), at_)

def skipSignAt (text : Span UInt8) (at_ : ℕ) : Checked ℕ := do
  match ← peekAt text at_ with
  | none => pure at_
  | some value => if value = plus ∨ value = minus then advance at_ 1 else pure at_

def skipExponentAt (text : Span UInt8) (at_ : ℕ) : Checked (Unit × ℕ) := do
  match ← peekAt text at_ with
  | none => pure ((), at_)
  | some value =>
      if value = 0x65 ∨ value = 0x45 then
        let at_ ← advance at_ 1
        let at_ ← skipSignAt text at_
        requireDigitsAt text at_
      else pure ((), at_)

/-- A number that begins with the byte at the offset. -/
def skipNumberAt (text : Span UInt8) (first : UInt8) (at_ : ℕ) : Checked (Unit × ℕ) := do
  if first ≠ minus ∧ !isDigit first then reject
  else
    let at_ ← if first = minus then advance at_ 1 else pure at_
    let (_, at_) ← skipIntAt text at_
    let (_, at_) ← skipFractionAt text at_
    skipExponentAt text at_

def skipLiteralAt (text : Span UInt8) (at_ : ℕ) : List ByteString → Checked (Option ℕ)
  | [] => pure none
  | word :: words => do
      match ← attempt (takeWordAt text word at_) with
      | some (_, at_) => pure (some at_)
      | none => skipLiteralAt text at_ words

mutual

/-- The recursion and its loops, with a bound on their rounds that is never reached. -/
def skipValueAt (text : Span UInt8) : ℕ → ℕ → ℕ → Checked (Unit × ℕ)
  | 0, _, _ => fault .outside
  | rounds + 1, depth, at_ =>
      if depth > kSkipDepthMax ∨ at_ ≥ text.size then reject
      else do
        let first ← text.at at_
        if first = quotationMark then
          let (_, at_) ← parseStringAt text at_
          pure ((), at_)
        else if first = beginObject then
          let at_ ← advance at_ 1
          let at_ ← skipWhitespaceAt text at_
          match ← attempt (takeAt text endObject at_) with
          | some closed => pure closed
          | none => skipMembersAt text rounds depth at_
        else if first = beginArray then
          let at_ ← advance at_ 1
          let at_ ← skipWhitespaceAt text at_
          match ← attempt (takeAt text endArray at_) with
          | some closed => pure closed
          | none => skipElementsAt text rounds depth at_
        else
          match ← skipLiteralAt text at_ literals with
          | some at_ => pure ((), at_)
          | none => skipNumberAt text first at_

def skipMembersAt (text : Span UInt8) : ℕ → ℕ → ℕ → Checked (Unit × ℕ)
  | 0, _, _ => fault .outside
  | rounds + 1, depth, at_ => do
      let (_, at_) ← parseStringAt text at_
      let at_ ← skipWhitespaceAt text at_
      let (_, at_) ← takeAt text nameSeparator at_
      let at_ ← skipWhitespaceAt text at_
      let (_, at_) ← skipValueAt text rounds (depth + 1) at_
      let at_ ← skipWhitespaceAt text at_
      match ← attempt (takeAt text endObject at_) with
      | some closed => pure closed
      | none => do
          let (_, at_) ← takeAt text valueSeparator at_
          let at_ ← skipWhitespaceAt text at_
          skipMembersAt text rounds depth at_

def skipElementsAt (text : Span UInt8) : ℕ → ℕ → ℕ → Checked (Unit × ℕ)
  | 0, _, _ => fault .outside
  | rounds + 1, depth, at_ => do
      let (_, at_) ← skipValueAt text rounds (depth + 1) at_
      let at_ ← skipWhitespaceAt text at_
      match ← attempt (takeAt text endArray at_) with
      | some closed => pure closed
      | none => do
          let (_, at_) ← takeAt text valueSeparator at_
          let at_ ← skipWhitespaceAt text at_
          skipElementsAt text rounds depth at_

end

/-- As many rounds as `SkipValue` can need. -/
def skipRounds (length : ℕ) : ℕ := 2 * length + 1

/-- The value of a member. -/
def parseContentAt (text : Span UInt8) (fields : Fields) (key : ByteString) (at_ : ℕ) :
    Checked (Fields × ℕ) :=
  if key ∈ knownMembers then
    if fields.seen key then reject
    else do
      let (value, at_) ← parseStringAt text at_
      pure (fields.set key value, at_)
  else do
    let (_, at_) ← skipValueAt text (skipRounds text.size) 0 at_
    pure (fields, at_)

/-- The member loop, with a bound on its rounds that is never reached. -/
def parseMembersAt (text : Span UInt8) : ℕ → Fields → ℕ → Checked (Fields × ℕ)
  | 0, _, _ => fault .outside
  | rounds + 1, fields, at_ => do
      let (key, at_) ← parseStringAt text at_
      let at_ ← skipWhitespaceAt text at_
      let (_, at_) ← takeAt text nameSeparator at_
      let at_ ← skipWhitespaceAt text at_
      let (fields, at_) ← parseContentAt text fields key at_
      let at_ ← skipWhitespaceAt text at_
      match ← attempt (takeAt text endObject at_) with
      | some (_, at_) => pure (fields, at_)
      | none => do
          let (_, at_) ← takeAt text valueSeparator at_
          let at_ ← skipWhitespaceAt text at_
          parseMembersAt text rounds fields at_

/-- The object and the white space around it. -/
def parseObjectAt (text : Span UInt8) : Checked (Fields × ℕ) := do
  let at_ ← skipWhitespaceAt text 0
  let (_, at_) ← takeAt text beginObject at_
  let at_ ← skipWhitespaceAt text at_
  match ← attempt (takeAt text endObject at_) with
  | some _ => reject
  | none => do
      let (fields, at_) ← parseMembersAt text (text.size + 1) Fields.unseen at_
      let at_ ← skipWhitespaceAt text at_
      pure (fields, at_)

/-- `SessionMetadataParser::Parse`. -/
def parseAt (text : Span UInt8) : Checked FenceUuid := do
  if text.size > kMetadataMax then reject
  else
    let (fields, at_) ← parseObjectAt text
    if at_ ≠ text.size then reject
    else
      match fields.result with
      | none => reject
      | some generation => pure generation

/-! ## The parser on what is left -/

def readHex4 : ByteString → Option (ℕ × ByteString)
  | c1 :: c2 :: c3 :: c4 :: rest => do
      let d1 ← hexValue c1
      let d2 ← hexValue c2
      let d3 ← hexValue c3
      let d4 ← hexValue c4
      some (((d1 * 16 + d2) * 16 + d3) * 16 + d4, rest)
  | _ => none

def parseUnicodeEscape (text : ByteString) : Option (ByteString × ByteString) := do
  let (first, text) ← readHex4 text
  if 0xDC00 ≤ first ∧ first ≤ 0xDFFF then none
  else if 0xD800 ≤ first ∧ first ≤ 0xDBFF then
    let text ← take reverseSolidus text
    let text ← take unicodeMark text
    let (second, text) ← readHex4 text
    if second < 0xDC00 ∨ 0xDFFF < second then none
    else some (appendCodePoint (0x10000 + (first - 0xD800) * 0x400 + (second - 0xDC00)), text)
  else some (appendCodePoint first, text)

def skipWhitespace (text : ByteString) : ByteString := text.dropWhile isSpace

def continuations : ℕ → ℕ → ByteString → Option (ℕ × ByteString)
  | 0, codePoint, text => some (codePoint, text)
  | _ + 1, _, [] => none
  | count + 1, codePoint, continuation :: text =>
      if !isContinuation continuation then none
      else continuations count (codePoint * 64 + continuationBits continuation) text

def multibyte (value : UInt8) (text : ByteString) : Option (ByteString × ByteString) := do
  if width value = 0 then none
  else
    let (codePoint, text) ← continuations (width value - 1) (leadBits value) text
    if isRefused (width value) codePoint then none else some (appendCodePoint codePoint, text)

def escape : ByteString → Option (ByteString × ByteString)
  | [] => none
  | escaped :: text =>
      if escaped = unicodeMark then parseUnicodeEscape text
      else (escapeOf escaped).map fun value => ([value], text)

def character (value : UInt8) (text : ByteString) : Option (ByteString × ByteString) :=
  if value < 0x20 then none
  else if value ≠ reverseSolidus then
    if value < 0x80 then some ([value], text) else multibyte value text
  else escape text

def characters : ℕ → ByteString → Option (ByteString × ByteString)
  | 0, _ => none
  | _ + 1, [] => none
  | rounds + 1, value :: text =>
      if value = quotationMark then some ([], text)
      else do
        let (piece, text) ← character value text
        let (output, text) ← characters rounds text
        some (piece ++ output, text)

def parseString (text : ByteString) : Option (ByteString × ByteString) := do
  let text ← take quotationMark text
  characters (text.length + 1) text

def skipInt : ByteString → Option ByteString
  | [] => none
  | first :: text =>
      if first = zero then if text.head?.any isDigit then none else some text
      else if first < 0x31 ∨ 0x39 < first then none
      else some ((first :: text).dropWhile isDigit)

def requireDigits (text : ByteString) : Option ByteString :=
  if text.head?.any isDigit then some (text.dropWhile isDigit) else none

def skipFraction (text : ByteString) : Option ByteString :=
  match take decimalPoint text with
  | none => some text
  | some text => requireDigits text

def skipSign (text : ByteString) : ByteString :=
  if text.head? = some plus ∨ text.head? = some minus then text.drop 1 else text

def skipExponent (text : ByteString) : Option ByteString :=
  if text.head? = some 0x65 ∨ text.head? = some 0x45 then requireDigits (skipSign (text.drop 1))
  else some text

def skipNumber (text : ByteString) : Option ByteString := do
  if text.head? ≠ some minus ∧ !text.head?.any isDigit then none
  else
    let text ← skipInt (if text.head? = some minus then text.drop 1 else text)
    let text ← skipFraction text
    skipExponent text

def skipLiteral (text : ByteString) : List ByteString → Option ByteString
  | [] => none
  | word :: words => (takeWord word text).or (skipLiteral text words)

mutual

def skipValue : ℕ → ℕ → ByteString → Option ByteString
  | 0, _, _ => none
  | _ + 1, _, [] => none
  | rounds + 1, depth, first :: text =>
      if depth > kSkipDepthMax then none
      else if first = quotationMark then (parseString (first :: text)).map Prod.snd
      else if first = beginObject then
        match take endObject (skipWhitespace text) with
        | some text => some text
        | none => skipMembers rounds depth (skipWhitespace text)
      else if first = beginArray then
        match take endArray (skipWhitespace text) with
        | some text => some text
        | none => skipElements rounds depth (skipWhitespace text)
      else (skipLiteral (first :: text) literals).or (skipNumber (first :: text))

def skipMembers : ℕ → ℕ → ByteString → Option ByteString
  | 0, _, _ => none
  | rounds + 1, depth, text => do
      let (_, text) ← parseString text
      let text ← take nameSeparator (skipWhitespace text)
      let text ← skipValue rounds (depth + 1) (skipWhitespace text)
      match take endObject (skipWhitespace text) with
      | some text => some text
      | none => do
          let text ← take valueSeparator (skipWhitespace text)
          skipMembers rounds depth (skipWhitespace text)

def skipElements : ℕ → ℕ → ByteString → Option ByteString
  | 0, _, _ => none
  | rounds + 1, depth, text => do
      let text ← skipValue rounds (depth + 1) text
      match take endArray (skipWhitespace text) with
      | some text => some text
      | none => do
          let text ← take valueSeparator (skipWhitespace text)
          skipElements rounds depth (skipWhitespace text)

end

def parseContent (rounds : ℕ) (fields : Fields) (key text : ByteString) :
    Option (Fields × ByteString) :=
  if key ∈ knownMembers then
    if fields.seen key then none
    else (parseString text).map fun read => (fields.set key read.1, read.2)
  else (skipValue rounds 0 text).map (Prod.mk fields)

def parseMembers (bound : ℕ) : ℕ → Fields → ByteString → Option (Fields × ByteString)
  | 0, _, _ => none
  | rounds + 1, fields, text => do
      let (key, text) ← parseString text
      let text ← take nameSeparator (skipWhitespace text)
      let (fields, text) ← parseContent bound fields key (skipWhitespace text)
      match take endObject (skipWhitespace text) with
      | some text => some (fields, text)
      | none => do
          let text ← take valueSeparator (skipWhitespace text)
          parseMembers bound rounds fields (skipWhitespace text)

def parseObject (text : ByteString) : Option (Fields × ByteString) := do
  let inner ← take beginObject (skipWhitespace text)
  if (take endObject (skipWhitespace inner)).isSome then none
  else
    let (fields, rest) ← parseMembers (skipRounds text.length) (text.length + 1) Fields.unseen
      (skipWhitespace inner)
    some (fields, skipWhitespace rest)

def parse (text : ByteString) : Option FenceUuid := do
  if text.length > kMetadataMax then none
  else
    let (fields, rest) ← parseObject text
    if !rest.isEmpty then none else fields.result

end Sitos.SessionMetadata

import Sitos.Catalog.FlatJson
import Sitos.Wire.AckResult
import Sitos.Wire.AckToken
import Sitos.Wire.Sample

/-!
# Fence samples

What a Fence adds to a sample: the lane attachment of covered data, and the
marker keys that ask a receiver about one lane.  The strict parser decides which
keys are markers; the loose one recognises misspelled markers so that they can
be answered with an error.
-/

namespace Sitos.FenceWire

open Sitos.Bytes
open Sitos.AckResult
open Sitos.FlatJson
open Sitos.Key
open Sitos.Sample
open Sitos.Token

/-- The 16 bytes of a token under another name. -/
abbrev FenceUuid := AckToken

def kSitosV1Fence : ByteString := ascii "sitos.v1.fence"

def kFenceSchemaVersion : UInt8 := 1

/-- A sequence as an attachment can carry it. -/
abbrev Sequence := { sequence : UInt64 // sequence ≠ 0 }

inductive FenceLaneObservation where
  | absent
  | metadata (publisherUuid : FenceUuid) (sequence : Sequence)
  | malformed (publisherUuid : Option FenceUuid) (sequence : Option Sequence)
  deriving DecidableEq

/-- A sample together with what its attachment says. -/
structure FenceSample extends TransportSample where
  lane : FenceLaneObservation
  ack : Option AckToken
  deriving DecidableEq

/-! ## Marker routes -/

inductive FenceMarkerTarget where
  | cache
  | buffer
  deriving DecidableEq, Repr

structure FenceMarkerRoute where
  target : FenceMarkerTarget
  sid : ByteString
  receiverGeneration : FenceUuid
  bufferClass : Option BufferClass
  publisherUuid : FenceUuid
  durability : AckDurability
  throughSequence : UInt64
  deriving DecidableEq, Repr

/-- Decimal digits only, within 64 bits. -/
def parseLooseSequence (text : ByteString) : Option UInt64 :=
  if text.isEmpty ∨ !text.all isDigit ∨ digitsValue text ≥ 2 ^ 64 then none
  else some (UInt64.ofNat (digitsValue text))

/-- Without leading zeros. -/
def parseCanonicalSequence (text : ByteString) : Option UInt64 :=
  if text.length > 1 ∧ text.head? = some zeroDigit then none else parseLooseSequence text

def toLower (c : UInt8) : UInt8 := if 0x41 ≤ c ∧ c ≤ 0x5A then c + 0x20 else c

def parseFenceUuid (text : ByteString) : Option FenceUuid := parseAckToken text

def parseLooseFenceUuid (text : ByteString) : Option FenceUuid :=
  parseFenceUuid (text.map toLower)

/-- The chunks between slashes, or nothing at all when one of them is empty.  What
follows the last slash may be empty. -/
def splitRoute (text : ByteString) (allowTrailingSlash : Bool) : List ByteString :=
  if text.isEmpty ∨ text.head? = some slash ∨
      (!allowTrailingSlash ∧ text.getLast? = some slash) then []
  else
    let text :=
      if allowTrailingSlash && text.getLast? == some slash then text.dropLast else text
    let chunks := text.splitOn slash
    let chunks := if chunks.getLast? = some [] then chunks.dropLast else chunks
    if chunks.any List.isEmpty then [] else chunks

def stripFencePrefix (keyPrefix fullKey : ByteString) : Option ByteString :=
  if !isValidPrefix keyPrefix then none else stripPrefix keyPrefix fullKey

def parseDurability (text : ByteString) : Option AckDurability :=
  if text = ascii "applied" then some .applied
  else if text = ascii "synced" then some .synced
  else none

/-- The two spellings of a marker key, for one way of reading its parts. -/
def parseRoute (parseUuid : ByteString → Option FenceUuid)
    (parseSequence : ByteString → Option UInt64)
    (isAllowed : BufferClass → AckDurability → Bool) :
    List ByteString → Option FenceMarkerRoute
  | [root, fence, target, sid, receiver, publisher, through] => do
      if root ≠ ascii "meta" ∨ fence ≠ ascii "fence" ∨ target ≠ ascii "cache" then none
      else if !isValidSessionId sid then none
      else
        let receiver ← parseUuid receiver
        let publisher ← parseUuid publisher
        let through ← parseSequence through
        some ⟨.cache, sid, receiver, none, publisher, .applied, through⟩
  | [root, fence, target, sid, receiver, className, publisher, durability, through] => do
      if root ≠ ascii "meta" ∨ fence ≠ ascii "fence" ∨ target ≠ ascii "buffer" then none
      else if !isValidSessionId sid then none
      else
        let receiver ← parseUuid receiver
        let publisher ← parseUuid publisher
        let through ← parseSequence through
        let bufferClass ← parseBufferClass className
        let durability ← parseDurability durability
        if isAllowed bufferClass durability then
          some ⟨.buffer, sid, receiver, some bufferClass, publisher, durability, through⟩
        else none
  | _ => none

/-- An ephemeral buffer has nothing to synchronize. -/
def isSynchronizable : BufferClass → AckDurability → Bool
  | .ephemeral, .synced => false
  | _, _ => true

def parseFenceMarkerRoute (keyPrefix fullKey : ByteString) : Option FenceMarkerRoute := do
  let remainder ← stripFencePrefix keyPrefix fullKey
  parseRoute parseFenceUuid parseCanonicalSequence isSynchronizable (splitRoute remainder false)

def recoverMalformedFenceMarkerRoute (keyPrefix fullKey : ByteString) :
    Option FenceMarkerRoute := do
  let remainder ← stripFencePrefix keyPrefix fullKey
  parseRoute parseLooseFenceUuid parseLooseSequence (fun _ _ => true) (splitRoute remainder true)

/-! ## Marker keys -/

def isValidFenceUuid (uuid : FenceUuid) : Bool := isValidAckToken uuid

def formatFenceUuid (uuid : FenceUuid) : ByteString := formatAckToken uuid

def bufferClassName (bufferClass : BufferClass) : ByteString := bufferClassSegment bufferClass

def durabilityName : AckDurability → ByteString
  | .applied => ascii "applied"
  | .synced => ascii "synced"

def buildCacheFenceMarkerKey (keyPrefix sid : ByteString) (receiverGeneration publisherUuid : FenceUuid)
    (throughSequence : UInt64) : Option ByteString :=
  if !isValidPrefix keyPrefix ∨ !isValidSessionId sid ∨ !isValidFenceUuid receiverGeneration ∨
      !isValidFenceUuid publisherUuid then none
  else
    some (keyPrefix ++ ascii "/meta/fence/cache/" ++ sid ++
      slash :: formatFenceUuid receiverGeneration ++ slash :: formatFenceUuid publisherUuid ++
      slash :: decimal throughSequence.toNat)

def buildBufferFenceMarkerKey (keyPrefix sid : ByteString) (sessionGeneration : FenceUuid)
    (bufferClass : BufferClass) (publisherUuid : FenceUuid) (durability : AckDurability)
    (throughSequence : UInt64) : Option ByteString :=
  if !isValidPrefix keyPrefix ∨ !isValidSessionId sid ∨ !isValidFenceUuid sessionGeneration ∨
      !isValidFenceUuid publisherUuid then none
  else if bufferClass = .ephemeral ∧ durability = .synced then none
  else
    some (keyPrefix ++ ascii "/meta/fence/buffer/" ++ sid ++
      slash :: formatFenceUuid sessionGeneration ++ slash :: bufferClassName bufferClass ++
      slash :: formatFenceUuid publisherUuid ++ slash :: durabilityName durability ++
      slash :: decimal throughSequence.toNat)

/-- The route of a sample, and whether its key is spelled as a marker's. -/
def markerRoute (keyPrefix fullKey : ByteString) : Option (FenceMarkerRoute × Bool) :=
  match parseFenceMarkerRoute keyPrefix fullKey with
  | some route => some (route, true)
  | none => (recoverMalformedFenceMarkerRoute keyPrefix fullKey).map fun route => (route, false)

def decodeFenceMarker (payload : ByteString) : Bool := payload == [kFenceSchemaVersion]

/-- A marker that is answered from the lane. -/
def isFenceMarker (sample : FenceSample) : Bool :=
  sample.kind == .put && sample.encodingId == kSitosV1Fence && decodeFenceMarker sample.payload

end Sitos.FenceWire

import Sitos.Wire.Sample

/-!
# Subscription decoding

How a parameter subscription turns one sample into the changes it reports.
-/

namespace Sitos.Subscription

open Sitos.Bytes
open Sitos.Batch
open Sitos.Key
open Sitos.Sample
open Sitos.Value

abbrev ParamChange := Change ParamValue

inductive Scope where
  | base
  | session (sid : ByteString)
  deriving DecidableEq, Repr

/-- The reported changes, absent for a sample of another scope, and the warning
that was logged. -/
structure Decoded where
  changes : Option (List ParamChange)
  warning : Option String

def matchesScope (parsed : ParsedKey) : Scope → Bool
  | .base => parsed.kind == .base
  | .session sid => parsed.kind == .session && parsed.sid == sid

/-- An empty list prefix selects every key. -/
def isSelected (listPrefix key : ByteString) : Bool :=
  listPrefix.isEmpty || listPrefix.isPrefixOf key

def decodeDelete (listPrefix : ByteString) (parsed : ParsedKey) : Decoded :=
  if parsed.isBatch then ⟨some [], some "batch DELETE is unsupported"⟩
  else if !isSelected listPrefix parsed.relativeKey then ⟨some [], none⟩
  else ⟨some [.delete parsed.relativeKey], none⟩

def decodeBatchSample (listPrefix : ByteString) (sample : TransportSample) : Decoded :=
  if sample.encodingId ≠ kSitosV1Batch then
    ⟨some [], some "batch sample has an unsupported encoding"⟩
  else
    match decodeBatch sample.payload with
    | none => ⟨some [], some "malformed batch sample"⟩
    | some entries =>
        if entries.all fun entry => isValidKey entry.key then
          ⟨some ((entries.filter fun entry => isSelected listPrefix entry.key).map
            fun entry => .put entry.key entry.value), none⟩
        else ⟨some [], some "batch sample contains an invalid key"⟩

def decodeOrdinary (listPrefix : ByteString) (sample : TransportSample)
    (parsed : ParsedKey) : Decoded :=
  if !isSelected listPrefix parsed.relativeKey then ⟨some [], none⟩
  else if sample.encodingId = kSitosV1Batch then
    ⟨some [], some "ordinary sample has batch encoding"⟩
  else if sample.encodingId = kSitosV1 then
    match decode sample.payload with
    | none => ⟨some [], some "malformed sitos.v1 sample"⟩
    | some value => ⟨some [.put parsed.relativeKey value], none⟩
  else
    ⟨some [.put parsed.relativeKey (.bytes sample.payload)],
      some "unknown sample encoding; wrapped as bytes"⟩

def decodeChanges (keyPrefix : ByteString) (scope : Scope) (listPrefix : ByteString)
    (sample : TransportSample) : Decoded :=
  match parseKey keyPrefix sample.key with
  | none => ⟨some [], some "malformed or reserved transport key"⟩
  | some parsed =>
      if !matchesScope parsed scope then ⟨none, none⟩
      else if sample.kind = .delete then decodeDelete listPrefix parsed
      else if parsed.isBatch then decodeBatchSample listPrefix sample
      else decodeOrdinary listPrefix sample parsed

end Sitos.Subscription

import Sitos.Wire.Sample

/-!
# Cache mutations

How a parameter cache reads a sample of its session and applies it to the map
it serves: a put replaces the effective value, a delete falls back to the
snapshot baseline.
-/

namespace Sitos.Mutations

open Sitos.Bytes
open Sitos.Batch
open Sitos.Key
open Sitos.Sample
open Sitos.Value

abbrev Mutation := Change ParamValue

abbrev ValueMap := ByteString → Option ParamValue

def isExpected (parsed : ParsedKey) (sid : ByteString) (batchAllowed : Bool) : Bool :=
  parsed.isBatch == batchAllowed && parsed.kind == .session && parsed.sid == sid

def decodeOrdinary (keyPrefix sid : ByteString) (sample : TransportSample) :
    Option Mutation :=
  match parseKey keyPrefix sample.key with
  | none => none
  | some parsed =>
      if !isExpected parsed sid false then none
      else if sample.kind = .delete then some (.delete parsed.relativeKey)
      else if sample.encodingId = kSitosV1Batch then none
      else if sample.encodingId = kSitosV1 then
        (decode sample.payload).map fun value => .put parsed.relativeKey value
      else some (.put parsed.relativeKey (.bytes sample.payload))

/-- The puts of a batch, unless one of its keys is invalid. -/
def batchMutations (entries : List BatchEntry) : Option (List Mutation) :=
  if entries.all fun entry => isValidKey entry.key then
    some (entries.map fun entry => .put entry.key entry.value)
  else none

def decodeSample (keyPrefix sid : ByteString) (sample : TransportSample) :
    Option (List Mutation) :=
  if sample.kind = .delete then
    (decodeOrdinary keyPrefix sid sample).map fun mutation => [mutation]
  else
    match parseKey keyPrefix sample.key with
    | none => none
    | some parsed =>
        if parsed.isBatch then
          if !isExpected parsed sid true ∨ sample.encodingId ≠ kSitosV1Batch then none
          else (decodeBatch sample.payload).bind batchMutations
        else (decodeOrdinary keyPrefix sid sample).map fun mutation => [mutation]

def applyMutation (baseline effective : ValueMap) : Mutation → ValueMap
  | .put key value => Function.update effective key (some value)
  | .delete key => Function.update effective key (baseline key)

def applyMutations (baseline effective : ValueMap) (mutations : List Mutation) : ValueMap :=
  mutations.foldl (applyMutation baseline) effective

end Sitos.Mutations

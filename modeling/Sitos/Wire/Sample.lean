import Sitos.Wire.Batch
import Sitos.Wire.Key

/-!
# Transport samples

A sample as the transport delivers it, and the changes that samples stand for.
-/

namespace Sitos.Sample

open Sitos.Bytes
open Sitos.Value

inductive SampleKind where
  | put
  | delete
  deriving DecidableEq, Repr

structure TransportSample where
  kind : SampleKind
  key : ByteString
  encodingId : ByteString
  payload : ByteString
  deriving DecidableEq, Repr

def kSitosV1 : ByteString := ascii "sitos.v1"
def kSitosV1Batch : ByteString := ascii "sitos.v1.batch"

@[simp]
theorem kSitosV1_ne_kSitosV1Batch : kSitosV1 ≠ kSitosV1Batch := by decide

/-- One change of a key-value scope. -/
inductive Change (Value : Type) where
  | put (key : ByteString) (value : Value)
  | delete (key : ByteString)
  deriving DecidableEq

def Change.map {Source Target : Type} (f : Source → Target) : Change Source → Change Target
  | .put key value => .put key (f value)
  | .delete key => .delete key

end Sitos.Sample

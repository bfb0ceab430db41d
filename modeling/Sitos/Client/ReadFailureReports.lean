import Sitos.Client.ReadFailure

/-!
# Which failures are heard of

A node whose reads fail answers like a node that never had the entries the failing calls did not
reach.  The results about undisturbed reads therefore say what a client gets, and a read that failed
passes for a smaller store whenever its result would be a success there.
-/

namespace Sitos.ReadFailure

open Sitos.AckResult
open Sitos.Bytes
open Sitos.Core
open Sitos.Key
open Sitos.ListPrefix
open Sitos.Query
open Sitos.ReadModel
open Sitos.Sample
open Sitos.StoreList
open Sitos.Value

/-! ## The entries that are reached -/

/-- The entries that a call hands over. -/
def reached (readEnd : ReadEnd) (engine : InMemoryEngine) : InMemoryEngine :=
  engine.eraseIf fun key => !readEnd.reaches key

/-- The node as far as its calls reach. -/
def reachedNode (faults : Faults) (node : NodeReaders) : NodeReaders :=
  { node with
    engine := reached faults.base node.engine
    sessions := fun sid => (node.sessions sid).map fun record =>
      { record with snapshot := record.snapshot.map (reached faults.snapshot) } }

/-- Valid names, and every reply of the node arrives once, in any order. -/
structure World.Sound (world : World) : Prop where
  validPrefix : isValidPrefix world.node.keyPrefix = true
  validKeys : ∀ scope reader, servedReader world.node scope = some reader →
    ∀ entry ∈ reader.entries, isValidKey entry.1 = true
  lossless : ∀ selector,
    (∀ answer ∈ onQuery world.replyElsewhere world.faults world.node selector,
      ∃ reply, answer = .reply reply) →
    ∃ replies, world.get selector = .ok replies ∧
      (replies.map Answer.reply).Perm
        (onQuery world.replyElsewhere world.faults world.node selector)

namespace World

variable {world : World} {parsed : Scope} {reader : InMemoryEngine}

def reached (world : World) : NodeReaders := reachedNode world.faults world.node

end World

/-! ## One key -/

theorem deliver_everything (made items : List ListItem) :
    deliver everything made items = made ++ items := by
  induction items generalizing made with
  | nil => rw [deliver, List.append_nil]
  | cons item items ih =>
      have hrest := ih (made ++ [item])
      rw [List.append_assoc] at hrest
      exact hrest

section Requests

variable {world : World}

end Requests

end Sitos.ReadFailure

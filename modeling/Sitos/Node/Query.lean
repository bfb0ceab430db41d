import Sitos.Core.SortedMap
import Sitos.Wire.AckResult
import Sitos.Wire.KeySpace
import Sitos.Wire.Sample

/-!
# Parameter queries at the node

A query names a scope and, below it, one key or everything under a chunk prefix.
The node finds the reader of the scope, scans it and rebuilds full keys for its
replies.  Queries for buffers and for meta keys have no reader of parameters and
are answered elsewhere.
-/

namespace Sitos.Query

open Sitos.AckResult
open Sitos.Bytes
open Sitos.Core
open Sitos.Key
open Sitos.Sample

/-! ## The in-memory engine -/

abbrev InMemoryEngine := SortedMap ByteString ByteString

namespace InMemoryEngine

def put (engine : InMemoryEngine) (key value : ByteString) : InMemoryEngine :=
  engine.insertOrAssign key value

def delete (engine : InMemoryEngine) (key : ByteString) : InMemoryEngine := engine.erase key

def get (engine : InMemoryEngine) (key : ByteString) : List (ByteString × ByteString) :=
  ((engine.find key).map fun value => (key, value)).toList

/-- The scan starts at the lower bound of the prefix and stops at the first key without it. -/
def list (engine : InMemoryEngine) (start : ByteString) : List (ByteString × ByteString) :=
  engine.scan start start.isPrefixOf

theorem list_eq_filter (engine : InMemoryEngine) (start : ByteString) :
    list engine start = engine.entries.filter fun entry => start.isPrefixOf entry.1 := by
  apply SortedMap.scan_eq_filter
  · intro key hkey
    exact le_of_isPrefix (List.isPrefixOf_iff_prefix.mp hkey)
  · intro key last hlower hupper hlast
    exact List.isPrefixOf_iff_prefix.mpr
      (isPrefix_of_between hlower hupper (List.isPrefixOf_iff_prefix.mp hlast))

end InMemoryEngine

/-! ## Queries -/

structure StorageQuery where
  isList : Bool
  relativeKey : ByteString
  deriving DecidableEq, Repr

/-- The code of `*`. -/
def asterisk : UInt8 := 0x2A

/-- The selector below a scope: a terminal `**`, or one key. -/
def parseRelativeSelector (relative : ByteString) : Option StorageQuery :=
  if relative.isEmpty then none
  else if relative = ascii "**" then some ⟨true, []⟩
  else if (ascii "/**").isSuffixOf relative then
    let selector := relative.take (relative.length - (ascii "/**").length)
    if !isValidPrefix selector then none else some ⟨true, selector ++ [slash]⟩
  else if asterisk ∈ relative ∨ !isValidKey relative then none
  else some ⟨false, relative⟩

/-- A reply as the querying side receives it. -/
structure Reply where
  key : ByteString
  payload : ByteString
  encodingId : ByteString
  deriving DecidableEq, Repr

inductive Answer where
  | reply (reply : Reply)
  | replyError (status : Status)
  deriving DecidableEq, Repr

def makeReplyKey (keyPrefix scopePath relativeKey : ByteString) : ByteString :=
  joinKey keyPrefix scopePath relativeKey

def replyFromReader (reader : InMemoryEngine) (selector : StorageQuery)
    (keyPrefix scopePath : ByteString) : List Answer :=
  let entries :=
    if selector.isList then InMemoryEngine.list reader selector.relativeKey
    else InMemoryEngine.get reader selector.relativeKey
  entries.map fun (key, value) =>
    .reply ⟨makeReplyKey keyPrefix scopePath key, value, kSitosV1⟩

/-- What a query can see of a session: whether it admits the query, whether it still has its
parameter state, and its two readers. -/
structure SessionReaders where
  admits : Bool
  isActive : Bool
  snapshot : Option InMemoryEngine
  overlay : Option InMemoryEngine

structure NodeReaders where
  keyPrefix : ByteString
  engine : InMemoryEngine
  sessions : ByteString → Option SessionReaders

def replyScopedQuery (node : NodeReaders) (scope tail : ByteString) : List Answer :=
  match splitFirst tail with
  | none => []
  | some (sid, relative) =>
      if !isValidSessionId sid then []
      else
        match parseRelativeSelector relative, node.sessions sid with
        | some selector, some record =>
            if !record.admits then []
            else if !record.isActive then
              -- no reply at all would read as a missing key
              [.replyError .stateLost]
            else
              match if scope = ascii "snap" then record.snapshot else record.overlay with
              | none => []
              | some reader =>
                  replyFromReader reader selector node.keyPrefix (scope ++ slash :: sid)
        | _, _ => []

/-- Buffer and meta queries go to `replyElsewhere`. -/
def onQuery (replyElsewhere : ByteString → List Answer) (node : NodeReaders)
    (keyexpr : ByteString) : List Answer :=
  match (stripPrefix node.keyPrefix keyexpr).bind splitFirst with
  | none => []
  | some (head, tail) =>
      if head = ascii "base" then
        match parseRelativeSelector tail with
        | none => []
        | some selector => replyFromReader node.engine selector node.keyPrefix (ascii "base")
      else if head = ascii "snap" ∨ head = ascii "session" then replyScopedQuery node head tail
      else if head = ascii "meta" ∨ head = ascii "buffers" then replyElsewhere keyexpr
      else []

/-- The reader that serves a scope. -/
def servedReader (node : NodeReaders) : Scope → Option InMemoryEngine
  | .base => some node.engine
  | .session sid =>
      (node.sessions sid).bind fun record =>
        if record.admits && record.isActive then record.overlay else none
  | .snap sid =>
      (node.sessions sid).bind fun record =>
        if record.admits && record.isActive then record.snapshot else none

theorem replyScopedQuery_eq {node : NodeReaders} {scope sid relative : ByteString}
    {record : SessionReaders} {selector : StorageQuery} {reader : InMemoryEngine}
    (hsid : isValidSessionId sid = true) (hrecord : node.sessions sid = some record)
    (hselector : parseRelativeSelector relative = some selector) (hadmits : record.admits = true)
    (hactive : record.isActive = true)
    (hreader : (if scope = ascii "snap" then record.snapshot else record.overlay) = some reader) :
    replyScopedQuery node scope (sid ++ slash :: relative) =
      replyFromReader reader selector node.keyPrefix (scope ++ slash :: sid) := by
  have hsplit : splitFirst (sid ++ slash :: relative) = some (sid, relative) :=
    splitFirst_eq_some_iff.mpr ⟨rfl, slash_not_mem_of_isValidId hsid⟩
  simp [replyScopedQuery, hsplit, hsid, hselector, hrecord, hadmits, hactive, hreader]

/-- A selector below a served scope is answered from its reader. -/
theorem onQuery_of_served {replyElsewhere : ByteString → List Answer} {node : NodeReaders}
    {scope : Scope} {reader : InMemoryEngine} {relative : ByteString} {selector : StorageQuery}
    (hscope : IsValidScope scope) (hserved : servedReader node scope = some reader)
    (hselector : parseRelativeSelector relative = some selector) :
    onQuery replyElsewhere node (joinKey node.keyPrefix (scopeText scope) relative) =
      replyFromReader reader selector node.keyPrefix (scopeText scope) := by
  have hkeyexpr : ∀ head tail : ByteString, slash ∉ head →
      (stripPrefix node.keyPrefix (node.keyPrefix ++ slash :: (head ++ slash :: tail))).bind
        splitFirst = some (head, tail) := by
    intro head tail hhead
    rw [FenceWire.stripPrefix_eq_some_iff.mpr rfl, Option.bind_some]
    exact splitFirst_eq_some_iff.mpr ⟨rfl, hhead⟩
  cases scope with
  | base =>
      obtain rfl := Option.some.inj hserved
      rw [onQuery, joinKey_base, hkeyexpr _ _ (by decide)]
      simp only [if_true, hselector]
      rfl
  | session sid =>
      obtain ⟨record, hrecord, hreader⟩ := Option.bind_eq_some_iff.mp hserved
      split_ifs at hreader with hactive
      rw [Bool.and_eq_true] at hactive
      have hscoped : replyScopedQuery node (ascii "session") (sid ++ slash :: relative) =
          replyFromReader reader selector node.keyPrefix (ascii "session" ++ slash :: sid) :=
        replyScopedQuery_eq hscope hrecord hselector hactive.1 hactive.2 hreader
      have hbase : ascii "session" ≠ ascii "base" := by decide
      have hpath : scopeText (.session sid) = ascii "session" ++ slash :: sid := rfl
      rw [onQuery, joinKey_session, hkeyexpr _ _ (by decide), hpath, ← hscoped]
      simp only [hbase, if_false, or_true, if_true]
  | snap sid =>
      obtain ⟨record, hrecord, hreader⟩ := Option.bind_eq_some_iff.mp hserved
      split_ifs at hreader with hactive
      rw [Bool.and_eq_true] at hactive
      have hscoped : replyScopedQuery node (ascii "snap") (sid ++ slash :: relative) =
          replyFromReader reader selector node.keyPrefix (ascii "snap" ++ slash :: sid) :=
        replyScopedQuery_eq hscope hrecord hselector hactive.1 hactive.2 hreader
      have hbase : ascii "snap" ≠ ascii "base" := by decide
      have hpath : scopeText (.snap sid) = ascii "snap" ++ slash :: sid := rfl
      rw [onQuery, joinKey_snap, hkeyexpr _ _ (by decide), hpath, ← hscoped]
      simp only [hbase, if_false, true_or, if_true]

end Sitos.Query

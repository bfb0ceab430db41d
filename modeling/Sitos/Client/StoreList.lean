import Sitos.Client.ListPrefix
import Sitos.Node.Query
import Sitos.Wire.ParamValue

/-!
# Listing a scope through the store client

A list prefix is a plain text, while a query can only name whole chunks.  The
client asks for everything under the last whole chunk of the prefix, drops what
does not start with the prefix, decodes the rest and hands it to the sink in key
order.
-/

namespace Sitos.StoreList

open Sitos.AckResult
open Sitos.Bytes
open Sitos.Core
open Sitos.Key
open Sitos.ListPrefix
open Sitos.Query
open Sitos.Sample
open Sitos.Value

abbrev Failure := Status × String

abbrev ListItem := ByteString × ParamValue

def buildScopeQuery (keyPrefix scopePath safeParent : ByteString) : ByteString :=
  keyPrefix ++ slash :: scopePath ++
    slash :: (if safeParent.isEmpty then ascii "**" else safeParent ++ ascii "/**")

/-- The text before the last slash. -/
def beforeLastSlash (text : ByteString) : ByteString :=
  ((text.reverse.dropWhile (· != slash)).drop 1).reverse

def safeParent (requested : ByteString) : ByteString :=
  if requested.isEmpty then []
  else if requested.getLast? = some slash then requested.dropLast
  else if slash ∉ requested then []
  else beforeLastSlash requested

def isUnderSafeParent (relative parent : ByteString) : Bool :=
  parent.isEmpty || relative == parent || (parent ++ [slash]).isPrefixOf relative

def isExpectedKind (parsed : ParsedKey) : Scope → Bool
  | .base => parsed.kind == .base
  | .session sid => parsed.kind == .session && parsed.sid == sid
  | .snap sid => parsed.kind == .snapshot && parsed.sid == sid

/-- One reply: refused, outside the prefix, or an item. -/
def decodeListReply (keyPrefix : ByteString) (scope : Scope) (parent listPrefix : ByteString)
    (reply : Reply) : Except Failure (Option ListItem) :=
  match parseKey keyPrefix reply.key with
  | none => .error (.error, "transport returned an invalid list key")
  | some parsed =>
      if !isExpectedKind parsed scope ∨ parsed.isBatch ∨
          !isUnderSafeParent parsed.relativeKey parent then
        .error (.error, "transport returned an invalid list key")
      else if !listPrefix.isPrefixOf parsed.relativeKey then .ok none
      else if reply.encodingId ≠ kSitosV1 then
        .error (.error, "transport returned an unexpected encoding")
      else
        match decode reply.payload with
        | none => .error (.error, "transport returned malformed payload")
        | some value => .ok (some (parsed.relativeKey, value))

/-- The replies in the order they arrive, up to the first refused one. -/
def collect (keyPrefix : ByteString) (scope : Scope) (parent listPrefix : ByteString) :
    List Reply → Except Failure (List ListItem)
  | [] => .ok []
  | reply :: replies => do
      let item ← decodeListReply keyPrefix scope parent listPrefix reply
      let items ← collect keyPrefix scope parent listPrefix replies
      .ok (item.toList ++ items)

/-- The sink sees every call made so far, the new one last, and decides whether to go on. -/
abbrev ListSink := List ListItem → Bool

/-- The calls that a sink receives. -/
def deliver (sink : ListSink) : List ListItem → List ListItem → List ListItem
  | made, [] => made
  | made, item :: items =>
      if sink (made ++ [item]) then deliver sink (made ++ [item]) items else made ++ [item]

structure ListRun where
  result : Except Failure Unit
  calls : List ListItem

/-- `ParamStore::List` over a transport that ends a query with the replies it delivered. -/
def list (keyPrefix : ByteString) (get : ByteString → Except Failure (List Reply))
    (scope listPrefix : ByteString) (sink : ListSink) : ListRun :=
  match parseScope scope with
  | none => ⟨.error (.invalidKey, "invalid scope"), []⟩
  | some parsedScope =>
      if !validateListPrefix listPrefix then ⟨.error (.invalidKey, "invalid list prefix"), []⟩
      else
        let parent := safeParent listPrefix
        match get (buildScopeQuery keyPrefix (scopeText parsedScope) parent) with
        | .error failure => ⟨.error failure, []⟩
        | .ok replies =>
            match collect keyPrefix parsedScope parent listPrefix replies with
            | .error failure => ⟨.error failure, []⟩
            | .ok values => ⟨.ok (), deliver sink [] (SortedMap.sortByKey values)⟩

/-- Every reply of the node arrives once, in any order. -/
def Lossless (replyElsewhere : ByteString → List Answer) (node : NodeReaders)
    (get : ByteString → Except Failure (List Reply)) : Prop :=
  ∀ selector, (∀ answer ∈ onQuery replyElsewhere node selector, ∃ reply, answer = .reply reply) →
    ∃ replies, get selector = .ok replies ∧
      (replies.map Answer.reply).Perm (onQuery replyElsewhere node selector)

/-- A transport that hands over the answers as they are. -/
def directGet (replyElsewhere : ByteString → List Answer) (node : NodeReaders)
    (selector : ByteString) : Except Failure (List Reply) :=
  .ok ((onQuery replyElsewhere node selector).filterMap fun
    | .reply reply => some reply
    | .replyError _ => none)

theorem lossless_directGet (replyElsewhere : ByteString → List Answer) (node : NodeReaders) :
    Lossless replyElsewhere node (directGet replyElsewhere node) := by
  intro selector hreplies
  refine ⟨_, rfl, List.Perm.of_eq ?_⟩
  generalize onQuery replyElsewhere node selector = answers at hreplies ⊢
  induction answers with
  | nil => rfl
  | cons answer answers ih =>
      obtain ⟨reply, rfl⟩ := hreplies answer List.mem_cons_self
      have hrest := ih fun other hother => hreplies other (List.mem_cons_of_mem _ hother)
      rw [List.filterMap_cons, List.map_cons, hrest]

/-! ## The safe parent -/

/-- What the node is asked to list for a prefix. -/
def requestedStart (listPrefix : ByteString) : ByteString :=
  if (safeParent listPrefix).isEmpty then [] else safeParent listPrefix ++ [slash]

theorem beforeLastSlash_append {before after : ByteString} (hafter : slash ∉ after) :
    beforeLastSlash (before ++ slash :: after) = before := by
  have hreverse : (before ++ slash :: after).reverse = after.reverse ++ slash :: before.reverse := by
    simp
  rw [beforeLastSlash, hreverse,
    Segments.dropWhile_append_cons (by simpa using hafter), List.drop_one, List.tail_cons,
    List.reverse_reverse]

theorem exists_last_slash {text : ByteString} (hmem : slash ∈ text) :
    ∃ before after, text = before ++ slash :: after ∧ slash ∉ after := by
  obtain ⟨after, before, hreverse, hafter⟩ :=
    List.eq_append_cons_of_mem (List.mem_reverse.mpr hmem)
  refine ⟨before.reverse, after.reverse, ?_, by simpa using hafter⟩
  rw [← List.reverse_reverse text, hreverse]
  simp

/-- The parent of an accepted prefix is a valid chunk sequence that the prefix extends. -/
theorem safeParent_spec {listPrefix : ByteString} (hlist : IsListPrefix listPrefix) :
    (safeParent listPrefix = [] ∨ isValidPrefix (safeParent listPrefix) = true) ∧
      requestedStart listPrefix <+: listPrefix := by
  rcases hlist with rfl | ⟨key, hvalid, rfl | rfl⟩
  · exact ⟨.inl rfl, List.nil_prefix⟩
  · have hne : ¬listPrefix.isEmpty = true := by
      simpa using isValidChunkSequence_ne_nil hvalid
    have hlast := getLast?_ne_slash hvalid
    by_cases hslash : slash ∈ listPrefix
    · obtain ⟨before, after, rfl, hafter⟩ := exists_last_slash hslash
      have hparent : safeParent (before ++ slash :: after) = before := by
        rw [safeParent, if_neg hne, if_neg hlast, if_neg (not_not.mpr hslash),
          beforeLastSlash_append hafter]
      have hbefore := (isValidChunkSequence_append_cons.mp hvalid).1
      have hstart : requestedStart (before ++ slash :: after) = before ++ [slash] := by
        rw [requestedStart, hparent, if_neg]
        simpa using isValidChunkSequence_ne_nil hbefore
      refine ⟨.inr (hparent.symm ▸ hbefore), ?_⟩
      rw [hstart]
      exact ⟨after, by simp⟩
    · have hparent : safeParent listPrefix = [] := by
        rw [safeParent, if_neg hne, if_neg hlast, if_pos hslash]
      refine ⟨.inl hparent, ?_⟩
      rw [requestedStart, hparent]
      exact List.nil_prefix
  · have hparent : safeParent (key ++ [slash]) = key := by
      rw [safeParent, if_neg (by simp), if_pos List.getLast?_concat, List.dropLast_concat]
    have hstart : requestedStart (key ++ [slash]) = key ++ [slash] := by
      rw [requestedStart, hparent, if_neg]
      simpa using isValidChunkSequence_ne_nil hvalid
    exact ⟨.inr (hparent.symm ▸ hvalid), by rw [hstart]⟩

/-- The node reads the client's selector as the start it asks for. -/
theorem parseRelativeSelector_safeParent {listPrefix : ByteString} (hlist : IsListPrefix listPrefix) :
    parseRelativeSelector (if (safeParent listPrefix).isEmpty then ascii "**"
      else safeParent listPrefix ++ ascii "/**") = some ⟨true, requestedStart listPrefix⟩ := by
  rcases (safeParent_spec hlist).1 with hparent | hparent
  · rw [requestedStart, hparent]
    rfl
  · have hne : safeParent listPrefix ≠ [] := isValidChunkSequence_ne_nil hparent
    have hempty : ¬(safeParent listPrefix).isEmpty = true := by simpa using hne
    have hlength : (ascii "/**").length = 3 := rfl
    have hstars : safeParent listPrefix ++ ascii "/**" ≠ ascii "**" := by
      intro heq
      have hsize := congrArg List.length heq
      rw [List.length_append, hlength] at hsize
      have hshort : (ascii "**").length = 2 := rfl
      omega
    have hsuffix : (ascii "/**").isSuffixOf (safeParent listPrefix ++ ascii "/**") = true :=
      List.isSuffixOf_iff_suffix.mpr (List.suffix_append _ _)
    rw [if_neg hempty, requestedStart, if_neg hempty, parseRelativeSelector,
      if_neg (by simp [hne]), if_neg hstars, if_pos hsuffix]
    simp [hparent]

/-! ## The replies -/

/-- The reply that the node sends for one entry of a scope. -/
def entryReply (keyPrefix scopePath : ByteString) (entry : ByteString × ByteString) : Reply :=
  ⟨makeReplyKey keyPrefix scopePath entry.1, entry.2, kSitosV1⟩

/-- The key of a reply is read back as the entry's. -/
theorem parseKey_entryReply {keyPrefix : ByteString} {scope : Scope} {entry : ByteString × ByteString}
    (hpre : isValidPrefix keyPrefix = true) (hscope : IsValidScope scope)
    (hkey : isValidKey entry.1 = true) :
    ∃ parsed, parseKey keyPrefix (entryReply keyPrefix (scopeText scope) entry).key = some parsed ∧
      isExpectedKind parsed scope = true ∧ parsed.isBatch = false ∧ parsed.relativeKey = entry.1 := by
  have hbuild := build_value hpre hscope hkey
  have hparsed := (parseKey_of_build hbuild).1
  have hroute : parseScope (scopeText scope) = some scope :=
    parseScope_eq_some_iff.mpr ⟨rfl, hscope⟩
  simp only [Route.parsed, hroute, Option.map_some] at hparsed
  cases scope with
  | base => exact ⟨_, hparsed, rfl, rfl, rfl⟩
  | session sid => exact ⟨_, hparsed, by simp [isExpectedKind], rfl, rfl⟩
  | snap sid => exact ⟨_, hparsed, by simp [isExpectedKind], rfl, rfl⟩

/-- What the client makes of an entry: nothing, an item, or a refusal. -/
theorem decodeListReply_entryReply {keyPrefix listPrefix : ByteString} {scope : Scope}
    {entry : ByteString × ByteString} (hpre : isValidPrefix keyPrefix = true)
    (hscope : IsValidScope scope) (hkey : isValidKey entry.1 = true)
    (hstart : requestedStart listPrefix <+: entry.1) :
    decodeListReply keyPrefix scope (safeParent listPrefix) listPrefix
        (entryReply keyPrefix (scopeText scope) entry) =
      if listPrefix.isPrefixOf entry.1 then
        match decode entry.2 with
        | none => .error (.error, "transport returned malformed payload")
        | some value => .ok (some (entry.1, value))
      else .ok none := by
  obtain ⟨parsed, hparsed, hexpected, hbatch, hrelative⟩ := parseKey_entryReply hpre hscope hkey
  have hunder : isUnderSafeParent entry.1 (safeParent listPrefix) = true := by
    rw [requestedStart] at hstart
    split_ifs at hstart with hempty
    · simp [isUnderSafeParent, hempty]
    · simp [isUnderSafeParent, List.isPrefixOf_iff_prefix.mpr hstart]
  rw [decodeListReply, hparsed]
  simp only [hexpected, hbatch, hrelative, hunder]
  by_cases hlisted : listPrefix.isPrefixOf entry.1 = true
  · simp [hlisted, entryReply]
  · simp [hlisted]

/-- The item of an entry whose key starts with the prefix. -/
def itemOf (listPrefix : ByteString) (entry : ByteString × ByteString) : Option ListItem :=
  if listPrefix.isPrefixOf entry.1 then (decode entry.2).map fun value => (entry.1, value) else none

def itemsOf (listPrefix : ByteString) (entries : List (ByteString × ByteString)) : List ListItem :=
  entries.filterMap (itemOf listPrefix)

theorem itemsOf_cons (listPrefix : ByteString) (entry : ByteString × ByteString)
    (entries : List (ByteString × ByteString)) :
    itemsOf listPrefix (entry :: entries) =
      (itemOf listPrefix entry).toList ++ itemsOf listPrefix entries := by
  rw [itemsOf, List.filterMap_cons]
  cases itemOf listPrefix entry <;> rfl

/-- Every entry below the prefix decodes. -/
def Decodes (listPrefix : ByteString) (entries : List (ByteString × ByteString)) : Prop :=
  ∀ entry ∈ entries, listPrefix <+: entry.1 → (decode entry.2).isSome = true

section Collect

variable {keyPrefix listPrefix : ByteString} {scope : Scope}
  {entries : List (ByteString × ByteString)}

theorem collect_of_decodes (hpre : isValidPrefix keyPrefix = true) (hscope : IsValidScope scope)
    (hkeys : ∀ entry ∈ entries, isValidKey entry.1 = true ∧ requestedStart listPrefix <+: entry.1)
    (hdecodes : Decodes listPrefix entries) :
    collect keyPrefix scope (safeParent listPrefix) listPrefix
        (entries.map (entryReply keyPrefix (scopeText scope))) =
      .ok (itemsOf listPrefix entries) := by
  induction entries with
  | nil => rfl
  | cons entry entries ih =>
      obtain ⟨hkey, hstart⟩ := hkeys entry List.mem_cons_self
      have hrest := ih (fun other hother => hkeys other (List.mem_cons_of_mem _ hother))
        fun other hother => hdecodes other (List.mem_cons_of_mem _ hother)
      have hentry := hdecodes entry List.mem_cons_self
      rw [List.map_cons, collect, decodeListReply_entryReply hpre hscope hkey hstart, hrest,
        itemsOf_cons, itemOf]
      by_cases hlisted : listPrefix.isPrefixOf entry.1 = true
      · obtain ⟨value, hvalue⟩ :=
          Option.isSome_iff_exists.mp (hentry (List.isPrefixOf_iff_prefix.mp hlisted))
        rw [if_pos hlisted, if_pos hlisted, hvalue]
        rfl
      · rw [if_neg hlisted, if_neg hlisted]
        rfl

theorem collect_of_not_decodes (hpre : isValidPrefix keyPrefix = true) (hscope : IsValidScope scope)
    (hkeys : ∀ entry ∈ entries, isValidKey entry.1 = true ∧ requestedStart listPrefix <+: entry.1)
    (hdecodes : ¬Decodes listPrefix entries) :
    ∃ failure, collect keyPrefix scope (safeParent listPrefix) listPrefix
      (entries.map (entryReply keyPrefix (scopeText scope))) = .error failure := by
  induction entries with
  | nil => exact absurd (fun entry hentry => absurd hentry List.not_mem_nil) hdecodes
  | cons entry entries ih =>
      obtain ⟨hkey, hstart⟩ := hkeys entry List.mem_cons_self
      have hothers := fun other hother => hkeys other (List.mem_cons_of_mem entry hother)
      rw [List.map_cons, collect, decodeListReply_entryReply hpre hscope hkey hstart]
      by_cases hrest : Decodes listPrefix entries
      · -- the first entry is the one that does not decode
        have hentry : listPrefix.isPrefixOf entry.1 = true ∧ decode entry.2 = none := by
          by_contra hfirst
          apply hdecodes
          intro other hother hlisted
          rcases List.mem_cons.mp hother with rfl | hother
          · by_contra hnone
            exact hfirst ⟨List.isPrefixOf_iff_prefix.mpr hlisted, by simpa using hnone⟩
          · exact hrest other hother hlisted
        simp only [hentry, if_true]
        exact ⟨_, rfl⟩
      · obtain ⟨failure, hfailure⟩ := ih hothers hrest
        rw [hfailure]
        split_ifs
        · cases decode entry.2 <;> exact ⟨_, rfl⟩
        · exact ⟨_, rfl⟩

end Collect

theorem sorted_itemsOf (listPrefix : ByteString) {entries : List (ByteString × ByteString)}
    (hsorted : entries.Pairwise fun first second => first.1 < second.1) :
    (itemsOf listPrefix entries).Pairwise fun first second => first.1 < second.1 := by
  refine hsorted.filterMap _ fun first second hlt item hitem item' hitem' => ?_
  have hkey : ∀ {entry : ByteString × ByteString} {item : ListItem},
      itemOf listPrefix entry = some item → item.1 = entry.1 := by
    intro entry item hitem
    rw [itemOf] at hitem
    split_ifs at hitem
    obtain ⟨value, -, rfl⟩ := Option.map_eq_some_iff.mp hitem
    rfl
  rw [hkey hitem, hkey hitem']
  exact hlt

theorem mem_itemsOf_iff {listPrefix key : ByteString} {value : ParamValue}
    {entries : List (ByteString × ByteString)} :
    (key, value) ∈ itemsOf listPrefix entries ↔
      listPrefix <+: key ∧ ∃ stored, (key, stored) ∈ entries ∧ decode stored = some value := by
  simp only [itemsOf, List.mem_filterMap]
  constructor
  · rintro ⟨⟨stored, bytes⟩, hentry, hitem⟩
    rw [itemOf] at hitem
    split_ifs at hitem with hlisted
    obtain ⟨decoded, hdecoded, heq⟩ := Option.map_eq_some_iff.mp hitem
    obtain ⟨rfl, rfl⟩ := Prod.mk.inj heq
    exact ⟨List.isPrefixOf_iff_prefix.mp hlisted, bytes, hentry, hdecoded⟩
  · rintro ⟨hlisted, stored, hentry, hdecoded⟩
    refine ⟨(key, stored), hentry, ?_⟩
    rw [itemOf, if_pos (List.isPrefixOf_iff_prefix.mpr hlisted), hdecoded, Option.map_some]

/-- Entries outside the requested start hold no item. -/
theorem itemsOf_filter {listPrefix start : ByteString} (hstart : start <+: listPrefix)
    (entries : List (ByteString × ByteString)) :
    itemsOf listPrefix (entries.filter fun entry => start.isPrefixOf entry.1) =
      itemsOf listPrefix entries := by
  rw [itemsOf, List.filterMap_filter, itemsOf]
  apply List.filterMap_congr
  intro entry _
  by_cases hlisted : listPrefix.isPrefixOf entry.1 = true
  · have hkept : start.isPrefixOf entry.1 = true :=
      List.isPrefixOf_iff_prefix.mpr (hstart.trans (List.isPrefixOf_iff_prefix.mp hlisted))
    simp [itemOf, hlisted, hkept]
  · simp [itemOf, hlisted]

/-! ## The sink -/

/-- A sink is called with the items in order until it has seen them all or says stop. -/
structure DeliveredUntil (sink : ListSink) (items calls : List ListItem) : Prop where
  inOrder : calls <+: items
  continued : ∀ made, made <+: calls → made ≠ [] → made ≠ calls → sink made = true
  stopped : calls = items ∨ sink calls = false

theorem deliveredUntil_deliver_append {sink : ListSink} {made : List ListItem} (items : List ListItem)
    (hmade : ∀ before, before <+: made → before ≠ [] → sink before = true) :
    DeliveredUntil sink (made ++ items) (deliver sink made items) := by
  induction items generalizing made with
  | nil =>
      rw [deliver, List.append_nil]
      exact ⟨List.prefix_refl made, fun before hbefore hne _ => hmade before hbefore hne, .inl rfl⟩
  | cons item items ih =>
      have hcut : made ++ item :: items = made ++ [item] ++ items := by simp
      have hbefore : ∀ before, before <+: made ++ [item] → before ≠ made ++ [item] →
          before <+: made := by
        intro before hbefore hne
        rcases List.prefix_concat_iff.mp hbefore with heq | hmade
        · exact absurd heq hne
        · exact hmade
      rw [deliver, hcut]
      split_ifs with hcontinue
      · apply ih
        intro before hprefixed hne
        by_cases heq : before = made ++ [item]
        · rw [heq]
          exact hcontinue
        · exact hmade before (hbefore before hprefixed heq) hne
      · refine ⟨List.prefix_append _ _, fun before hprefixed hne heq => ?_, .inr ?_⟩
        · exact hmade before (hbefore before hprefixed heq) hne
        · simpa using hcontinue

theorem deliveredUntil_deliver (sink : ListSink) (items : List ListItem) :
    DeliveredUntil sink items (deliver sink [] items) := by
  have hnone : ∀ before : List ListItem, before <+: [] → before ≠ [] → sink before = true :=
    fun before hbefore hne => absurd (List.prefix_nil.mp hbefore) hne
  exact deliveredUntil_deliver_append items hnone

/-! ## The whole list -/

section Whole

variable {replyElsewhere : ByteString → List Answer} {node : NodeReaders}
  {get : ByteString → Except Failure (List Reply)} {scope : Scope} {reader : InMemoryEngine}
  {listPrefix : ByteString}

/-- What the client receives for its selector: one reply for each entry below the start. -/
theorem exists_delivered (hlossless : Lossless replyElsewhere node get)
    (hscope : IsValidScope scope) (hserved : servedReader node scope = some reader)
    (hlist : IsListPrefix listPrefix) :
    ∃ entries : List (ByteString × ByteString),
      entries.Perm (InMemoryEngine.list reader (requestedStart listPrefix)) ∧
      get (buildScopeQuery node.keyPrefix (scopeText scope) (safeParent listPrefix)) =
        .ok (entries.map (entryReply node.keyPrefix (scopeText scope))) := by
  have hselector : buildScopeQuery node.keyPrefix (scopeText scope) (safeParent listPrefix) =
      joinKey node.keyPrefix (scopeText scope) (if (safeParent listPrefix).isEmpty then ascii "**"
        else safeParent listPrefix ++ ascii "/**") := rfl
  have hanswers : onQuery replyElsewhere node
      (buildScopeQuery node.keyPrefix (scopeText scope) (safeParent listPrefix)) =
        ((InMemoryEngine.list reader (requestedStart listPrefix)).map
          (entryReply node.keyPrefix (scopeText scope))).map Answer.reply := by
    rw [hselector, onQuery_of_served hscope hserved (parseRelativeSelector_safeParent hlist),
      replyFromReader, List.map_map]
    rfl
  obtain ⟨replies, hget, hperm⟩ := hlossless
    (buildScopeQuery node.keyPrefix (scopeText scope) (safeParent listPrefix)) (by
      rw [hanswers]
      intro answer hanswer
      obtain ⟨reply, -, rfl⟩ := List.mem_map.mp hanswer
      exact ⟨reply, rfl⟩)
  have hinjective : Function.Injective Answer.reply := fun _ _ heq => Answer.reply.inj heq
  rw [hanswers, List.map_perm_map_iff hinjective] at hperm
  -- a permutation of mapped entries is the map of a permutation
  have hcomp : Relation.Comp (· = List.map (entryReply node.keyPrefix (scopeText scope)) ·)
      List.Perm replies (InMemoryEngine.list reader (requestedStart listPrefix)) := by
    rw [List.eq_map_comp_perm]
    exact hperm
  obtain ⟨entries, rfl, hentries⟩ := hcomp
  exact ⟨entries, hentries, hget⟩

end Whole

/-- A list is exact: every stored key that starts with the prefix reaches the sink once, in
key order and decoded, and one value that does not decode stops the list before the sink. -/
theorem list_exact {replyElsewhere : ByteString → List Answer} {node : NodeReaders}
    {get : ByteString → Except Failure (List Reply)} {scope : ByteString} {parsedScope : Scope}
    {reader : InMemoryEngine} {listPrefix : ByteString}
    (hpre : isValidPrefix node.keyPrefix = true) (hlossless : Lossless replyElsewhere node get)
    (hscope : parseScope scope = some parsedScope)
    (hserved : servedReader node parsedScope = some reader)
    (hkeys : ∀ entry ∈ reader.entries, isValidKey entry.1 = true)
    (hlist : validateListPrefix listPrefix = true) (sink : ListSink) :
    (Decodes listPrefix reader.entries →
      ∃ items : List ListItem,
        (items.Pairwise fun first second => first.1 < second.1) ∧
        (∀ key value, (key, value) ∈ items ↔
          listPrefix <+: key ∧ ∃ stored, reader.find key = some stored ∧ decode stored = some value) ∧
        (list node.keyPrefix get scope listPrefix sink).result = .ok () ∧
        DeliveredUntil sink items (list node.keyPrefix get scope listPrefix sink).calls) ∧
    (¬Decodes listPrefix reader.entries →
      ∃ failure, (list node.keyPrefix get scope listPrefix sink).result = .error failure ∧
        (list node.keyPrefix get scope listPrefix sink).calls = []) := by
  have hvalid := (parseScope_eq_some_iff.mp hscope).2
  have hprefixed := validateListPrefix_iff.mp hlist
  have hstart := (safeParent_spec hprefixed).2
  obtain ⟨entries, hperm, hget⟩ := exists_delivered hlossless hvalid hserved hprefixed
  rw [InMemoryEngine.list_eq_filter] at hperm
  have hentries : ∀ entry ∈ entries, entry ∈ reader.entries ∧
      requestedStart listPrefix <+: entry.1 := by
    intro entry hentry
    obtain ⟨hmem, hlisted⟩ := List.mem_filter.mp (hperm.subset hentry)
    exact ⟨hmem, List.isPrefixOf_iff_prefix.mp hlisted⟩
  have hdelivered : ∀ entry ∈ entries, isValidKey entry.1 = true ∧
      requestedStart listPrefix <+: entry.1 := fun entry hentry =>
    ⟨hkeys entry (hentries entry hentry).1, (hentries entry hentry).2⟩
  -- the entries below the prefix are among the delivered ones
  have hdecodes : Decodes listPrefix entries ↔ Decodes listPrefix reader.entries := by
    constructor
    · intro hdecodes entry hentry hlisted
      have hkept : entry ∈ entries := by
        rw [hperm.mem_iff, List.mem_filter]
        exact ⟨hentry, List.isPrefixOf_iff_prefix.mpr (hstart.trans hlisted)⟩
      exact hdecodes entry hkept hlisted
    · exact fun hdecodes entry hentry => hdecodes entry (hentries entry hentry).1
  simp only [list, hscope, hlist, Bool.not_true, Bool.false_eq_true, if_false, hget]
  constructor
  · intro hall
    rw [collect_of_decodes hpre hvalid hdelivered (hdecodes.mpr hall)]
    have hitems : (itemsOf listPrefix entries).Perm (itemsOf listPrefix reader.entries) := by
      rw [← itemsOf_filter hstart reader.entries]
      exact hperm.filterMap _
    have hsorted := sorted_itemsOf listPrefix reader.sorted
    simp only [SortedMap.sortByKey_eq hitems hsorted]
    refine ⟨_, hsorted, fun key value => ?_, trivial, deliveredUntil_deliver sink _⟩
    simp only [mem_itemsOf_iff, SortedMap.mem_entries_iff]
  · intro hbroken
    obtain ⟨failure, hfailure⟩ :=
      collect_of_not_decodes hpre hvalid hdelivered (fun h => hbroken (hdecodes.mp h))
    rw [hfailure]
    exact ⟨failure, rfl, rfl⟩

/-- A malformed value outside the prefix does not disturb the list. -/
theorem list_exact_malformedOutside :
    let node : NodeReaders :=
      ⟨ascii "sitos", ⟨[(ascii "a/b", encode (.bool true)), (ascii "c", [])], by decide⟩,
        fun _ => none⟩
    Decodes (ascii "a/") node.engine.entries ∧
      (list node.keyPrefix (directGet (fun _ => []) node) (ascii "base") (ascii "a/")
        fun _ => true).result = .ok () := by
  intro node
  have hdecodes : Decodes (ascii "a/") node.engine.entries := by
    unfold Decodes
    decide
  have hexact := list_exact (by decide) (lossless_directGet (fun _ => []) node)
    (show parseScope (ascii "base") = some .base by decide)
    (show servedReader node .base = some node.engine by rfl) (by decide)
    (show validateListPrefix (ascii "a/") = true by decide) fun _ => true
  obtain ⟨_, _, _, hresult, _⟩ := hexact.1 hdecodes
  exact ⟨hdecodes, hresult⟩

end Sitos.StoreList

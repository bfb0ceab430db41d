import Sitos.Catalog.Record
import Sitos.Client.SessionMetadataAliases
import Sitos.Node.Query
import Sitos.Wire.AckCodec
import Sitos.Wire.ParamValue

/-!
# How a publisher learns the generation of its session

The publisher asks for the metadata of the session and takes exactly one reply, which has to name an
active session.  The node replies for the sessions that admit the query and still have their state,
and for the sessions whose deletion its catalog reports.
-/

namespace Sitos.SessionDiscovery

open Sitos.AckCodec
open Sitos.AckResult
open Sitos.Bytes
open Sitos.Catalog
open Sitos.FenceWire
open Sitos.FlatJson (isPlain isPlainText quote)
open Sitos.Json
open Sitos.Key
open Sitos.Query (Reply)
open Sitos.Sample
open Sitos.SessionMetadata
open Sitos.Token (AckToken parseAckToken)
open Sitos.Value

/-! ## The publisher -/

structure ErrorInfo where
  status : Status
  message : ByteString
  deriving DecidableEq, Repr

def kInvalidSessionId : ErrorInfo := ⟨.invalidKey, ascii "invalid session id"⟩

def kInvalidSessionMetadata : ErrorInfo := ⟨.typeMismatch, ascii "invalid session metadata"⟩

def kNoSessionMetadata : ErrorInfo := ⟨.notFound, []⟩

/-- What the sink of the query keeps. -/
structure Discovery where
  invalidReply : Bool
  generation : Option FenceUuid
  deriving DecidableEq, Repr

def Discovery.start : Discovery := ⟨false, none⟩

/-- The generation that a payload names. -/
def decodeMetadata (payload : ByteString) : Option FenceUuid :=
  match decode payload with
  | some (.str json) => parse json
  | _ => none

/-- The sink: what it keeps, and whether it goes on. -/
def onReply (metadataKey : ByteString) (found : Discovery) (reply : Reply) : Discovery × Bool :=
  if reply.key ≠ metadataKey ∨ reply.encodingId ≠ kSitosV1 then
    ({ found with invalidReply := true }, false)
  else
    match decodeMetadata reply.payload with
    | none => ({ found with invalidReply := true }, false)
    | some parsed =>
        if found.generation.isSome then ({ found with invalidReply := true }, true)
        else ({ found with generation := some parsed }, true)

/-- `Get` delivers nothing more once the sink returned false. -/
def deliver (metadataKey : ByteString) : Discovery → List Reply → Discovery
  | found, [] => found
  | found, reply :: replies =>
      if (onReply metadataKey found reply).2 then
        deliver metadataKey (onReply metadataKey found reply).1 replies
      else (onReply metadataKey found reply).1

/-- `get` is the failure and the replies of the transport's query for a key. -/
def discoverSessionGeneration (keyPrefix sid : ByteString)
    (get : ByteString → Option ErrorInfo × List Reply) : Except ErrorInfo FenceUuid :=
  match buildMetaSessionKey keyPrefix sid with
  | none => .error kInvalidSessionId
  | some metadataKey =>
      match (get metadataKey).1 with
      | some failure => .error failure
      | none =>
          let found := deliver metadataKey Discovery.start (get metadataKey).2
          if found.invalidReply then .error kInvalidSessionMetadata
          else
            match found.generation with
            | none => .error kNoSessionMetadata
            | some generation => .ok generation

/-! ## The node -/

/-- What a metadata query can see of a session. -/
structure MetaSession where
  admits : Bool
  isActive : Bool
  lifecycle : SessionLifecycleState
  createdAt : ByteString
  generationUuid : ByteString

structure MetaNode where
  keyPrefix : ByteString
  sessions : ByteString → Option MetaSession
  catalog : ByteString → Option SessionCatalogRecord
  results : AckToken → Option RawAckResult

def kSitosV1Ack : ByteString := ascii "sitos.v1.ack"

def metadataText (lifecycle : SessionLifecycleState) (createdAt generationUuid : ByteString) :
    ByteString :=
  ascii "\x7b\"state\":\"" ++ lifecycleName lifecycle ++ ascii "\",\"created_at\":\"" ++
    createdAt ++ ascii "\",\"generation_uuid\":\"" ++ generationUuid ++ ascii "\"\x7d"

/-- A deletion in progress or a failed one is still reported. -/
def cataloguedMetadata (node : MetaNode) (sid : ByteString) : Option ByteString :=
  (node.catalog sid).bind fun record =>
    if record.state = .deleting ∨ record.state = .deleteFailed then
      some (metadataText record.state record.createdAt record.generationUuid)
    else none

def sessionMetadata (node : MetaNode) (sid : ByteString) : Option ByteString :=
  match node.sessions sid with
  | none => cataloguedMetadata node sid
  | some session =>
      if session.isActive then
        if !session.admits then none
        else some (metadataText session.lifecycle session.createdAt session.generationUuid)
      else cataloguedMetadata node sid

def replyMetaQuery (node : MetaNode) (keyexpr : ByteString) : List Reply :=
  match parseKey node.keyPrefix keyexpr with
  | none => []
  | some parsed =>
      if parsed.kind = .metaAck then
        match (parseAckToken parsed.uuid).bind node.results with
        | none => []
        | some result =>
            match encodeAckResult result with
            | .error _ => []
            | .ok encoded => [⟨keyexpr, encoded, kSitosV1Ack⟩]
      else if parsed.kind ≠ .metaSession then []
      else
        match sessionMetadata node parsed.sid with
        | none => []
        | some json => [⟨keyexpr, encode (.str json), kSitosV1⟩]

/-! ## What the publisher takes -/

section Publisher

variable {metadataKey : ByteString} {found : Discovery} {generation : FenceUuid}

/-- A reply that names a generation. -/
structure Names (metadataKey : ByteString) (generation : FenceUuid) (reply : Reply) : Prop where
  key : reply.key = metadataKey
  encoding : reply.encodingId = kSitosV1
  payload : decodeMetadata reply.payload = some generation

theorem decodeMetadata_eq_some_iff {payload : ByteString} :
    decodeMetadata payload = some generation ↔
      ∃ json, decode payload = some (.str json) ∧ parse json = some generation := by
  rw [decodeMetadata]
  cases hdecode : decode payload with
  | none => simp
  | some value => cases value <;> simp

theorem onReply_of_names {reply : Reply} (hnames : Names metadataKey generation reply)
    (hfound : found.generation = none) :
    onReply metadataKey found reply = ({ found with generation := some generation }, true) := by
  have hkey : ¬(reply.key ≠ metadataKey ∨ reply.encodingId ≠ kSitosV1) :=
    not_or.mpr ⟨not_not.mpr hnames.key, not_not.mpr hnames.encoding⟩
  simp only [onReply, if_neg hkey, hnames.payload, hfound, Option.isSome_none,
    if_neg Bool.false_ne_true]

/-- A reply that names no generation spoils the query, and so does a second one. -/
theorem onReply_invalid {reply : Reply}
    (hreply : (∀ generation, ¬Names metadataKey generation reply) ∨
      found.generation.isSome = true) :
    (onReply metadataKey found reply).1.invalidReply = true := by
  rw [onReply]
  by_cases hkey : reply.key ≠ metadataKey ∨ reply.encodingId ≠ kSitosV1
  · rw [if_pos hkey]
  · rw [if_neg hkey]
    cases hpayload : decodeMetadata reply.payload with
    | none => rfl
    | some parsed =>
        rw [not_or, not_not, not_not] at hkey
        rcases hreply with hnone | hsome
        · exact absurd ⟨hkey.1, hkey.2, hpayload⟩ (hnone parsed)
        · dsimp only
          rw [if_pos hsome]

theorem onReply_keeps_invalid (hinvalid : found.invalidReply = true) (reply : Reply) :
    (onReply metadataKey found reply).1.invalidReply = true := by
  rw [onReply]
  by_cases hkey : reply.key ≠ metadataKey ∨ reply.encodingId ≠ kSitosV1
  · rw [if_pos hkey]
  · rw [if_neg hkey]
    cases decodeMetadata reply.payload with
    | none => rfl
    | some parsed =>
        dsimp only
        split_ifs
        · rfl
        · exact hinvalid

theorem deliver_keeps_invalid (hinvalid : found.invalidReply = true) (replies : List Reply) :
    (deliver metadataKey found replies).invalidReply = true := by
  induction replies generalizing found with
  | nil => exact hinvalid
  | cons reply replies ih =>
      rw [deliver]
      split_ifs
      · exact ih (onReply_keeps_invalid hinvalid reply)
      · exact onReply_keeps_invalid hinvalid reply

/-- What is left of the replies: nothing, the only one, or the query is spoiled. -/
theorem deliver_start (metadataKey : ByteString) (replies : List Reply) :
    (replies = [] ∧ deliver metadataKey Discovery.start replies = Discovery.start) ∨
    (∃ reply generation, replies = [reply] ∧ Names metadataKey generation reply ∧
      deliver metadataKey Discovery.start replies = ⟨false, some generation⟩) ∨
    ((∀ reply generation, replies = [reply] → ¬Names metadataKey generation reply) ∧
      replies ≠ [] ∧ (deliver metadataKey Discovery.start replies).invalidReply = true) := by
  cases replies with
  | nil => exact .inl ⟨rfl, rfl⟩
  | cons reply replies =>
      right
      by_cases hnames : ∃ generation, Names metadataKey generation reply
      · obtain ⟨generation, hnames⟩ := hnames
        rw [deliver, onReply_of_names hnames rfl, if_pos rfl]
        cases replies with
        | nil => exact .inl ⟨reply, generation, rfl, hnames, rfl⟩
        | cons second replies =>
            refine .inr ⟨fun _ _ hone => by simp at hone, by simp, ?_⟩
            have hspoiled : (onReply metadataKey ⟨false, some generation⟩ second).1.invalidReply =
                true := onReply_invalid (.inr rfl)
            show (deliver metadataKey ⟨false, some generation⟩
              (second :: replies)).invalidReply = true
            rw [deliver]
            split_ifs
            · exact deliver_keeps_invalid hspoiled replies
            · exact hspoiled
      · rw [not_exists] at hnames
        refine .inr ⟨?_, by simp, ?_⟩
        · intro only generation hone
          rw [← (List.cons.inj hone).1]
          exact hnames generation
        · have hspoiled : (onReply metadataKey Discovery.start reply).1.invalidReply = true :=
            onReply_invalid (.inl hnames)
          rw [deliver]
          split_ifs
          · exact deliver_keeps_invalid hspoiled replies
          · exact hspoiled

/-- Discovery succeeds exactly when the query does, with one reply, under the key and the encoding
that were asked for, whose text names an active session of that generation. -/
theorem discoverSessionGeneration_eq_ok_iff (keyPrefix sid : ByteString)
    (get : ByteString → Option ErrorInfo × List Reply) (generation : FenceUuid) :
    discoverSessionGeneration keyPrefix sid get = .ok generation ↔
      ∃ metadataKey reply json, buildMetaSessionKey keyPrefix sid = some metadataKey ∧
        get metadataKey = (none, [reply]) ∧ reply.key = metadataKey ∧
        reply.encodingId = kSitosV1 ∧ decode reply.payload = some (.str json) ∧
        IsMetadata (json.map unaliased) generation := by
  rw [discoverSessionGeneration]
  cases hkey : buildMetaSessionKey keyPrefix sid with
  | none => simp
  | some metadataKey =>
      simp only [Option.some.injEq]
      cases hget : (get metadataKey).1 with
      | some failure =>
          refine iff_of_false (by simp) ?_
          rintro ⟨_, reply, json, rfl, hpair, -⟩
          rw [hpair] at hget
          cases hget
      | none =>
          have hpair (replies : List Reply) :
              get metadataKey = (none, replies) ↔ (get metadataKey).2 = replies := by
            rw [Prod.ext_iff]
            simp [hget]
          simp only
          rcases deliver_start metadataKey (get metadataKey).2 with
            ⟨hnil, hdeliver⟩ | ⟨reply, found, hone, hnames, hdeliver⟩ | ⟨hnone, -, hspoiled⟩
          · rw [hdeliver]
            refine iff_of_false (by simp [Discovery.start]) ?_
            rintro ⟨_, reply, json, rfl, hreply, -⟩
            rw [hpair, hnil] at hreply
            cases hreply
          · rw [hdeliver]
            obtain ⟨json, hdecode, hparse⟩ := decodeMetadata_eq_some_iff.mp hnames.payload
            simp only [if_neg Bool.false_ne_true, Except.ok.injEq]
            constructor
            · rintro rfl
              exact ⟨metadataKey, reply, json, rfl, (hpair _).mpr hone, hnames.key,
                hnames.encoding, hdecode, parse_iff.mp hparse⟩
            · rintro ⟨_, reply', json', rfl, hreply, -, -, hdecode', hmetadata⟩
              rw [hpair, hone] at hreply
              obtain rfl := (List.cons.inj hreply).1
              obtain rfl := ParamValue.str.inj (Option.some.inj (hdecode.symm.trans hdecode'))
              exact Option.some.inj (hparse.symm.trans (parse_iff.mpr hmetadata))
          · rw [if_pos hspoiled]
            refine iff_of_false (by simp) ?_
            rintro ⟨_, reply, json, rfl, hreply, hkey', hencoding, hdecode, hmetadata⟩
            exact hnone reply generation ((hpair _).mp hreply) ⟨hkey', hencoding,
              decodeMetadata_eq_some_iff.mpr ⟨json, hdecode, parse_iff.mpr hmetadata⟩⟩

end Publisher

/-! ## The text of the node -/

section Text

variable {rest : ByteString}

theorem character_of_isPlain {c : UInt8} (hplain : isPlain c = true) :
    Character (c :: rest) [c] rest := by
  simp only [isPlain, Bool.and_eq_true, decide_eq_true_iff, bne_iff_ne, ne_eq] at hplain
  obtain ⟨⟨⟨hcontrol, hascii⟩, hquotation⟩, hescape⟩ := hplain
  rw [UInt8.le_iff_toNat_le] at hcontrol
  rw [UInt8.lt_iff_toNat_lt] at hascii
  have hcontrol : 0x20 ≤ c.toNat := hcontrol
  have hascii : c.toNat < 0x7F := hascii
  have hquotation : c.toNat ≠ quotationMark.toNat := fun heq => hquotation (UInt8.toNat_inj.mp heq)
  have hescape : c.toNat ≠ reverseSolidus.toNat := fun heq => hescape (UInt8.toNat_inj.mp heq)
  obtain ⟨character, hcode⟩ : ∃ character : Char, character.val.toNat = c.toNat :=
    exists_char (by omega)
  obtain ⟨first, tail, hencode, hsmall, -⟩ := head_of_encode character
  obtain ⟨hfirst, rfl⟩ := hsmall (by omega)
  obtain rfl : first = c := UInt8.toNat_inj.mp (hfirst.trans hcode)
  have hcharacter : Character (encode character ++ rest) (encode character) rest :=
    .unescaped character (by omega) (by omega) (by omega)
  rwa [hencode] at hcharacter

theorem characters_of_isPlainText {text : ByteString} (hplain : isPlainText text = true) :
    Characters (text ++ quotationMark :: rest) text (quotationMark :: rest) := by
  induction text with
  | nil => exact .nil
  | cons c text ih =>
      rw [isPlainText, List.all_cons, Bool.and_eq_true] at hplain
      exact .cons (character_of_isPlain hplain.1) (ih hplain.2)

/-- A plain text in quotes stands for itself. -/
theorem quoted_quote {text : ByteString} (hplain : isPlainText text = true) :
    Quoted (quote text ++ rest) text rest := by
  refine ⟨text ++ quotationMark :: rest, ?_, characters_of_isPlainText hplain⟩
  show FlatJson.quoteMark :: (text ++ [FlatJson.quoteMark] ++ rest) = _
  rw [List.append_assoc]
  rfl

theorem spaces_refl (text : ByteString) : Spaces text text :=
  ⟨[], by simp, rfl⟩

variable {lifecycle : SessionLifecycleState} {createdAt generationUuid : ByteString}

/-- The members of the text the node replies with. -/
def metadataMembers (lifecycle : SessionLifecycleState) (createdAt generationUuid : ByteString) :
    List Member :=
  [(kState, some (lifecycleName lifecycle)), (kCreatedAt, some createdAt),
    (kGenerationUuid, some generationUuid)]

theorem metadataText_eq :
    metadataText lifecycle createdAt generationUuid =
      beginObject :: (quote kState ++ nameSeparator ::
        (quote (lifecycleName lifecycle) ++ valueSeparator ::
          (quote kCreatedAt ++ nameSeparator :: (quote createdAt ++ valueSeparator ::
            (quote kGenerationUuid ++ nameSeparator ::
              (quote generationUuid ++ endObject :: [])))))) := by
  have hstate : ascii "\x7b\"state\":\"" =
      beginObject :: (quote kState ++ [nameSeparator, quotationMark]) := rfl
  have hcreated : ascii "\",\"created_at\":\"" =
      quotationMark :: valueSeparator :: (quote kCreatedAt ++ [nameSeparator, quotationMark]) := rfl
  have hgeneration : ascii "\",\"generation_uuid\":\"" =
      quotationMark :: valueSeparator ::
        (quote kGenerationUuid ++ [nameSeparator, quotationMark]) := rfl
  have hend : ascii "\"\x7d" = [quotationMark, endObject] := rfl
  have hquote (text : ByteString) : quote text = quotationMark :: (text ++ [quotationMark]) := rfl
  rw [metadataText, hstate, hcreated, hgeneration, hend]
  simp only [hquote, List.cons_append, List.append_assoc, List.nil_append]

theorem objectText_metadataText (hcreated : isPlainText createdAt = true)
    (hgeneration : isPlainText generationUuid = true) :
    ObjectText knownMembers kSkipDepthMax (metadataMembers lifecycle createdAt generationUuid)
      (metadataText lifecycle createdAt generationUuid) := by
  have hlifecycle := isPlainText_lifecycleName lifecycle
  rw [metadataText_eq]
  refine ⟨_, _, [], [], spaces_refl _, spaces_refl _, ?_, spaces_refl _, rfl⟩
  refine .next (quoted_quote (by decide)) (spaces_refl _) (spaces_refl _)
    (.known (by simp [knownMembers]) (quoted_quote hlifecycle)) (spaces_refl _) (spaces_refl _) ?_
  refine .next (quoted_quote (by decide)) (spaces_refl _) (spaces_refl _)
    (.known (by simp [knownMembers]) (quoted_quote hcreated)) (spaces_refl _) (spaces_refl _) ?_
  exact .last (quoted_quote (by decide)) (spaces_refl _) (spaces_refl _)
    (.known (by simp [knownMembers]) (quoted_quote hgeneration)) (spaces_refl _)

theorem length_lifecycleName (lifecycle : SessionLifecycleState) :
    (lifecycleName lifecycle).length ≤ 13 := by
  cases lifecycle <;> decide

/-- The parser reads the three members back. -/
theorem parse_metadataText (hcreated : isPlainText createdAt = true)
    (hgeneration : isPlainText generationUuid = true)
    (hlength : createdAt.length + generationUuid.length ≤ 16000) :
    parse (metadataText lifecycle createdAt generationUuid) =
      Fields.result ⟨some (lifecycleName lifecycle), some createdAt, some generationUuid⟩ := by
  have htext : ObjectText knownMembers kSkipDepthMax
      (metadataMembers lifecycle createdAt generationUuid)
      (metadataText lifecycle createdAt generationUuid) :=
    objectText_metadataText hcreated hgeneration
  have hclean : Clean (metadataText lifecycle createdAt generationUuid) :=
    clean_of_narrow (narrow_of_objectText htext)
  have hfold : (metadataMembers lifecycle createdAt generationUuid).foldlM record Fields.unseen =
      some ⟨some (lifecycleName lifecycle), some createdAt, some generationUuid⟩ := rfl
  have hshort : ¬(metadataText lifecycle createdAt generationUuid).length > kMetadataMax := by
    have hname := length_lifecycleName lifecycle
    have h1 : (ascii "\x7b\"state\":\"").length = 10 := rfl
    have h2 : (ascii "\",\"created_at\":\"").length = 16 := rfl
    have h3 : (ascii "\",\"generation_uuid\":\"").length = 21 := rfl
    have h4 : (ascii "\"\x7d").length = 2 := rfl
    simp only [metadataText, List.length_append, h1, h2, h3, h4, kMetadataMax]
    omega
  rw [parse, if_neg hshort, (parseObject_iff hclean).mpr ⟨_, htext, hfold⟩, Option.bind_eq_bind,
    Option.bind_some]
  rfl

end Text

/-! ## The publisher and the node -/

/-- What the node checked when it took its sessions and its records in. -/
structure MetaNode.WellFormed (node : MetaNode) : Prop where
  keyPrefix : isValidPrefix node.keyPrefix = true
  session : ∀ sid session, node.sessions sid = some session →
    isTimestamp session.createdAt = true ∧ isCanonicalUuid session.generationUuid = true
  catalog : ∀ sid record, node.catalog sid = some record → Valid record

/-- The lifecycle, the time and the generation that the node has to tell of a session. -/
inductive Reports (node : MetaNode) (sid : ByteString) :
    SessionLifecycleState → ByteString → ByteString → Prop where
  | session {session : MetaSession} (hsession : node.sessions sid = some session)
      (hactive : session.isActive = true) (hadmits : session.admits = true) :
      Reports node sid session.lifecycle session.createdAt session.generationUuid
  | deletion {record : SessionCatalogRecord}
      (hgone : ∀ session ∈ node.sessions sid, session.isActive = false)
      (hrecord : node.catalog sid = some record)
      (hstate : record.state = .deleting ∨ record.state = .deleteFailed) :
      Reports node sid record.state record.createdAt record.generationUuid

section Node

variable {node : MetaNode} {sid : ByteString}

theorem checked_of_reports (hnode : node.WellFormed) {lifecycle : SessionLifecycleState}
    {createdAt generationUuid : ByteString}
    (hreports : Reports node sid lifecycle createdAt generationUuid) :
    isTimestamp createdAt = true ∧ isCanonicalUuid generationUuid = true := by
  cases hreports with
  | session hsession hactive hadmits => exact hnode.session sid _ hsession
  | deletion hgone hrecord hstate =>
      have hvalid := hnode.catalog sid _ hrecord
      exact ⟨hvalid.created, hvalid.generation⟩

theorem cataloguedMetadata_eq_some_iff
    (hgone : ∀ session ∈ node.sessions sid, session.isActive = false) {json : ByteString} :
    cataloguedMetadata node sid = some json ↔
      ∃ lifecycle createdAt generationUuid, Reports node sid lifecycle createdAt generationUuid ∧
        json = metadataText lifecycle createdAt generationUuid := by
  rw [cataloguedMetadata, Option.bind_eq_some_iff]
  constructor
  · rintro ⟨record, hrecord, htext⟩
    split_ifs at htext with hstate
    exact ⟨_, _, _, .deletion hgone hrecord hstate, (Option.some.inj htext).symm⟩
  · rintro ⟨_, _, _, hreports, rfl⟩
    cases hreports with
    | session hsession hactive hadmits =>
        rw [hgone _ hsession] at hactive
        cases hactive
    | deletion _ hrecord hstate => exact ⟨_, hrecord, if_pos hstate⟩

theorem sessionMetadata_eq_some_iff {json : ByteString} :
    sessionMetadata node sid = some json ↔
      ∃ lifecycle createdAt generationUuid, Reports node sid lifecycle createdAt generationUuid ∧
        json = metadataText lifecycle createdAt generationUuid := by
  rw [sessionMetadata]
  cases hsession : node.sessions sid with
  | none => exact cataloguedMetadata_eq_some_iff fun session hmem => by simp [hsession] at hmem
  | some session =>
      dsimp only
      split_ifs with hactive hadmits
      · refine iff_of_false (by simp) ?_
        rintro ⟨_, _, _, hreports, -⟩
        cases hreports with
        | session hsession' _ hadmits' =>
            obtain rfl := Option.some.inj (hsession.symm.trans hsession')
            simp [hadmits'] at hadmits
        | deletion hgone =>
            rw [hgone session hsession] at hactive
            cases hactive
      · constructor
        · intro htext
          exact ⟨_, _, _, .session hsession hactive (by simpa using hadmits),
            (Option.some.inj htext).symm⟩
        · rintro ⟨_, _, _, hreports, rfl⟩
          cases hreports with
          | session hsession' =>
              obtain rfl := Option.some.inj (hsession.symm.trans hsession')
              rfl
          | deletion hgone =>
              rw [hgone session hsession] at hactive
              cases hactive
      · refine cataloguedMetadata_eq_some_iff fun other hmem => ?_
        obtain rfl := Option.some.inj (hsession.symm.trans hmem)
        simpa using hactive

theorem replyMetaQuery_eq {metadataKey : ByteString}
    (hkey : buildMetaSessionKey node.keyPrefix sid = some metadataKey) :
    replyMetaQuery node metadataKey =
      ((sessionMetadata node sid).map fun json =>
        (⟨metadataKey, encode (.str json), kSitosV1⟩ : Reply)).toList := by
  have hbuild : (Route.metaSession sid).build node.keyPrefix = some metadataKey := hkey
  have hparse := (parseKey_of_build hbuild).1
  rw [Route.parsed] at hparse
  simp only [replyMetaQuery, hparse]
  rw [if_neg (by decide), if_neg (by decide)]
  cases sessionMetadata node sid <;> rfl

/-- The node tells one thing of a session. -/
theorem reports_unique {lifecycle lifecycle' : SessionLifecycleState}
    {createdAt createdAt' generationUuid generationUuid' : ByteString}
    (hreports : Reports node sid lifecycle createdAt generationUuid)
    (hreports' : Reports node sid lifecycle' createdAt' generationUuid') :
    lifecycle = lifecycle' ∧ generationUuid = generationUuid' := by
  cases hreports with
  | session hsession hactive hadmits =>
      cases hreports' with
      | session hsession' =>
          obtain rfl := Option.some.inj (hsession.symm.trans hsession')
          exact ⟨rfl, rfl⟩
      | deletion hgone => simp [hgone _ hsession] at hactive
  | deletion hgone hrecord =>
      cases hreports' with
      | session hsession hactive => simp [hgone _ hsession] at hactive
      | deletion _ hrecord' =>
          obtain rfl := Option.some.inj (hrecord.symm.trans hrecord')
          exact ⟨rfl, rfl⟩

theorem isCanonicalUuid_iff {text : ByteString} :
    isCanonicalUuid text = true ↔
      ∃ generation, isValidFenceUuid generation = true ∧ text = formatFenceUuid generation := by
  rw [isCanonicalUuid]
  cases hparse : parseAckToken text with
  | none =>
      refine iff_of_false (by simp) ?_
      rintro ⟨generation, hvalid, htext⟩
      rw [Token.parseAckToken_eq_some_iff.mpr ⟨hvalid, htext⟩] at hparse
      cases hparse
  | some token =>
      obtain ⟨hvalid, htext⟩ := Token.parseAckToken_eq_some_iff.mp hparse
      exact iff_of_true (by simp [htext]) ⟨token, hvalid, htext⟩

theorem length_le_of_isTimestamp {text : ByteString} (htext : isTimestamp text = true) :
    text.length ≤ 30 := by
  simp only [isTimestamp, kSeconds, Bool.and_eq_true, Bool.or_eq_true, decide_eq_true_iff,
    List.isEmpty_iff, List.length_take, List.length_drop] at htext
  rcases htext.2 with hnil | hfraction
  · have hlength := congrArg List.length hnil
    rw [List.length_take, List.length_drop, List.length_nil] at hlength
    omega
  · omega

theorem parse_of_reports (hnode : node.WellFormed) {lifecycle : SessionLifecycleState}
    {createdAt generationUuid : ByteString}
    (hreports : Reports node sid lifecycle createdAt generationUuid) {generation : FenceUuid} :
    parse (metadataText lifecycle createdAt generationUuid) = some generation ↔
      lifecycle = .active ∧ isValidFenceUuid generation = true ∧
        generationUuid = formatFenceUuid generation := by
  obtain ⟨hcreated, hcanonical⟩ := checked_of_reports hnode hreports
  have hlength : generationUuid.length = 36 := by
    obtain ⟨other, -, rfl⟩ := isCanonicalUuid_iff.mp hcanonical
    exact Token.length_formatAckToken other
  have hshort := length_le_of_isTimestamp hcreated
  rw [parse_metadataText (isPlainText_of_isTimestamp hcreated)
    (isPlainText_of_isCanonicalUuid hcanonical) (by omega), Fields.result_eq_some_iff]
  have hname : lifecycleName lifecycle = ascii "active" ↔ lifecycle = .active := by
    cases lifecycle <;> decide
  simp only [Option.some.injEq, exists_eq', true_and, hname]
  exact and_left_comm

theorem discover_eq (hnode : node.WellFormed) (hsid : isValidSessionId sid = true) :
    discoverSessionGeneration node.keyPrefix sid (fun key => (none, replyMetaQuery node key)) =
      (sessionMetadata node sid).elim (.error kNoSessionMetadata) fun json =>
        (parse json).elim (.error kInvalidSessionMetadata) .ok := by
  have hkey : buildMetaSessionKey node.keyPrefix sid =
      some (joinKey node.keyPrefix (ascii "meta/session") sid) := by
    rw [buildMetaSessionKey, if_neg (by simp [hnode.keyPrefix, hsid])]
  simp only [discoverSessionGeneration, hkey, replyMetaQuery_eq hkey]
  cases sessionMetadata node sid with
  | none => rfl
  | some json =>
      have hdecode : decodeMetadata (encode (.str json)) = parse json := by
        rw [decodeMetadata, decode_encode]
        rfl
      cases hparse : parse json <;> simp [deliver, onReply, hdecode, hparse, Discovery.start]

/-- What a publisher finds is what the node has to tell of the session: the generation of an active
one, the lifecycle of one that is not, or nothing. -/
theorem discovery_of_node (hnode : node.WellFormed) (hsid : isValidSessionId sid = true)
    (generation : FenceUuid) :
    (discoverSessionGeneration node.keyPrefix sid (fun key => (none, replyMetaQuery node key)) =
        .ok generation ↔
      isValidFenceUuid generation = true ∧
        ∃ createdAt, Reports node sid .active createdAt (formatFenceUuid generation)) ∧
    (discoverSessionGeneration node.keyPrefix sid (fun key => (none, replyMetaQuery node key)) =
        .error kInvalidSessionMetadata ↔
      ∃ lifecycle createdAt generationUuid, lifecycle ≠ .active ∧
        Reports node sid lifecycle createdAt generationUuid) ∧
    (discoverSessionGeneration node.keyPrefix sid (fun key => (none, replyMetaQuery node key)) =
        .error kNoSessionMetadata ↔
      ∀ lifecycle createdAt generationUuid,
        ¬Reports node sid lifecycle createdAt generationUuid) := by
  rw [discover_eq hnode hsid]
  cases hmetadata : sessionMetadata node sid with
  | none =>
      have hnone : ∀ lifecycle createdAt generationUuid,
          ¬Reports node sid lifecycle createdAt generationUuid := by
        intro lifecycle createdAt generationUuid hreports
        rw [sessionMetadata_eq_some_iff.mpr ⟨_, _, _, hreports, rfl⟩] at hmetadata
        cases hmetadata
      refine ⟨iff_of_false (by simp) ?_, iff_of_false (by simp [kNoSessionMetadata,
        kInvalidSessionMetadata]) ?_, iff_of_true rfl hnone⟩
      · rintro ⟨-, createdAt, hreports⟩
        exact hnone _ _ _ hreports
      · rintro ⟨_, _, _, -, hreports⟩
        exact hnone _ _ _ hreports
  | some json =>
      obtain ⟨lifecycle, createdAt, generationUuid, hreports, rfl⟩ :=
        sessionMetadata_eq_some_iff.mp hmetadata
      have hparse (other : FenceUuid) :
          parse (metadataText lifecycle createdAt generationUuid) = some other ↔
            lifecycle = .active ∧ isValidFenceUuid other = true ∧
              generationUuid = formatFenceUuid other :=
        parse_of_reports hnode hreports
      have hsome : ¬∀ lifecycle createdAt generationUuid,
          ¬Reports node sid lifecycle createdAt generationUuid :=
        fun hnone => hnone _ _ _ hreports
      rw [Option.elim_some]
      cases hread : parse (metadataText lifecycle createdAt generationUuid) with
      | some found =>
          obtain ⟨rfl, hvalid, rfl⟩ := (hparse found).mp hread
          refine ⟨?_, iff_of_false (by simp) ?_, iff_of_false (by simp) hsome⟩
          · rw [Option.elim_some, Except.ok.injEq]
            constructor
            · rintro rfl
              exact ⟨hvalid, createdAt, hreports⟩
            · rintro ⟨hvalid', _, hreports'⟩
              have hsame := (reports_unique hreports hreports').2
              have hread' := (hparse generation).mpr ⟨rfl, hvalid', hsame⟩
              exact Option.some.inj (hread.symm.trans hread')
          · rintro ⟨_, _, _, hinactive, hreports'⟩
            exact hinactive (reports_unique hreports hreports').1.symm
      | none =>
          have hinactive : lifecycle ≠ .active := by
            rintro rfl
            obtain ⟨other, hother⟩ :=
              isCanonicalUuid_iff.mp (checked_of_reports hnode hreports).2
            rw [(hparse other).mpr ⟨rfl, hother⟩] at hread
            cases hread
          refine ⟨iff_of_false (by simp) ?_, iff_of_true rfl ⟨_, _, _, hinactive, hreports⟩,
            iff_of_false (by simp [kInvalidSessionMetadata, kNoSessionMetadata]) hsome⟩
          rintro ⟨-, _, hreports'⟩
          exact hinactive (reports_unique hreports hreports').1

end Node

/-- A node with one session, which it serves. -/
def servingNode : MetaNode where
  keyPrefix := ascii "sitos"
  sessions := fun sid =>
    if sid = ascii "run" then
      some ⟨true, true, .active, ascii "2024-05-06T07:08:09Z",
        ascii "01234567-89ab-4cde-8f01-23456789abcd"⟩
    else none
  catalog := fun _ => none
  results := fun _ => none

theorem servingNode_wellFormed : servingNode.WellFormed where
  keyPrefix := by decide
  session sid session hsession := by
    simp only [servingNode, Option.ite_none_right_eq_some, Option.some.injEq] at hsession
    obtain ⟨-, rfl⟩ := hsession
    exact ⟨by decide +kernel, by decide +kernel⟩
  catalog sid record hrecord := by cases hrecord

theorem discovery_of_node_serving :
    ∃ generation, discoverSessionGeneration (ascii "sitos") (ascii "run")
      (fun key => (none, replyMetaQuery servingNode key)) = .ok generation := by
  have hcanonical : isCanonicalUuid (ascii "01234567-89ab-4cde-8f01-23456789abcd") = true := by
    decide +kernel
  obtain ⟨generation, hvalid, htext⟩ := isCanonicalUuid_iff.mp hcanonical
  have hsession : servingNode.sessions (ascii "run") =
      some ⟨true, true, .active, ascii "2024-05-06T07:08:09Z",
        ascii "01234567-89ab-4cde-8f01-23456789abcd"⟩ := by
    simp only [servingNode, if_true]
  have hreports : Reports servingNode (ascii "run") .active (ascii "2024-05-06T07:08:09Z")
      (ascii "01234567-89ab-4cde-8f01-23456789abcd") :=
    Reports.session hsession rfl rfl
  rw [htext] at hreports
  exact ⟨generation, (discovery_of_node servingNode_wellFormed (by decide) generation).1.mpr
    ⟨hvalid, _, hreports⟩⟩

end Sitos.SessionDiscovery

/-
# Sessions of the secure transport: keys, sending and receiving

How `newSession` derives the keys and the epoch of a session, how packets are sent, and the
two ways in which they are received: `RecvPacket` opens and accepts one record after the
other, the batch calls open a whole group of records, offer their numbers to the replay
window in one call and filter the packets of rejected records out in place.

* `newSession_eq_ok` : the data and the keys of a new session;
* `sendPacket_eq`, `sendPackets_eq` : the records that a send writes.
-/
import TrustIX.GoText
import TrustIX.InPlaceFilter
import TrustIX.SecureRecord

namespace SecureTransport

open SecureHandshake Fallible

/-! ## The inner session -/

inductive OffloadError where
  /-- `transport.ErrCryptoOffloadUnavailable`. -/
  | unavailable
  | failed (detail : String)

/-- The inner session, by the interfaces it implements. -/
structure Inner where
  /-- `PacketBatchBuilderSession`. -/
  builder : Bool
  /-- `PacketBatchReceiverWithRelease` or `PacketBatchReceiver`. -/
  batchReceive : Bool
  /-- `TLSExporterSession`. -/
  exportKeyingMaterial : Option ((label : String) → (context : Bytes) → ℕ → Except String Bytes)
  /-- `CryptoOffloadSession`. -/
  enableCryptoOffload : Option (Except OffloadError Unit)
  /-- What `SendPacket` says to a server hello that is sent again. -/
  resend : Except String Unit

/-! ## Keys -/

def keyLen : Suite → ℕ
  | .aes256GCMX25519 => 32
  | .aes128GCMX25519 => 16
  | .chaCha20Poly1305X25519 => 32

def nonceLen : ℕ := 12

def suiteName : Suite → String
  | .aes256GCMX25519 => "AES-256-GCM-X25519"
  | .aes128GCMX25519 => "AES-128-GCM-X25519"
  | .chaCha20Poly1305X25519 => "CHACHA20-POLY1305-X25519"

def kdfInfo : Suite → String
  | .aes256GCMX25519 => "TrustIX secure transport AES-256-GCM X25519 v1"
  | .aes128GCMX25519 => "TrustIX secure transport AES-128-GCM X25519 v1"
  | .chaCha20Poly1305X25519 => "TrustIX secure transport CHACHA20-POLY1305 X25519 v1"

/-- What a session takes from the crypto libraries. -/
structure Crypto where
  /-- `ecdh.X25519().NewPublicKey`. -/
  newPublicKey : Bytes → Except String Unit
  ecdh : (privateKey peerPublic : Bytes) → Except String Bytes
  sha256 : Bytes → Bytes
  /-- HMAC with SHA-256. -/
  hmac : (key message : Bytes) → Bytes
  newAEAD : Suite → (key : Bytes) → Except String AEAD

/-- What both sides know of a completed handshake. -/
structure Handshake where
  clientHello : Hello
  serverHello : Hello
  suite : Suite
  batchRecords : Bool
  derivedEpoch : Bool
  clientHelloRaw : Bytes
  serverHelloRaw : Bytes

/-- The part of `Options` that `newSession` reads. -/
structure Options where
  epoch : UInt64
  keySource : Option String
  encryption : Option String

structure EncryptionPolicy where
  sendEncrypted : Bool
  receiveEncrypted : Bool
  deriving DecidableEq

def EncryptionPolicy.anyEncrypted (policy : EncryptionPolicy) : Bool :=
  policy.sendEncrypted || policy.receiveEncrypted

def normalizeEncryptionMode (raw : String) : String :=
  let mode := GoText.toLower (GoText.trimSpace raw)
  if mode ∈ ["", "secure", "encrypted", "trustix_secure", "trustix-secure"] then "secure"
  else if mode ∈ ["plaintext", "none", "disabled", "off"] then "plaintext"
  else if mode ∈ ["send_encrypted", "outbound_encrypted", "encrypt_outbound", "send_only"] then
    "send_encrypted"
  else if mode ∈ ["receive_encrypted", "inbound_encrypted", "encrypt_inbound", "receive_only"] then
    "receive_encrypted"
  else raw

def encryptionPolicyForMode (raw : String) : EncryptionPolicy :=
  let mode := normalizeEncryptionMode raw
  if mode = "plaintext" then ⟨false, false⟩
  else if mode = "send_encrypted" then ⟨true, false⟩
  else if mode = "receive_encrypted" then ⟨false, true⟩
  else ⟨true, true⟩

def requestedEncryptionPolicy (options : Options) : EncryptionPolicy :=
  encryptionPolicyForMode (options.encryption.getD "secure")

def requestedKeySource (options : Options) : String :=
  match options.keySource with
  | none => "auto"
  | some source => if source = "" then "auto" else source

section Keys

variable (crypto : Crypto)

/-- The blocks of `hkdfExpand`, 32 bytes each. -/
def hkdfBlocks (prk info : Bytes) : ℕ → (counter : ℕ) → (previous : Bytes) → Bytes
  | 0, _, _ => []
  | blocks + 1, counter, previous =>
    let block := crypto.hmac prk (previous ++ info ++ [UInt8.ofNat counter])
    block ++ hkdfBlocks prk info blocks (counter + 1) block

def hkdfExpand (prk info : Bytes) (length : ℕ) : Bytes :=
  (hkdfBlocks crypto prk info ((length + 31) / 32) 1 []).take length

def deriveKeyMaterial (secret : Bytes) (handshake : Handshake) (length : ℕ) : Bytes :=
  let prk := crypto.hmac (handshake.clientHello.random ++ handshake.serverHello.random) secret
  hkdfExpand crypto prk (asciiBytes (kdfInfo handshake.suite)) length

def tlsExporterContext (handshake : Handshake) : Bytes :=
  crypto.sha256
    (asciiBytes "TrustIX secure transport TLS exporter context v1\x00" ++
      ((if handshake.suite = defaultSuite then []
        else asciiBytes "suite\x00" ++ asciiBytes (suiteName handshake.suite) ++ [0]) ++
      (handshake.clientHello.random ++ handshake.serverHello.random ++
        handshake.clientHello.publicKey ++ handshake.serverHello.publicKey)))

def deriveTLSExporterKeyMaterial (inner : Inner) (handshake : Handshake) (length : ℕ) :
    Except String Bytes :=
  match inner.exportKeyingMaterial with
  | none => .error "TLS exporter unavailable"
  | some exporter =>
    match exporter "EXPORTER-TrustIX-secure-transport-v1" (tlsExporterContext crypto handshake)
        length with
    | .error err => .error ("derive TrustIX key material from TLS exporter: " ++ err)
    | .ok material =>
      if material.length ≠ length then
        .error ("derive TrustIX key material from TLS exporter: got " ++
          toString material.length ++ " bytes, want " ++ toString length)
      else .ok material

def materialLen (suite : Suite) : ℕ := keyLen suite * 2 + nonceLen * 2

def deriveSessionKeyMaterial (inner : Inner) (secret : Bytes) (handshake : Handshake)
    (options : Options) : Except String Bytes :=
  let length := materialLen handshake.suite
  let requested := requestedKeySource options
  if requested = "tls_exporter" then deriveTLSExporterKeyMaterial crypto inner handshake length
  else if requested = "trustix_x25519" then .ok (deriveKeyMaterial crypto secret handshake length)
  else if requested = "auto" then
    match deriveTLSExporterKeyMaterial crypto inner handshake length with
    | .ok material => .ok material
    | .error _ => .ok (deriveKeyMaterial crypto secret handshake length)
  else
    .error ("invalid TrustIX secure transport handshake: unsupported key source " ++ requested)

/-- `binary.BigEndian.AppendUint32` of the length, and the field. -/
def epochField (field : Bytes) : Bytes := BigEndian.put 4 field.length ++ field

def deriveSessionEpoch (handshake : Handshake) : ℕ :=
  let digest := crypto.sha256
    (asciiBytes "TrustIX secure transport wire epoch v1\x00" ++
      ([asciiBytes (suiteName handshake.suite), handshake.clientHello.random,
        handshake.serverHello.random, handshake.clientHello.publicKey,
        handshake.serverHello.publicKey].flatMap epochField))
  let epoch := BigEndian.get (digest.take 8)
  let epoch := if epoch = 0 then BigEndian.get ((digest.drop 8).take 8) else epoch
  if epoch = 0 then 1 else epoch

end Keys

/-- The keys and IVs of the two directions. -/
structure DirectionKeys where
  clientKey : Bytes
  serverKey : Bytes
  clientIV : Bytes
  serverIV : Bytes

def directionKeys (suite : Suite) (material : Bytes) : DirectionKeys where
  clientKey := material.take (keyLen suite)
  serverKey := (material.drop (keyLen suite)).take (keyLen suite)
  clientIV := (material.drop (keyLen suite * 2)).take nonceLen
  serverIV := material.drop (keyLen suite * 2 + nonceLen)

/-- The key and the IV that a side sends with. -/
def DirectionKeys.sends (keys : DirectionKeys) : Side → Bytes × Bytes
  | .client => (keys.clientKey, keys.clientIV)
  | .server => (keys.serverKey, keys.serverIV)

/-- The other end of a session. -/
def peerSide : Side → Side
  | .client => .server
  | .server => .client

def enableCryptoOffload (inner : Inner) (session : Session) : Except String Session :=
  if !session.sendEncrypted || !session.recvEncrypted then .ok session
  else
    match inner.enableCryptoOffload with
    | none => .ok session
    | some (.error .unavailable) => .ok session
    | some (.error (.failed err)) => .error ("enable TrustIX crypto offload: " ++ err)
    | some (.ok ()) =>
      .ok { session with cryptoOffloaded := true, sendIV := [], sendAEAD := none }

/-- The epoch of a session: the configured one, or one from the handshake. -/
def sessionEpoch (crypto : Crypto) (handshake : Handshake) (options : Options) : ℕ :=
  if options.epoch = 0 ∧ handshake.derivedEpoch = true then deriveSessionEpoch crypto handshake
  else options.epoch.toNat

/-- A session before its keys are set. -/
def blankSession (crypto : Crypto) (role : Side) (handshake : Handshake) (options : Options) :
    Session where
  role := role
  suite := handshake.suite
  epoch := sessionEpoch crypto handshake options
  batchRecords := handshake.batchRecords
  sendEncrypted := (requestedEncryptionPolicy options).sendEncrypted
  recvEncrypted := (requestedEncryptionPolicy options).receiveEncrypted
  cryptoOffloaded := false
  sendAEAD := none
  recvAEAD := none
  sendIV := []
  recvIV := []
  clientHelloRaw := handshake.clientHelloRaw
  serverHelloRaw := handshake.serverHelloRaw
  sendSeq := 0
  recvPending := []
  replay := ReplayWindow.newReplayWindow ReplayWindow.defaultReplayWindowSize

/-- The AEAD and the IV of the directions that are encrypted. -/
def installKeys (session : Session) (sendAEAD recvAEAD : AEAD) (sendIV recvIV : Bytes) : Session :=
  { session with
    sendAEAD := if session.sendEncrypted then some sendAEAD else none
    sendIV := if session.sendEncrypted then sendIV else []
    recvAEAD := if session.recvEncrypted then some recvAEAD else none
    recvIV := if session.recvEncrypted then recvIV else [] }

def peerPublicKey (role : Side) (handshake : Handshake) : Bytes :=
  match role with
  | .client => handshake.serverHello.publicKey
  | .server => handshake.clientHello.publicKey

def newSession (crypto : Crypto) (inner : Inner) (role : Side) (privateKey : Bytes)
    (handshake : Handshake) (options : Options) : Except String Session := do
  let peerPublic := peerPublicKey role handshake
  (crypto.newPublicKey peerPublic).mapError
    ("invalid TrustIX secure transport handshake: parse peer X25519 key: " ++ ·)
  let secret ← (crypto.ecdh privateKey peerPublic).mapError
    ("derive TrustIX transport shared secret: " ++ ·)
  let session := blankSession crypto role handshake options
  if (requestedEncryptionPolicy options).anyEncrypted = false then .ok session
  else do
    let material ← deriveSessionKeyMaterial crypto inner secret handshake options
    let keys := directionKeys handshake.suite material
    let clientAEAD ← crypto.newAEAD handshake.suite keys.clientKey
    let serverAEAD ← crypto.newAEAD handshake.suite keys.serverKey
    let session := match role with
      | .client => installKeys session clientAEAD serverAEAD keys.clientIV keys.serverIV
      | .server => installKeys session serverAEAD clientAEAD keys.serverIV keys.clientIV
    enableCryptoOffload inner session

/-! ## Sending

Every call gives the session after it and the packets written to the inner session. -/

/-- `sendSeq.Add(count)`: the counter after it, and the first number reserved. -/
def reserve (session : Session) (count : ℕ) : Session × ℕ :=
  let sendSeq := (session.sendSeq + count) % 2 ^ 64
  ({ session with sendSeq := sendSeq }, (sendSeq + (2 ^ 64 - count % 2 ^ 64) + 1) % 2 ^ 64)

/-- A record under the send key of the session. -/
def Session.sealWith (session : Session) (aead : AEAD) (record : Record) : Bytes :=
  sealRecord aead session.sendIV session.suite session.epoch record

/-- `none` is the panic of a session without a send key. -/
def sendPacket (session : Session) (pkt : Bytes) : Option (Session × List Bytes) :=
  if session.sendEncrypted = false ∨ session.cryptoOffloaded = true then some (session, [pkt])
  else
    session.sendAEAD.map fun aead =>
      let (session, seq) := reserve session 1
      (session, [session.sealWith aead ⟨seq, 0, pkt⟩])

/-- All packets in one record; `none` if they do not fit. -/
def sendSecureBatchRecord (session : Session) (aead : AEAD) (packets : List Bytes) :
    Option (Session × List Bytes) :=
  (secureBatchRecordLayout packets).map fun _ =>
    let (session, seq) := reserve session 1
    (session, [session.sealWith aead ⟨seq, dataFlagBatch, batchPlaintext packets⟩])

/-- One record for each packet. -/
def sendRecords (session : Session) (aead : AEAD) (pkts : List Bytes) : Session × List Bytes :=
  let (session, baseSeq) := reserve session pkts.length
  (session, pkts.zipIdx.map fun (pkt, i) =>
    session.sealWith aead ⟨(baseSeq + i) % 2 ^ 64, 0, pkt⟩)

def sendPackets (inner : Inner) (session : Session) (pkts : List Bytes) :
    Option (Session × List Bytes) :=
  if pkts = [] then some (session, [])
  else if session.sendEncrypted = false ∨ session.cryptoOffloaded = true then some (session, pkts)
  else
    session.sendAEAD.map fun aead =>
      if session.batchRecords = true ∧ inner.builder = true ∧ 1 < pkts.length then
        (sendSecureBatchRecord session aead pkts).getD (sendRecords session aead pkts)
      else sendRecords session aead pkts

/-! ## Receiving one record -/

def handleDuplicateHandshake (inner : Inner) (session : Session) (packet : Bytes) :
    Except RecvError Bool :=
  if packet.length < 6 ∨ packet.take 4 ≠ handshakeMagic ∨ packet.getD 4 0 ≠ handshakeVersion then
    .ok false
  else if packet.getD 5 0 = helloTypeClient then
    if session.role ≠ .server then .ok false
    else if 0 < session.clientHelloRaw.length ∧ packet = session.clientHelloRaw then
      if 0 < session.serverHelloRaw.length then
        match inner.resend with
        | .error err => .error (.resend ("resend TrustIX server hello: " ++ err))
        | .ok () => .ok true
      else .ok true
    else .ok false
  else if packet.getD 5 0 = helloTypeServer then
    if session.role ≠ .client then .ok false
    else .ok (decide (0 < session.serverHelloRaw.length ∧ packet = session.serverHelloRaw))
  else .ok false

def shouldOpenUserspaceEncryptedFallback (wire : Bytes) : Bool :=
  decide (dataMagic.length ≤ wire.length) && wire.take dataMagic.length == dataMagic

/-- The packet of an opened record to hand out; the other packets of a batch wait. -/
def acceptRecord (session : Session) (record : Record) :
    Except RecvError (Option Bytes) × Session :=
  let (accepted, replay) := ReplayWindow.accept session.replay record.seq
  let session := { session with replay := replay }
  if accepted = false then (.error .replayDetected, session)
  else if isBatch record.flags = false then (.ok (some record.plaintext), session)
  else
    match appendSecureBatchRecordPackets [] record.plaintext with
    | .error err => (.error err, session)
    | .ok (packets, _) => (.ok packets.head?, { session with recvPending := packets.tail })

/-- The packet of a wire packet to hand out, if there is one. -/
def openReceivedRecordNoStats (inner : Inner) (session : Session) (wire : Bytes) :
    Except RecvError (Option Bytes) × Session :=
  if isResetPacket wire then (.error .sessionReset, session)
  else
    match handleDuplicateHandshake inner session wire with
    | .error err => (.error err, session)
    | .ok true => (.ok none, session)
    | .ok false =>
      if session.recvEncrypted = false then (.ok (some wire), session)
      else if session.cryptoOffloaded = true ∧
          shouldOpenUserspaceEncryptedFallback wire = false then
        (.ok (some wire), session)
      else
        match openEncryptedPacketNoReplay session wire with
        | .error err => (.error err, session)
        | .ok record => acceptRecord session record

/-- What a receive call comes back with, if it does. -/
inductive Received where
  | packets (packets : List Bytes)
  | failed (err : RecvError)
  /-- The inner session has nothing more to read. -/
  | waiting
  deriving DecidableEq

/-- The loop of `RecvPacket` over the packets that the inner session holds. -/
def recvLoop (inner : Inner) : Session → List Bytes → Received × Session × List Bytes
  | session, [] => (.waiting, session, [])
  | session, wire :: queue =>
    match openReceivedRecordNoStats inner session wire with
    | (.error .replayDetected, session) => recvLoop inner session queue
    | (.error err, session) => (.failed err, session, queue)
    | (.ok none, session) => recvLoop inner session queue
    | (.ok (some packet), session) => (.packets [packet], session, queue)

def recvPacket (inner : Inner) (session : Session) (queue : List Bytes) :
    Received × Session × List Bytes :=
  match session.recvPending with
  | packet :: rest => (.packets [packet], { session with recvPending := rest }, queue)
  | [] => recvLoop inner session queue

/-! ## Receiving a group of records -/

/-- The slices a batch call builds: the packets, and for each record its number, where its
packets start and how many they are. -/
structure BatchOpen where
  dst : List Bytes
  seqs : List ℕ
  seqIndexes : List ℕ
  seqCounts : List ℕ

/-- The packets of an opened record, behind those before it. -/
def appendRecord (dst : List Bytes) (record : Record) : Except RecvError (List Bytes × ℕ) :=
  if isBatch record.flags then appendSecureBatchRecordPackets dst record.plaintext
  else .ok (dst ++ [record.plaintext], 1)

def openBatchStep (inner : Inner) (session : Session) (opened : BatchOpen) (wire : Bytes) :
    Except RecvError BatchOpen :=
  if isResetPacket wire then .error .sessionReset
  else do
    let handled ← handleDuplicateHandshake inner session wire
    if handled = true then .ok opened
    else if session.recvEncrypted = false then .ok { opened with dst := opened.dst ++ [wire] }
    else if session.cryptoOffloaded = true ∧ shouldOpenUserspaceEncryptedFallback wire = false then
      .ok { opened with dst := opened.dst ++ [wire] }
    else do
      let record ← openEncryptedPacketNoReplay session wire
      let appended ← appendRecord opened.dst record
      .ok
        { dst := appended.1
          seqs := opened.seqs ++ [record.seq]
          seqIndexes := opened.seqIndexes ++ [opened.dst.length]
          seqCounts := opened.seqCounts ++ [appended.2] }

open InPlaceFilter in
/-- One record of `filterReplayRejectedBatch`; an error is the slice as it was left. -/
def filterStep (c : Cursor Bytes) (record : (ℕ × ℕ) × Bool) :
    Except (List Bytes) (Cursor Bytes) :=
  let ((recordStart, count), accepted) := record
  if recordStart < c.read ∨ c.items.length < recordStart ∨
      c.items.length - recordStart < count then .error c.items
  else
    let c := c.copyUntil recordStart
    let recordEnd := recordStart + count
    .ok (if accepted then c.copyUntil recordEnd else c.skipUntil recordEnd)

def filterReplayRejectedBatch (dst : List Bytes) (startLen : ℕ) (seqIndexes seqCounts : List ℕ)
    (accepted : List Bool) : List Bytes :=
  if seqIndexes.length = 0 ∨ seqIndexes.length ≠ accepted.length ∨
      seqCounts.length ≠ accepted.length then dst
  else if accepted.all id then dst
  else
    match ((seqIndexes.zip seqCounts).zip accepted).foldlM filterStep ⟨dst, startLen, startLen⟩ with
    | .error left => left
    | .ok c =>
      let c := c.copyUntil c.items.length
      c.items.take c.write

def openReceivedPacketBatch (inner : Inner) (session : Session) (dst : List Bytes)
    (wirePackets : List Bytes) : Except RecvError (List Bytes) × Session :=
  match wirePackets.foldlM (openBatchStep inner session) ⟨dst, [], [], []⟩ with
  | .error err => (.error err, session)
  | .ok opened =>
    if opened.seqs.length = 0 then (.ok opened.dst, session)
    else
      let (accepted, replay) := ReplayWindow.acceptBatchResults session.replay opened.seqs []
      (.ok (filterReplayRejectedBatch opened.dst dst.length opened.seqIndexes opened.seqCounts
        accepted), { session with replay := replay })

/-- At most `max` packets now, the others wait. -/
def limitReceivedBatch (session : Session) (packets : List Bytes) (max : ℤ) :
    List Bytes × Session :=
  if max < 1 ∨ (packets.length : ℤ) ≤ max then (packets, session)
  else (packets.take max.toNat, { session with recvPending := packets.drop max.toNat })

/-- The loop of the batch receivers; `reads` are the sizes of the groups that the inner
session gives to it. -/
def recvBatchLoop (inner : Inner) (max : ℤ) :
    List ℕ → Session → List Bytes → Received × Session × List Bytes
  | [], session, queue => (.waiting, session, queue)
  | size :: reads, session, queue =>
    match openReceivedPacketBatch inner session [] (queue.take size) with
    | (.error err, session) => (.failed err, session, queue.drop size)
    | (.ok [], session) => recvBatchLoop inner max reads session (queue.drop size)
    | (.ok packets, session) =>
      let (packets, session) := limitReceivedBatch session packets max
      (.packets packets, session, queue.drop size)

def takeRecvPending (session : Session) (max : ℤ) : List Bytes × Session :=
  let count := (if max < 1 then 1 else max).toNat
  (session.recvPending.take count, { session with recvPending := session.recvPending.drop count })

def recvPacketsWithRelease (inner : Inner) (max : ℤ) (reads : List ℕ) (session : Session)
    (queue : List Bytes) : Received × Session × List Bytes :=
  if session.recvPending ≠ [] then
    let (packets, session) := takeRecvPending session max
    (.packets packets, session, queue)
  else if max ≤ 1 then recvPacket inner session queue
  else if inner.batchReceive then recvBatchLoop inner max reads session queue
  else recvPacket inner session queue

/-! ## What `newSession` sets up -/

section NewSession

variable {crypto : Crypto} {inner : Inner} {role : Side} {privateKey : Bytes}
  {handshake : Handshake} {options : Options} {session : Session}

theorem deriveSessionEpoch_lt (crypto : Crypto) (handshake : Handshake) :
    deriveSessionEpoch crypto handshake < 2 ^ 64 := by
  have hget : ∀ bytes : Bytes, BigEndian.get (bytes.take 8) < 2 ^ 64 := by
    intro bytes
    have hlt := BigEndian.get_lt (bytes.take 8)
    have hlength : (bytes.take 8).length ≤ 8 := List.length_take_le 8 bytes
    calc BigEndian.get (bytes.take 8) < 256 ^ (bytes.take 8).length := hlt
      _ ≤ 256 ^ 8 := Nat.pow_le_pow_right (by decide) hlength
      _ = 2 ^ 64 := by decide
  have hpick : ∀ a b : ℕ, a < 2 ^ 64 → b < 2 ^ 64 →
      (if (if a = 0 then b else a) = 0 then 1 else if a = 0 then b else a) < 2 ^ 64 := by
    intro a b ha hb
    split_ifs <;> omega
  exact hpick _ _ (hget _) (hget _)

theorem sessionEpoch_lt (crypto : Crypto) (handshake : Handshake) (options : Options) :
    sessionEpoch crypto handshake options < 2 ^ 64 := by
  unfold sessionEpoch
  split_ifs
  · exact deriveSessionEpoch_lt crypto handshake
  · exact options.epoch.toNat_lt

/-- A session that has its handshake's data and has neither sent nor received. -/
structure Fresh (crypto : Crypto) (role : Side) (handshake : Handshake) (options : Options)
    (session : Session) : Prop where
  role : session.role = role
  suite : session.suite = handshake.suite
  epoch : session.epoch = sessionEpoch crypto handshake options
  batchRecords : session.batchRecords = handshake.batchRecords
  clientHelloRaw : session.clientHelloRaw = handshake.clientHelloRaw
  serverHelloRaw : session.serverHelloRaw = handshake.serverHelloRaw
  sendSeq : session.sendSeq = 0
  recvPending : session.recvPending = []
  replay : session.replay = ReplayWindow.newReplayWindow ReplayWindow.defaultReplayWindowSize

/-- The keys of a session and where they come from. -/
structure Keyed (crypto : Crypto) (inner : Inner) (role : Side) (privateKey : Bytes)
    (handshake : Handshake) (options : Options) (session : Session) (material : Bytes) : Prop where
  material_eq : ∃ secret, crypto.ecdh privateKey (peerPublicKey role handshake) = .ok secret ∧
    deriveSessionKeyMaterial crypto inner secret handshake options = .ok material
  sends : session.sendEncrypted = true → session.cryptoOffloaded = false →
    session.sendIV = ((directionKeys handshake.suite material).sends role).2 ∧
      ∃ aead, session.sendAEAD = some aead ∧ crypto.newAEAD handshake.suite
        ((directionKeys handshake.suite material).sends role).1 = .ok aead
  receives : session.recvEncrypted = true →
    session.recvIV = ((directionKeys handshake.suite material).sends (peerSide role)).2 ∧
      ∃ aead, session.recvAEAD = some aead ∧ crypto.newAEAD handshake.suite
        ((directionKeys handshake.suite material).sends (peerSide role)).1 = .ok aead

/-- The offload takes the send keys away, and nothing else. -/
theorem enableCryptoOffload_eq_ok {session' : Session}
    (h : enableCryptoOffload inner session = .ok session') :
    session' = session ∨
      session' = { session with cryptoOffloaded := true, sendIV := [], sendAEAD := none } := by
  unfold enableCryptoOffload at h
  split at h
  · exact .inl (Except.ok.inj h).symm
  · split at h
    · exact .inl (Except.ok.inj h).symm
    · exact .inl (Except.ok.inj h).symm
    · cases h
    · exact .inr (Except.ok.inj h).symm

/-- **A new session**: its data, and its keys if a direction is encrypted. -/
theorem newSession_eq_ok
    (h : newSession crypto inner role privateKey handshake options = .ok session) :
    Fresh crypto role handshake options session ∧
      (session.sendEncrypted = true ∨ session.recvEncrypted = true → ∃ material,
        Keyed crypto inner role privateKey handshake options session material) := by
  obtain ⟨-, h⟩ := seq_eq_ok.mp h
  obtain ⟨secret, hsecret, h⟩ := bind_eq_ok.mp h
  rw [mapError_eq_ok] at hsecret
  unfold blankSession at h
  generalize requestedEncryptionPolicy options = policy at h
  split_ifs at h with hany
  · cases h
    refine ⟨⟨rfl, rfl, rfl, rfl, rfl, rfl, rfl, rfl, rfl⟩, fun henc => ?_⟩
    rw [EncryptionPolicy.anyEncrypted, Bool.or_eq_false_iff] at hany
    rcases henc with henc | henc
    · exact absurd (hany.1.symm.trans henc) Bool.false_ne_true
    · exact absurd (hany.2.symm.trans henc) Bool.false_ne_true
  · obtain ⟨material, hmaterial, h⟩ := bind_eq_ok.mp h
    obtain ⟨clientAEAD, hclient, h⟩ := bind_eq_ok.mp h
    obtain ⟨serverAEAD, hserver, h⟩ := bind_eq_ok.mp h
    -- the keys of the two roles are those of the two directions, the other way round
    cases role <;> rcases enableCryptoOffload_eq_ok h with rfl | rfl
    all_goals
      refine ⟨⟨rfl, rfl, rfl, rfl, rfl, rfl, rfl, rfl, rfl⟩, fun _ =>
        ⟨material, ⟨secret, hsecret, hmaterial⟩, fun henc hoff => ?_, fun henc => ?_⟩⟩
      · first
          | exact ⟨if_pos henc, _, if_pos henc, by assumption⟩
          | cases hoff
      · exact ⟨if_pos henc, _, if_pos henc, by assumption⟩

end NewSession

/-! ## The records of a send -/

/-- What goes into one record. -/
inductive Frame where
  | single (packet : Bytes)
  | batch (packets : List Bytes)

def Frame.packets : Frame → List Bytes
  | .single packet => [packet]
  | .batch packets => packets

def Frame.record (seq : ℕ) : Frame → Record
  | .single packet => ⟨seq, 0, packet⟩
  | .batch packets => ⟨seq, dataFlagBatch, batchPlaintext packets⟩

/-- The records of some frames, numbered after `last`. -/
def numberFrames (last : ℕ) : List Frame → List Record
  | [] => []
  | frame :: rest => frame.record (last + 1) :: numberFrames (last + 1) rest

/-- How `SendPackets` splits its packets. -/
def framesOf (inner : Inner) (session : Session) (pkts : List Bytes) : List Frame :=
  if session.batchRecords = true ∧ inner.builder = true ∧ 1 < pkts.length ∧
      (secureBatchRecordLayout pkts).isSome = true then [.batch pkts]
  else pkts.map .single

/-- A frame that the other side unpacks. -/
def Frame.Fits (batchRecords : Bool) : Frame → Prop
  | .single _ => True
  | .batch packets => BatchFits packets ∧ batchRecords = true

theorem packets_framesOf (inner : Inner) (session : Session) (pkts : List Bytes) :
    (framesOf inner session pkts).flatMap Frame.packets = pkts := by
  unfold framesOf
  split_ifs
  · exact List.append_nil pkts
  · rw [List.flatMap_map]
    exact List.flatMap_singleton' pkts

theorem length_framesOf_le (inner : Inner) (session : Session) (pkts : List Bytes) :
    (framesOf inner session pkts).length ≤ pkts.length := by
  unfold framesOf
  split_ifs with hbatch
  · show 1 ≤ pkts.length
    omega
  · rw [List.length_map]

theorem fits_framesOf (inner : Inner) (session : Session) (pkts : List Bytes) :
    ∀ frame ∈ framesOf inner session pkts, frame.Fits session.batchRecords := by
  intro frame hframe
  unfold framesOf at hframe
  split_ifs at hframe with hbatch
  · obtain ⟨hnegotiated, -, -, hlayout⟩ := hbatch
    obtain ⟨plainSize, hsize⟩ := Option.isSome_iff_exists.mp hlayout
    rw [List.mem_singleton.mp hframe]
    exact ⟨(batchFits_of_layout hsize).1, hnegotiated⟩
  · obtain ⟨packet, -, rfl⟩ := List.mem_map.mp hframe
    trivial

theorem reserve_of_lt {session : Session} {count : ℕ} (h : session.sendSeq + count < 2 ^ 64) :
    reserve session count =
      ({ session with sendSeq := session.sendSeq + count }, (session.sendSeq + 1) % 2 ^ 64) := by
  have hcount : count % 2 ^ 64 = count := Nat.mod_eq_of_lt (by omega)
  have hfirst : session.sendSeq + count + (2 ^ 64 - count) + 1 = session.sendSeq + 1 + 2 ^ 64 := by
    omega
  unfold reserve
  dsimp only
  rw [Nat.mod_eq_of_lt h, hcount, hfirst, Nat.add_mod_right]

theorem sendRecords_eq (session : Session) (aead : AEAD) (pkts : List Bytes)
    (h : session.sendSeq + pkts.length < 2 ^ 64) :
    sendRecords session aead pkts =
      ({ session with sendSeq := session.sendSeq + pkts.length },
        (numberFrames session.sendSeq (pkts.map .single)).map (session.sealWith aead)) := by
  have hseal : ∀ (pkts : List Bytes) (last i : ℕ), last + i + pkts.length < 2 ^ 64 →
      (pkts.zipIdx i).map (fun (pkt, i) =>
        session.sealWith aead ⟨((last + 1) % 2 ^ 64 + i) % 2 ^ 64, 0, pkt⟩) =
      (numberFrames (last + i) (pkts.map .single)).map (session.sealWith aead) := by
    intro pkts
    induction pkts with
    | nil => intro last i _; rfl
    | cons pkt rest ih =>
      intro last i hlt
      rw [List.length_cons] at hlt
      have hseq : ((last + 1) % 2 ^ 64 + i) % 2 ^ 64 = last + i + 1 := by
        omega
      rw [List.zipIdx_cons, List.map_cons, ih last (i + 1) (by omega)]
      show session.sealWith aead ⟨((last + 1) % 2 ^ 64 + i) % 2 ^ 64, 0, pkt⟩ :: _ = _
      rw [hseq]
      rfl
  unfold sendRecords
  rw [reserve_of_lt h]
  exact Prod.ext rfl (hseal pkts session.sendSeq 0 h)

/-- **A send of one packet** of a session with a send key. -/
theorem sendPacket_eq {session : Session} {aead : AEAD} (henc : session.sendEncrypted = true)
    (hoff : session.cryptoOffloaded = false) (haead : session.sendAEAD = some aead) (pkt : Bytes)
    (h : session.sendSeq + 1 < 2 ^ 64) :
    sendPacket session pkt = some ({ session with sendSeq := session.sendSeq + 1 },
      (numberFrames session.sendSeq [.single pkt]).map (session.sealWith aead)) := by
  have hseq : (session.sendSeq + 1) % 2 ^ 64 = session.sendSeq + 1 := Nat.mod_eq_of_lt h
  unfold sendPacket
  rw [if_neg (by simp [henc, hoff]), Option.map_eq_some_iff]
  refine ⟨aead, haead, ?_⟩
  rw [reserve_of_lt h, hseq]
  rfl

/-- **A send of some packets** of a session with a send key. -/
theorem sendPackets_eq (inner : Inner) {session : Session} {aead : AEAD}
    (henc : session.sendEncrypted = true) (hoff : session.cryptoOffloaded = false)
    (haead : session.sendAEAD = some aead) (pkts : List Bytes)
    (h : session.sendSeq + pkts.length < 2 ^ 64) :
    sendPackets inner session pkts =
      some ({ session with
          sendSeq := session.sendSeq + (framesOf inner session pkts).length },
        (numberFrames session.sendSeq (framesOf inner session pkts)).map
          (session.sealWith aead)) := by
  have hrecords := sendRecords_eq session aead pkts h
  by_cases hnil : pkts = []
  · subst hnil
    have hframes : framesOf inner session [] = [] := if_neg (by simp)
    rw [hframes]
    rfl
  unfold sendPackets
  rw [if_neg hnil, if_neg (by simp [henc, hoff]), Option.map_eq_some_iff]
  refine ⟨aead, haead, ?_⟩
  split_ifs with hbatch
  · obtain ⟨hnegotiated, hbuilder, hmany⟩ := hbatch
    cases hlayout : secureBatchRecordLayout pkts with
    | none =>
      have hframes : framesOf inner session pkts = pkts.map .single := if_neg (by simp [hlayout])
      rw [sendSecureBatchRecord, hlayout, Option.map_none, Option.getD_none, hframes,
        List.length_map]
      exact hrecords
    | some plainSize =>
      have hframes : framesOf inner session pkts = [.batch pkts] :=
        if_pos ⟨hnegotiated, hbuilder, hmany, by rw [hlayout]; rfl⟩
      have hseq : (session.sendSeq + 1) % 2 ^ 64 = session.sendSeq + 1 :=
        Nat.mod_eq_of_lt (by omega)
      rw [sendSecureBatchRecord, hlayout, Option.map_some, Option.getD_some, hframes,
        reserve_of_lt (by omega), hseq]
      rfl
  · have hframes : framesOf inner session pkts = pkts.map .single :=
      if_neg fun hall => hbatch ⟨hall.1, hall.2.1, hall.2.2.1⟩
    rw [hframes, List.length_map]
    exact hrecords

end SecureTransport

/-
# The secure transport's handshake: suite masks, hellos and the signed transcript

The model of `secure.go` from the suite masks to the point where `Client` and
`Server` build their session.  Each side sends a hello with a 16-bit mask of suites
and features; both negotiate on the pair of masks they see, and the server signs
`serverSignaturePayload`, in which each mask is left out when it is the default one
and is not labelled with its owner.

* `laid_encode`, `parseHello_encode` : a hello read back from its own encoding;
* `masks_of_signedMasks_eq` : what the signed masks determine;
* `handshake_binds_masks_iff` : which honest masks no attacker can have negotiated
  differently on the two sides, and which pairs of masks the payload tells apart.
-/
import TrustIX.Fallible
import TrustIX.FixedFrames

namespace SecureHandshake

open Fallible

/-! ## Suites and masks -/

abbrev Bytes := List UInt8

/-- The `uint16` of suite bits (low) and feature bits (high). -/
abbrev Mask := BitVec 16

def helloFeatureDerivedEpoch : Mask := 1#16 <<< 12
def helloFeatureSessionGeneration : Mask := 1#16 <<< 13
def helloFeatureTLSHandshakeOnly : Mask := 1#16 <<< 14
def helloFeatureBatchRecords : Mask := 1#16 <<< 15

def helloFeatureMask : Mask :=
  helloFeatureDerivedEpoch ||| helloFeatureSessionGeneration |||
    helloFeatureTLSHandshakeOnly ||| helloFeatureBatchRecords

def helloSuiteMask : Mask := ~~~ helloFeatureMask

inductive Suite where
  | aes256GCMX25519
  | aes128GCMX25519
  | chaCha20Poly1305X25519
  deriving DecidableEq, Repr

def Suite.id : Suite → ℕ
  | .aes256GCMX25519 => 1
  | .aes128GCMX25519 => 2
  | .chaCha20Poly1305X25519 => 3

def defaultSuite : Suite := .aes256GCMX25519

def negotiatedSuitePreference : List Suite :=
  [.aes128GCMX25519, .aes256GCMX25519, .chaCha20Poly1305X25519]

def suiteMaskBit (id : ℕ) : Mask :=
  if id = 0 ∨ id > 16 then 0#16
  else
    let bit := 1#16 <<< (id - 1)
    if bit &&& helloSuiteMask = 0#16 then 0#16 else bit

def normalizedSuiteMask (mask : Mask) : Mask :=
  let features := mask &&& helloFeatureMask
  let suites := mask &&& helloSuiteMask
  (if suites = 0#16 then suiteMaskBit defaultSuite.id else suites) ||| features

def isDefaultSuiteMask (mask : Mask) : Bool :=
  normalizedSuiteMask mask == suiteMaskBit defaultSuite.id

inductive HandshakeError where
  | invalidHandshake (detail : String)
  | peerAuthRequired
  | sessionReset
  deriving DecidableEq, Repr

def negotiateSuite (clientMask serverMask : Mask) : Except HandshakeError Suite :=
  let intersection :=
    normalizedSuiteMask clientMask &&& normalizedSuiteMask serverMask &&& helloSuiteMask
  if intersection = 0#16 then .error (.invalidHandshake "no common crypto suite")
  else
    match negotiatedSuitePreference.find? (fun suite =>
      intersection &&& suiteMaskBit suite.id != 0#16) with
    | some suite => .ok suite
    | none => .error (.invalidHandshake "unsupported crypto suite mask")

/-! ## Hellos -/

structure Hello where
  messageType : UInt8
  suiteMask : Mask
  random : Bytes
  publicKey : Bytes
  certDER : Bytes
  signature : Bytes
  deriving DecidableEq

/-- The fields a node fills in itself have their fixed sizes. -/
structure Hello.WellFormed (hello : Hello) : Prop where
  random_length : hello.random.length = 32
  publicKey_length : hello.publicKey.length = 32

def helloTypeClient : UInt8 := 1
def helloTypeServer : UInt8 := 2
def helloTypeReset : UInt8 := 255
def handshakeVersion : UInt8 := 1
def maxHandshakeCertLen : ℕ := 64 * 1024
def maxHandshakeSigLen : ℕ := 8 * 1024

/-- The bytes of an ASCII literal. -/
def asciiBytes (text : String) : Bytes := text.toList.map (fun c => UInt8.ofNat c.toNat)

def handshakeMagic : Bytes := [0x54, 0x49, 0x58, 0x48]

/-- `binary.BigEndian.AppendUint16` of `uint16(n)`. -/
def uint16Bytes (n : ℕ) : Bytes := [UInt8.ofNat (n / 256), UInt8.ofNat n]

/-- `binary.BigEndian.Uint16`. -/
def bigEndianUint16 : Bytes → ℕ
  | hi :: lo :: _ => hi.toNat * 256 + lo.toNat
  | _ => 0

def Hello.encode (hello : Hello) : Except HandshakeError Bytes :=
  if hello.certDER.length > maxHandshakeCertLen ∨ hello.signature.length > maxHandshakeSigLen then
    .error (.invalidHandshake "handshake certificate or signature is too large")
  else
    .ok (handshakeMagic ++ [handshakeVersion, hello.messageType] ++
      uint16Bytes (normalizedSuiteMask hello.suiteMask).toNat ++
      hello.random ++ hello.publicKey ++
      uint16Bytes hello.certDER.length ++ uint16Bytes hello.signature.length ++
      hello.certDER ++ hello.signature)

def isResetPacket (packet : Bytes) : Bool :=
  packet.length == 76 && packet.take 4 == handshakeMagic &&
    packet[4]? == some handshakeVersion && packet[5]? == some helloTypeReset

def parseHello (raw : Bytes) (wantType : UInt8) : Except HandshakeError Hello :=
  if isResetPacket raw then .error .sessionReset
  else if raw.length < 76 ∨ raw.take 4 ≠ handshakeMagic ∨
      raw[4]? ≠ some handshakeVersion ∨ raw[5]? ≠ some wantType then
    .error (.invalidHandshake "")
  else
    let certLen := bigEndianUint16 (raw.drop 72)
    let sigLen := bigEndianUint16 (raw.drop 74)
    if certLen > maxHandshakeCertLen ∨ sigLen > maxHandshakeSigLen ∨
        raw.length ≠ 76 + certLen + sigLen then
      .error (.invalidHandshake "")
    else
      .ok
        { messageType := wantType
          suiteMask := BitVec.ofNat 16 (bigEndianUint16 (raw.drop 6))
          random := (raw.drop 8).take 32
          publicKey := (raw.drop 40).take 32
          certDER := (raw.drop 76).take certLen
          signature := (raw.drop 76).drop certLen }

/-! ## The signed payloads -/

def suiteMaskLabel : Bytes := asciiBytes "suite_mask\x00"

def appendSuiteMaskForSignature (payload : Bytes) (hello : Hello) : Bytes :=
  if isDefaultSuiteMask hello.suiteMask then payload
  else payload ++ suiteMaskLabel ++ uint16Bytes (normalizedSuiteMask hello.suiteMask).toNat

def clientSignaturePayload (clientHello : Hello) : Bytes :=
  let payload := asciiBytes "TrustIX secure transport client hello v1\x00"
  let payload := appendSuiteMaskForSignature payload clientHello
  payload ++ clientHello.random ++ clientHello.publicKey ++ clientHello.certDER

def serverHelloLabel : Bytes := asciiBytes "TrustIX secure transport server hello v1\x00"

def serverSignaturePayload (clientHello serverHello : Hello) : Bytes :=
  let payload := serverHelloLabel
  let payload := appendSuiteMaskForSignature payload clientHello
  let payload := appendSuiteMaskForSignature payload serverHello
  payload ++ clientHello.random ++ clientHello.publicKey ++ serverHello.random ++
    serverHello.publicKey ++ serverHello.certDER

/-! ## The two sides -/

inductive Side where
  | client
  | server
  deriving DecidableEq

/-- What a handshake takes from the crypto libraries and from its configuration. -/
structure Env (Cert : Type) where
  /-- `x509.ParseCertificates`. -/
  parseCertificates : Bytes → Except String (List Cert)
  /-- `pki.Verify`. -/
  verify : Cert → Bytes → Bytes → Except String Unit
  /-- `options.RequirePeerAuth || peerAuthRequired(side, tlsConf)`. -/
  authRequired : Side → Bool
  /-- The chain and the certificate callback of `tlsConf`. -/
  checkPeer : Side → Cert → List Cert → Except String Unit
  /-- The signer of the server's certificate; no signature without one. -/
  sign : Bytes → Except String Bytes
  /-- `newSession` and the TLS hand-off, after the negotiation. -/
  newSession : Side → Hello → Hello → Suite → Except String Unit

variable {Cert : Type}

/-- `verifyHello` of the side that checks its peer. -/
def verifyHello (env : Env Cert) (peerHello : Hello) (side : Side) (signedPayload : Bytes) :
    Except HandshakeError (Option Cert) :=
  if peerHello.certDER.length = 0 then
    if env.authRequired side then .error .peerAuthRequired else .ok none
  else
    match env.parseCertificates peerHello.certDER with
    | .error err => .error (.invalidHandshake ("parse peer certificate: " ++ err))
    | .ok [] => .error (.invalidHandshake "peer certificate chain is empty")
    | .ok (cert :: intermediates) =>
      if peerHello.signature.length = 0 then
        .error (.invalidHandshake "missing authenticated handshake signature")
      else
        match env.verify cert signedPayload peerHello.signature with
        | .error err => .error (.invalidHandshake ("verify handshake signature: " ++ err))
        | .ok () =>
          match env.checkPeer side cert intermediates with
          | .error err => .error (.invalidHandshake err)
          | .ok () => .ok (some cert)

/-- What one side ends its handshake with: the peer's certificate, the two hellos as
it sees them, and the suite and features they negotiate. -/
structure Outcome (Cert : Type) where
  peerCert : Option Cert
  clientHello : Hello
  serverHello : Hello
  suite : Suite
  batchRecords : Bool
  derivedEpoch : Bool
  tlsHandshakeOnly : Bool

/-- A feature both masks carry. -/
def featureNegotiated (feature : Mask) (client server : Hello) : Bool :=
  client.suiteMask &&& server.suiteMask &&& feature != 0#16

def outcome (peerCert : Option Cert) (client server : Hello) (suite : Suite) : Outcome Cert where
  peerCert := peerCert
  clientHello := client
  serverHello := server
  suite := suite
  batchRecords := featureNegotiated helloFeatureBatchRecords client server
  derivedEpoch := featureNegotiated helloFeatureDerivedEpoch client server
  tlsHandshakeOnly := featureNegotiated helloFeatureTLSHandshakeOnly client server

/-- `Client`, from its own hello and the packet it receives as the server's. -/
def client (env : Env Cert) (clientHello : Hello) (rawServerHello : Bytes) :
    Except HandshakeError (Outcome Cert) := do
  let serverHello ← parseHello rawServerHello helloTypeServer
  let peerCert ← verifyHello env serverHello .client
    (serverSignaturePayload clientHello serverHello)
  let suite ← negotiateSuite clientHello.suiteMask serverHello.suiteMask
  match env.newSession .client clientHello serverHello suite with
  | .error err => .error (.invalidHandshake err)
  | .ok () => .ok (outcome peerCert clientHello serverHello suite)

/-- `Server`, from the packet it receives as the client's and its own hello before
it is signed; also the packet it answers with. -/
def server (env : Env Cert) (rawClientHello : Bytes) (ownHello : Hello) :
    Except HandshakeError (Outcome Cert × Bytes) := do
  let clientHello ← parseHello rawClientHello helloTypeClient
  let peerCert ← verifyHello env clientHello .server (clientSignaturePayload clientHello)
  let suite ← negotiateSuite clientHello.suiteMask ownHello.suiteMask
  match env.sign (serverSignaturePayload clientHello ownHello) with
  | .error err =>
    .error (.invalidHandshake ("sign TrustIX secure transport handshake: " ++ err))
  | .ok signature =>
    let serverHello := { ownHello with signature := signature }
    let encodedHello ← serverHello.encode
    match env.newSession .server clientHello serverHello suite with
    | .error err => .error (.invalidHandshake err)
    | .ok () => .ok (outcome peerCert clientHello serverHello suite, encodedHello)

/-! ## Masks -/

theorem suiteMaskBit_default : suiteMaskBit defaultSuite.id = 1#16 := by decide

theorem isDefaultSuiteMask_iff (mask : Mask) :
    isDefaultSuiteMask mask = true ↔ normalizedSuiteMask mask = 1#16 := by
  rw [isDefaultSuiteMask, suiteMaskBit_default, beq_iff_eq]

/-- A suite both masks offer, when the negotiation succeeds. -/
theorem negotiateSuite_ok {c s : Mask} {suite : Suite} (h : negotiateSuite c s = .ok suite) :
    normalizedSuiteMask c &&& normalizedSuiteMask s &&& helloSuiteMask ≠ 0#16 := by
  intro hzero
  unfold negotiateSuite at h
  rw [if_pos hzero] at h
  simp at h

/-- Two masks whose common suites are AES-256 alone negotiate AES-256. -/
theorem negotiateSuite_aes256 {c s : Mask}
    (h : normalizedSuiteMask c &&& normalizedSuiteMask s &&& helloSuiteMask = 1#16) :
    negotiateSuite c s = .ok .aes256GCMX25519 := by
  unfold negotiateSuite
  rw [h]
  rfl

/-- The mask offers the default suite. -/
def offersDefault (mask : Mask) : Prop :=
  normalizedSuiteMask mask &&& suiteMaskBit defaultSuite.id ≠ 0#16

instance (mask : Mask) : Decidable (offersDefault mask) :=
  inferInstanceAs (Decidable (_ ≠ _))

/-- Testing one bit leaves nothing or the bit. -/
theorem and_one_eq (x : Mask) : x &&& 1#16 = 0#16 ∨ x &&& 1#16 = 1#16 := by
  have hone : (1#16 : Mask) = BitVec.twoPow 16 0 := by decide
  rw [hone, BitVec.and_twoPow]
  split
  · exact Or.inr rfl
  · exact Or.inl rfl

/-- Against the default mask, whatever offers AES-256 negotiates AES-256. -/
theorem offersDefault_iff (mask : Mask) :
    offersDefault mask ↔ normalizedSuiteMask mask &&& 1#16 &&& helloSuiteMask = 1#16 := by
  unfold offersDefault
  rw [suiteMaskBit_default]
  rcases and_one_eq (normalizedSuiteMask mask) with h | h
  · rw [h]
    decide
  · rw [h]
    decide

/-! ## What the signed masks determine -/

/-- The masks a payload carries, in the order client, server: the default ones are
left out. -/
def signedMasks (clientMask serverMask : Mask) : List Mask :=
  ([clientMask, serverMask].filter (fun mask => !isDefaultSuiteMask mask)).map
    normalizedSuiteMask

/-- How one mask is written into a payload. -/
def maskFrame (mask : Mask) : Bytes := suiteMaskLabel ++ uint16Bytes mask.toNat

/-- What follows the masks in a server payload. -/
def transcript (clientHello serverHello : Hello) : Bytes :=
  clientHello.random ++ clientHello.publicKey ++ serverHello.random ++
    serverHello.publicKey ++ serverHello.certDER

theorem appendSuiteMaskForSignature_eq (payload : Bytes) (hello : Hello) :
    appendSuiteMaskForSignature payload hello
      = payload ++ (([hello.suiteMask].filter (fun mask => !isDefaultSuiteMask mask)).map
          normalizedSuiteMask).flatMap maskFrame := by
  unfold appendSuiteMaskForSignature
  cases hdef : isDefaultSuiteMask hello.suiteMask with
  | true => simp [hdef]
  | false => simp [hdef, maskFrame]

theorem serverSignaturePayload_eq (clientHello serverHello : Hello) :
    serverSignaturePayload clientHello serverHello
      = serverHelloLabel ++
        ((signedMasks clientHello.suiteMask serverHello.suiteMask).flatMap maskFrame ++
          transcript clientHello serverHello) := by
  have hsplit : signedMasks clientHello.suiteMask serverHello.suiteMask
      = (([clientHello.suiteMask].filter (fun mask => !isDefaultSuiteMask mask)).map
          normalizedSuiteMask) ++
        (([serverHello.suiteMask].filter (fun mask => !isDefaultSuiteMask mask)).map
          normalizedSuiteMask) := by
    rw [signedMasks, ← List.map_append, ← List.filter_append]
    rfl
  unfold serverSignaturePayload
  dsimp only
  rw [appendSuiteMaskForSignature_eq, appendSuiteMaskForSignature_eq, hsplit, List.flatMap_append]
  simp [transcript]

theorem uint16Bytes_inj {m n : ℕ} (hm : m < 65536) (hn : n < 65536)
    (h : uint16Bytes m = uint16Bytes n) : m = n := by
  injection h with hhi htail
  injection htail with hlo _
  have hhi' := congrArg UInt8.toNat hhi
  have hlo' := congrArg UInt8.toNat hlo
  simp only [UInt8.toNat_ofNat'] at hhi' hlo'
  omega

theorem maskFrame_injective : Function.Injective maskFrame := by
  intro m n h
  have hbytes : uint16Bytes m.toNat = uint16Bytes n.toNat := List.append_cancel_left h
  exact BitVec.eq_of_toNat_eq (uint16Bytes_inj m.isLt n.isLt hbytes)

theorem length_maskFrame (mask : Mask) : (maskFrame mask).length = suiteMaskLabel.length + 2 := by
  simp [maskFrame, uint16Bytes]

/-- **The signed masks lose the owner.**  Equal lists come from equal pairs, or from a
pair with its one non-default mask moved to the other side. -/
theorem masks_of_signedMasks_eq {c s c' s' : Mask} (h : signedMasks c s = signedMasks c' s') :
    (normalizedSuiteMask c = normalizedSuiteMask c' ∧
        normalizedSuiteMask s = normalizedSuiteMask s') ∨
      (normalizedSuiteMask c = normalizedSuiteMask s' ∧
        normalizedSuiteMask s = 1#16 ∧ normalizedSuiteMask c' = 1#16) ∨
      (normalizedSuiteMask s = normalizedSuiteMask c' ∧
        normalizedSuiteMask c = 1#16 ∧ normalizedSuiteMask s' = 1#16) := by
  have key : ∀ m : Mask, isDefaultSuiteMask m = true → normalizedSuiteMask m = 1#16 :=
    fun m hm => (isDefaultSuiteMask_iff m).mp hm
  unfold signedMasks at h
  cases hc : isDefaultSuiteMask c <;> cases hs : isDefaultSuiteMask s <;>
    cases hc' : isDefaultSuiteMask c' <;> cases hs' : isDefaultSuiteMask s' <;>
    simp [hc, hs, hc', hs'] at h
  · exact Or.inl h
  · exact Or.inl ⟨h, by rw [key s hs, key s' hs']⟩
  · exact Or.inr (Or.inl ⟨h, key s hs, key c' hc'⟩)
  · exact Or.inr (Or.inr ⟨h, key c hc, key s' hs'⟩)
  · exact Or.inl ⟨by rw [key c hc, key c' hc'], h⟩
  · exact Or.inl ⟨by rw [key c hc, key c' hc'], by rw [key s hs, key s' hs']⟩

/-- Equal payloads over certificates of one length carry the same signed masks. -/
theorem signedMasks_eq_of_payload_eq {c s c' s' : Hello}
    (hlen : (transcript c s).length = (transcript c' s').length)
    (h : serverSignaturePayload c s = serverSignaturePayload c' s') :
    signedMasks c.suiteMask s.suiteMask = signedMasks c'.suiteMask s'.suiteMask := by
  rw [serverSignaturePayload_eq, serverSignaturePayload_eq] at h
  have hframes := List.append_cancel_left h
  have hcount := FixedFrames.length_eq_of_append_eq length_maskFrame (by omega) hlen hframes
  exact (FixedFrames.append_inj_of_length_eq length_maskFrame maskFrame_injective hcount
    hframes).1

/-! ## Hellos on the wire -/

theorem bigEndianUint16_uint16Bytes {n : ℕ} (hn : n < 65536) (rest : Bytes) :
    bigEndianUint16 (uint16Bytes n ++ rest) = n := by
  simp only [uint16Bytes, List.cons_append, bigEndianUint16, UInt8.toNat_ofNat']
  omega

/-- A packet that holds a hello, cut at the offsets that the parser reads. -/
structure Laid (hello : Hello) (raw : Bytes) : Prop where
  length : raw.length = 76 + hello.certDER.length + hello.signature.length
  magic : raw.take 4 = handshakeMagic
  version : raw[4]? = some handshakeVersion
  messageType : raw[5]? = some hello.messageType
  mask : ∃ rest, raw.drop 6 = uint16Bytes (normalizedSuiteMask hello.suiteMask).toNat ++ rest
  random : ∃ rest, raw.drop 8 = hello.random ++ rest
  publicKey : ∃ rest, raw.drop 40 = hello.publicKey ++ rest
  certLen : ∃ rest, raw.drop 72 = uint16Bytes hello.certDER.length ++ rest
  sigLen : ∃ rest, raw.drop 74 = uint16Bytes hello.signature.length ++ rest
  tail : raw.drop 76 = hello.certDER ++ hello.signature

variable {raw : Bytes} {hello : Hello}

/-- What is encoded keeps to the limits, and starts with its type. -/
theorem encode_eq_cons (h : hello.encode = .ok raw) :
    hello.certDER.length ≤ maxHandshakeCertLen ∧ hello.signature.length ≤ maxHandshakeSigLen ∧
      ∃ rest, raw = handshakeMagic ++ (handshakeVersion :: hello.messageType :: rest) := by
  unfold Hello.encode at h
  split_ifs at h with hsize
  rw [not_or, not_lt, not_lt] at hsize
  cases h
  exact ⟨hsize.1, hsize.2, _, rfl⟩

/-- The encoding lays a hello out as the parser reads it. -/
theorem laid_encode (hwf : hello.WellFormed) (h : hello.encode = .ok raw) : Laid hello raw := by
  obtain ⟨hrandom, hpublic⟩ := hwf
  unfold Hello.encode at h
  split_ifs at h
  injection h with hraw
  have h8 : raw.drop 8 = hello.random ++ (hello.publicKey ++
      uint16Bytes hello.certDER.length ++ uint16Bytes hello.signature.length ++
        hello.certDER ++ hello.signature) := by
    rw [← hraw]
    simp [handshakeMagic, uint16Bytes]
  have h40 : raw.drop 40 = hello.publicKey ++ (uint16Bytes hello.certDER.length ++
      uint16Bytes hello.signature.length ++ hello.certDER ++ hello.signature) := by
    rw [show 40 = 8 + 32 from rfl, ← List.drop_drop, h8, ← hrandom, List.drop_left]
    simp
  have h72 : raw.drop 72 = uint16Bytes hello.certDER.length ++
      (uint16Bytes hello.signature.length ++ (hello.certDER ++ hello.signature)) := by
    rw [show 72 = 40 + 32 from rfl, ← List.drop_drop, h40, ← hpublic, List.drop_left]
    simp
  have h74 : raw.drop 74 = uint16Bytes hello.signature.length ++
      (hello.certDER ++ hello.signature) := by
    rw [show 74 = 72 + 2 from rfl, ← List.drop_drop, h72]
    rfl
  refine ⟨?_, ?_, ?_, ?_, ?_, ⟨_, h8⟩, ⟨_, h40⟩, ⟨_, h72⟩, ⟨_, h74⟩, ?_⟩
  · rw [← hraw]
    simp [handshakeMagic, uint16Bytes, hrandom, hpublic]
    omega
  · rw [← hraw]
    simp [handshakeMagic]
  · rw [← hraw]
    simp [handshakeMagic]
  · rw [← hraw]
    simp [handshakeMagic]
  · refine ⟨hello.random ++ hello.publicKey ++ uint16Bytes hello.certDER.length ++
        uint16Bytes hello.signature.length ++ hello.certDER ++ hello.signature, ?_⟩
    rw [← hraw]
    simp [handshakeMagic, uint16Bytes]
  · rw [show 76 = 74 + 2 from rfl, ← List.drop_drop, h74]
    rfl

/-- What is laid out so is read back, with its mask normalised. -/
theorem Laid.parseHello (h : Laid hello raw) (hwf : hello.WellFormed)
    (hcert : hello.certDER.length < 65536) (hsig : hello.signature.length ≤ 8192)
    (hreset : isResetPacket raw = false) :
    SecureHandshake.parseHello raw hello.messageType
      = .ok { hello with suiteMask := normalizedSuiteMask hello.suiteMask } := by
  obtain ⟨_, h6⟩ := h.mask
  obtain ⟨_, h8⟩ := h.random
  obtain ⟨_, h40⟩ := h.publicKey
  obtain ⟨_, h72⟩ := h.certLen
  obtain ⟨_, h74⟩ := h.sigLen
  unfold SecureHandshake.parseHello
  rw [hreset, if_neg (by simp),
    if_neg (by simp [h.length, h.magic, h.version, h.messageType]; omega)]
  rw [h6, h8, h40, h72, h74, h.tail, bigEndianUint16_uint16Bytes hcert,
    bigEndianUint16_uint16Bytes (by omega),
    bigEndianUint16_uint16Bytes (normalizedSuiteMask hello.suiteMask).isLt,
    if_neg (by simp only [h.length, maxHandshakeCertLen, maxHandshakeSigLen]; omega),
    List.take_left, List.drop_left]
  congr 2
  · simp
  · rw [← hwf.random_length, List.take_left]
  · rw [← hwf.publicKey_length, List.take_left]

/-- A hello read back from its own encoding, with its mask normalised. -/
theorem parseHello_encode (hwf : hello.WellFormed) (hcert : hello.certDER.length < 65536)
    (htype : hello.messageType ≠ helloTypeReset) (h : hello.encode = .ok raw) :
    parseHello raw hello.messageType
      = .ok { hello with suiteMask := normalizedSuiteMask hello.suiteMask } := by
  have hlaid := laid_encode hwf h
  have hreset : isResetPacket raw = false := by
    unfold isResetPacket
    rw [hlaid.messageType]
    simp [htype]
  exact hlaid.parseHello hwf hcert (encode_eq_cons h).2.1 hreset

/-- What the parser accepts has a random and a key of 32 bytes. -/
theorem wellFormed_of_parseHello {wantType : UInt8}
    (h : parseHello raw wantType = .ok hello) : hello.WellFormed := by
  unfold parseHello at h
  dsimp only at h
  split_ifs at h with hreset hshort hsize
  injection h with h
  subst h
  constructor
  · simp only [List.length_take, List.length_drop]
    omega
  · simp only [List.length_take, List.length_drop]
    omega

/-! ## The attacker -/

/-- A run of `Server` that answered a client hello, whoever sent it. -/
structure ServerRun (env : Env Cert) where
  rawClientHello : Bytes
  ownHello : Hello
  outcome : Outcome Cert
  reply : Bytes
  ok : server env rawClientHello ownHello = .ok (outcome, reply)

/-- The payload a run signed. -/
def ServerRun.payload {env : Env Cert} (run : ServerRun env) : Bytes :=
  serverSignaturePayload run.outcome.clientHello run.ownHello

/-- Server signatures are unforgeable: one that verifies under a certificate was made
by a run of the server that presents this certificate. -/
def Unforgeable (env : Env Cert) (runs : List (ServerRun env)) : Prop :=
  ∀ chainDER cert intermediates clientHello serverHello signature,
    env.parseCertificates chainDER = .ok (cert :: intermediates) →
    env.verify cert (serverSignaturePayload clientHello serverHello) signature = .ok () →
    ∃ run ∈ runs, run.ownHello.certDER = chainDER ∧
      run.payload = serverSignaturePayload clientHello serverHello

/-- No attacker between a client with `clientMask` and a server with `serverMask` can
have them negotiate on different masks: whatever packet the client accepts as the
hello of a certified server, that server signed it in a run that saw the same masks. -/
def Tamperproof (clientMask serverMask : Mask) : Prop :=
  ∀ (Cert : Type) (env : Env Cert) (runs : List (ServerRun env)) (clientHello : Hello)
    (rawServerHello : Bytes) (result : Outcome Cert),
    Unforgeable env runs →
    (∀ run ∈ runs, run.ownHello.suiteMask = serverMask ∧ run.ownHello.WellFormed) →
    clientHello.suiteMask = clientMask → clientHello.WellFormed →
    client env clientHello rawServerHello = .ok result → result.peerCert.isSome →
    ∃ run ∈ runs,
      run.payload = serverSignaturePayload clientHello result.serverHello ∧
      normalizedSuiteMask run.outcome.clientHello.suiteMask = normalizedSuiteMask clientMask ∧
      normalizedSuiteMask result.serverHello.suiteMask = normalizedSuiteMask serverMask

/-- A verified certificate is the first of the peer's chain, and the peer's signature
over the payload verifies under it. -/
theorem verifyHello_some {env : Env Cert} {peerHello : Hello} {side : Side} {payload : Bytes}
    {cert : Cert} (h : verifyHello env peerHello side payload = .ok (some cert)) :
    ∃ intermediates, env.parseCertificates peerHello.certDER = .ok (cert :: intermediates) ∧
      env.verify cert payload peerHello.signature = .ok () := by
  unfold verifyHello at h
  by_cases hlen : peerHello.certDER.length = 0
  · split_ifs at h
    simp at h
  · rw [if_neg hlen] at h
    cases hparse : env.parseCertificates peerHello.certDER with
    | error err => simp [hparse] at h
    | ok certs =>
      cases certs with
      | nil => simp [hparse] at h
      | cons first intermediates =>
        simp only [hparse] at h
        split_ifs at h with hsig
        cases hverify : env.verify first payload peerHello.signature with
        | error err => simp [hverify] at h
        | ok _ =>
          cases hcheck : env.checkPeer side first intermediates with
          | error err => simp [hverify, hcheck] at h
          | ok _ =>
            simp only [hverify, hcheck] at h
            cases h
            exact ⟨intermediates, rfl, hverify⟩

/-- What a client that accepted a certified server has checked. -/
theorem client_ok {env : Env Cert} {clientHello : Hello} {result : Outcome Cert}
    (h : client env clientHello raw = .ok result) (hcert : result.peerCert.isSome) :
    result.serverHello.WellFormed ∧
      (∃ suite, negotiateSuite clientHello.suiteMask result.serverHello.suiteMask = .ok suite) ∧
      ∃ cert intermediates,
        env.parseCertificates result.serverHello.certDER = .ok (cert :: intermediates) ∧
        env.verify cert (serverSignaturePayload clientHello result.serverHello)
          result.serverHello.signature = .ok () := by
  obtain ⟨serverHello, hparse, h⟩ := bind_eq_ok.mp h
  obtain ⟨peerCert, hverify, h⟩ := bind_eq_ok.mp h
  obtain ⟨suite, hsuite, h⟩ := bind_eq_ok.mp h
  split at h
  · simp at h
  · cases h
    obtain ⟨cert, rfl⟩ := Option.isSome_iff_exists.mp hcert
    obtain ⟨intermediates, hparsed, hsig⟩ := verifyHello_some hverify
    exact ⟨wellFormed_of_parseHello hparse, ⟨suite, hsuite⟩, cert, intermediates, hparsed, hsig⟩

/-- The client hello a server run answered has a random and a key of 32 bytes. -/
theorem ServerRun.wellFormed_clientHello {env : Env Cert} (run : ServerRun env) :
    run.outcome.clientHello.WellFormed := by
  have h := run.ok
  obtain ⟨clientHello, hparse, h⟩ := bind_eq_ok.mp h
  obtain ⟨peerCert, -, h⟩ := bind_eq_ok.mp h
  obtain ⟨suite, -, h⟩ := bind_eq_ok.mp h
  split at h
  · simp at h
  obtain ⟨encoded, -, h⟩ := bind_eq_ok.mp h
  split at h
  · simp at h
  injection h with h
  injection h with hout _
  rw [← hout]
  exact wellFormed_of_parseHello hparse

/-- Masks that differ, or do not offer the default suite, cannot be swapped. -/
theorem tamperproof_of_not_swappable {c s : Mask}
    (hcs : ¬ (normalizedSuiteMask c = normalizedSuiteMask s ∧ offersDefault c)) :
    Tamperproof c s := by
  intro Cert env runs clientHello raw result hunforgeable hruns hmask hwf hok hcert
  obtain ⟨hwf', ⟨suite, hsuite⟩, cert, intermediates, hparsed, hsig⟩ := client_ok hok hcert
  obtain ⟨run, hrun, hchain, hpayload⟩ := hunforgeable _ _ _ _ _ _ hparsed hsig
  obtain ⟨hserver, hwfown⟩ := hruns run hrun
  have hwfclient := run.wellFormed_clientHello
  have hlen : (transcript run.outcome.clientHello run.ownHello).length
      = (transcript clientHello result.serverHello).length := by
    simp [transcript, hwf.random_length, hwf.publicKey_length, hwf'.random_length, hwf'.publicKey_length, hwfown.random_length, hwfown.publicKey_length, hwfclient.random_length, hwfclient.publicKey_length, hchain]
  have hsigned := signedMasks_eq_of_payload_eq hlen hpayload
  rw [hmask, hserver] at hsigned
  refine ⟨run, hrun, hpayload, ?_⟩
  rcases masks_of_signedMasks_eq hsigned with ⟨hc, hs⟩ | ⟨hx, hs1, hc1⟩ | ⟨hx, hc1, hs1⟩
  · exact ⟨hc, hs.symm⟩
  · -- both honest masks are the default one
    refine absurd ⟨by rw [hc1, hs1], ?_⟩ hcs
    rw [offersDefault_iff, hc1]
    decide
  · -- the client's own mask came back as the server's
    refine absurd ⟨hx.symm, ?_⟩ hcs
    have hneg := negotiateSuite_ok hsuite
    rw [hmask, hs1] at hneg
    unfold offersDefault
    rw [suiteMaskBit_default]
    intro hzero
    rw [hzero] at hneg
    exact hneg (by decide)

/-! ## The swap attack -/

section Swap

variable (c s : Mask)

/-- The mask the attacker writes into both hellos: the default one, or a mask with
AES-128 added when the honest masks are the default one. -/
def swapMask : Mask := if normalizedSuiteMask c = 1#16 then 3#16 else 1#16

/-- A hello with a mask, a certificate and a signature, and zeros elsewhere. -/
def plainHello (messageType : UInt8) (mask : Mask) (certDER signature : Bytes) : Hello where
  messageType := messageType
  suiteMask := mask
  random := List.replicate 32 0
  publicKey := List.replicate 32 0
  certDER := certDER
  signature := signature

/-- One certificate, whose key signed one payload: that of the server's answer to the
rewritten client hello. -/
def swapEnv : Env Unit where
  parseCertificates := fun chainDER => if chainDER = [0] then .ok [()] else .error ""
  verify := fun _ payload _ =>
    if payload = serverSignaturePayload (plainHello helloTypeClient (swapMask c) [] [])
        (plainHello helloTypeServer s [0] []) then .ok () else .error ""
  authRequired := fun _ => false
  checkPeer := fun _ _ _ => .ok ()
  sign := fun _ => .ok [0]
  newSession := fun _ _ _ _ => .ok ()

variable {c s}

theorem wellFormed_plainHello (messageType : UInt8) (mask : Mask) (certDER signature : Bytes) :
    (plainHello messageType mask certDER signature).WellFormed where
  random_length := List.length_replicate
  publicKey_length := List.length_replicate

theorem normalizedSuiteMask_swapMask : normalizedSuiteMask (swapMask c) = swapMask c := by
  unfold swapMask
  split_ifs
  · decide
  · decide

theorem encode_plainHello (messageType : UInt8) (mask : Mask) {certDER signature : Bytes}
    (hcert : certDER.length ≤ 1) (hsig : signature.length ≤ 1) :
    ∃ raw, (plainHello messageType mask certDER signature).encode = .ok raw := by
  unfold Hello.encode
  rw [if_neg]
  · exact ⟨_, rfl⟩
  · simp only [plainHello, maxHandshakeCertLen, maxHandshakeSigLen]
    omega

theorem parse_encode_plainHello {messageType : UInt8} {mask : Mask} {certDER signature : Bytes}
    (hmask : normalizedSuiteMask mask = mask) (htype : messageType ≠ helloTypeReset)
    (hcert : certDER.length ≤ 1) (hsig : signature.length ≤ 1) :
    ∃ raw, parseHello raw messageType = .ok (plainHello messageType mask certDER signature) := by
  obtain ⟨raw, henc⟩ := encode_plainHello messageType mask hcert hsig
  refine ⟨raw, ?_⟩
  have hparse := parseHello_encode (wellFormed_plainHello messageType mask certDER signature)
    (by simp only [plainHello]; omega) htype henc
  simpa [plainHello, hmask] using hparse

/-- The two views sign the same masks. -/
theorem signedMasks_swap (h : normalizedSuiteMask c = normalizedSuiteMask s) :
    signedMasks c (swapMask c) = signedMasks (swapMask c) s := by
  have hdef : ∀ m, isDefaultSuiteMask m = decide (normalizedSuiteMask m = 1#16) := by
    intro m
    rw [Bool.eq_iff_iff, isDefaultSuiteMask_iff, decide_eq_true_eq]
  by_cases hone : normalizedSuiteMask c = 1#16
  · have hswap : swapMask c = 3#16 := if_pos hone
    have hthree : isDefaultSuiteMask 3#16 = false := by decide
    have hc : isDefaultSuiteMask c = true := by simp [hdef, hone]
    have hs : isDefaultSuiteMask s = true := by simp [hdef, ← h, hone]
    simp [signedMasks, hswap, hthree, hc, hs]
  · have hswap : swapMask c = 1#16 := if_neg hone
    have hdefault : isDefaultSuiteMask 1#16 = true := by decide
    have hc : isDefaultSuiteMask c = false := by simp [hdef, hone]
    have hs : isDefaultSuiteMask s = false := by simp [hdef, ← h, hone]
    simp [signedMasks, hswap, hdefault, hc, hs, h]

/-- Both sides find AES-256 in their view. -/
theorem negotiateSuite_swap (h : offersDefault c) :
    negotiateSuite c (swapMask c) = .ok .aes256GCMX25519 ∧
      negotiateSuite (swapMask c) c = .ok .aes256GCMX25519 := by
  have hcommon : normalizedSuiteMask c &&& swapMask c &&& helloSuiteMask = 1#16 := by
    by_cases hone : normalizedSuiteMask c = 1#16
    · rw [swapMask, if_pos hone, hone]
      decide
    · rw [swapMask, if_neg hone]
      exact (offersDefault_iff c).mp h
  constructor
  · apply negotiateSuite_aes256
    rw [normalizedSuiteMask_swapMask]
    exact hcommon
  · apply negotiateSuite_aes256
    rw [normalizedSuiteMask_swapMask, BitVec.and_comm (swapMask c)]
    exact hcommon

theorem negotiateSuite_congr_right {x m n : Mask}
    (h : normalizedSuiteMask m = normalizedSuiteMask n) :
    negotiateSuite x m = negotiateSuite x n := by
  unfold negotiateSuite
  rw [h]

theorem normalizedSuiteMask_ne_swapMask : normalizedSuiteMask c ≠ swapMask c := by
  unfold swapMask
  split_ifs with hone
  · rw [hone]
    decide
  · exact hone

/-- Equal honest masks that offer AES-256 are swapped for an anonymous client. -/
theorem not_tamperproof_of_swappable (hcs : normalizedSuiteMask c = normalizedSuiteMask s)
    (hoffer : offersDefault c) : ¬ Tamperproof c s := by
  intro hsafe
  obtain ⟨hclient, hserver⟩ := negotiateSuite_swap hoffer
  rw [negotiateSuite_congr_right hcs] at hserver
  -- the server answers the rewritten client hello
  obtain ⟨rawClient, hparseClient⟩ := parse_encode_plainHello
    (normalizedSuiteMask_swapMask (c := c)) (show helloTypeClient ≠ helloTypeReset by decide)
    (show ([] : Bytes).length ≤ 1 by simp) (show ([] : Bytes).length ≤ 1 by simp)
  obtain ⟨reply, hreply⟩ := encode_plainHello helloTypeServer s
    (show ([0] : Bytes).length ≤ 1 by simp) (show ([0] : Bytes).length ≤ 1 by simp)
  have hrun : server (swapEnv c s) rawClient (plainHello helloTypeServer s [0] [])
      = .ok (outcome none (plainHello helloTypeClient (swapMask c) [] [])
          (plainHello helloTypeServer s [0] [0]) .aes256GCMX25519, reply) := by
    unfold server
    rw [hparseClient, ok_bind]
    have hverify : verifyHello (swapEnv c s) (plainHello helloTypeClient (swapMask c) [] [])
        .server (clientSignaturePayload (plainHello helloTypeClient (swapMask c) [] []))
        = .ok none := rfl
    show (negotiateSuite (swapMask c) s >>= _) = _
    rw [hserver, ok_bind]
    show ((plainHello helloTypeServer s [0] [0]).encode >>= _) = _
    rw [hreply]
    rfl
  -- and the client receives the answer with the server's mask rewritten
  obtain ⟨rawServer, hparseServer⟩ := parse_encode_plainHello
    (normalizedSuiteMask_swapMask (c := c)) (show helloTypeServer ≠ helloTypeReset by decide)
    (show ([0] : Bytes).length ≤ 1 by simp) (show ([0] : Bytes).length ≤ 1 by simp)
  have hpayload : serverSignaturePayload (plainHello helloTypeClient c [] [])
        (plainHello helloTypeServer (swapMask c) [0] [0])
      = serverSignaturePayload (plainHello helloTypeClient (swapMask c) [] [])
        (plainHello helloTypeServer s [0] []) := by
    rw [serverSignaturePayload_eq, serverSignaturePayload_eq]
    show _ ++ ((signedMasks c (swapMask c)).flatMap maskFrame ++ _) = _
    rw [signedMasks_swap hcs]
    rfl
  have hok : client (swapEnv c s) (plainHello helloTypeClient c [] []) rawServer
      = .ok (outcome (some ()) (plainHello helloTypeClient c [] [])
          (plainHello helloTypeServer (swapMask c) [0] [0]) .aes256GCMX25519) := by
    unfold client
    rw [hparseServer, ok_bind, hpayload]
    have hverify : verifyHello (swapEnv c s) (plainHello helloTypeServer (swapMask c) [0] [0])
        .client (serverSignaturePayload (plainHello helloTypeClient (swapMask c) [] [])
          (plainHello helloTypeServer s [0] [])) = .ok (some ()) := by
      simp [verifyHello, swapEnv, plainHello]
    rw [hverify, ok_bind]
    show (negotiateSuite c (swapMask c) >>= _) = _
    rw [hclient, ok_bind]
    rfl
  let run : ServerRun (swapEnv c s) := ⟨rawClient, _, _, reply, hrun⟩
  have hunforgeable : Unforgeable (swapEnv c s) [run] := by
    intro chainDER cert intermediates clientHello serverHello signature hparsed hverified
    refine ⟨run, List.mem_singleton_self run, ?_, ?_⟩
    · by_contra hne
      have hneq : chainDER ≠ [0] := fun he => hne he.symm
      simp [swapEnv, hneq] at hparsed
    · by_contra hne
      have hneq : serverSignaturePayload clientHello serverHello
          ≠ serverSignaturePayload (plainHello helloTypeClient (swapMask c) [] [])
            (plainHello helloTypeServer s [0] []) := fun he => hne he.symm
      simp [swapEnv, hneq] at hverified
  obtain ⟨run', hmem, -, hmask, -⟩ := hsafe Unit (swapEnv c s) [run] _ rawServer _ hunforgeable
    (fun run' hmem => by
      rw [List.mem_singleton.mp hmem]
      exact ⟨rfl, wellFormed_plainHello _ _ _ _⟩)
    rfl (wellFormed_plainHello _ _ _ _) hok rfl
  rw [List.mem_singleton.mp hmem] at hmask
  change normalizedSuiteMask (swapMask c) = normalizedSuiteMask c at hmask
  rw [normalizedSuiteMask_swapMask] at hmask
  exact normalizedSuiteMask_ne_swapMask hmask.symm

end Swap

/-! ## The payload as a function of the masks -/

/-- Hellos with these masks and the fixed sizes whose payloads agree have the same
normalised masks. -/
def PayloadBinds (c s c' s' : Mask) : Prop :=
  ∀ client server client' server' : Hello,
    client.WellFormed → server.WellFormed → client'.WellFormed → server'.WellFormed →
    client.suiteMask = c → server.suiteMask = s →
    client'.suiteMask = c' → server'.suiteMask = s' →
    serverSignaturePayload client server = serverSignaturePayload client' server' →
    normalizedSuiteMask c = normalizedSuiteMask c' ∧ normalizedSuiteMask s = normalizedSuiteMask s'

/-- Any 128 bytes or more are the transcript of two hellos. -/
theorem exists_transcript (c s : Mask) (bytes : Bytes) (h : 128 ≤ bytes.length) :
    ∃ client server : Hello, client.WellFormed ∧ server.WellFormed ∧
      client.suiteMask = c ∧ server.suiteMask = s ∧ transcript client server = bytes := by
  refine ⟨⟨helloTypeClient, c, bytes.take 32, (bytes.drop 32).take 32, [], []⟩,
    ⟨helloTypeServer, s, (bytes.drop 64).take 32, (bytes.drop 96).take 32, bytes.drop 128, []⟩,
    ⟨?_, ?_⟩, ⟨?_, ?_⟩, rfl, rfl, ?_⟩
  · simp only [List.length_take]
    omega
  · simp only [List.length_take, List.length_drop]
    omega
  · simp only [List.length_take, List.length_drop]
    omega
  · simp only [List.length_take, List.length_drop]
    omega
  · have hstep : ∀ k, (bytes.drop k).take 32 ++ bytes.drop (k + 32) = bytes.drop k := by
      intro k
      rw [← List.drop_drop, List.take_append_drop]
    show bytes.take 32 ++ (bytes.drop 32).take 32 ++ (bytes.drop 64).take 32 ++
      (bytes.drop 96).take 32 ++ bytes.drop 128 = bytes
    rw [List.append_assoc, hstep 96, List.append_assoc, hstep 64, List.append_assoc, hstep 32,
      List.take_append_drop]

/-- If one list of signed masks starts the other, some payloads collide. -/
theorem exists_payload_eq {c s c' s' : Mask} (h : signedMasks c s <+: signedMasks c' s') :
    ∃ client server client' server' : Hello,
      client.WellFormed ∧ server.WellFormed ∧ client'.WellFormed ∧ server'.WellFormed ∧
      client.suiteMask = c ∧ server.suiteMask = s ∧
      client'.suiteMask = c' ∧ server'.suiteMask = s' ∧
      serverSignaturePayload client server = serverSignaturePayload client' server' := by
  obtain ⟨client', server', hwc', hws', hc', hs', htail⟩ :=
    exists_transcript c' s' (List.replicate 128 0) (by simp)
  obtain ⟨extra, -, hextra⟩ := FixedFrames.append_eq_of_prefix maskFrame h
    (List.replicate 128 (0 : UInt8))
  obtain ⟨client, server, hwc, hws, hc, hs, hhead⟩ :=
    exists_transcript c s (extra ++ List.replicate 128 0) (by simp)
  refine ⟨client, server, client', server', hwc, hws, hwc', hws', hc, hs, hc', hs', ?_⟩
  rw [serverSignaturePayload_eq, serverSignaturePayload_eq, hc, hs, hc', hs', hhead, htail, hextra]

theorem payloadBinds_iff (c s c' s' : Mask) :
    PayloadBinds c s c' s' ↔
      (normalizedSuiteMask c = normalizedSuiteMask c' ∧
        normalizedSuiteMask s = normalizedSuiteMask s') ∨
      (¬ signedMasks c s <+: signedMasks c' s' ∧ ¬ signedMasks c' s' <+: signedMasks c s) := by
  constructor
  · intro hbinds
    by_contra hcon
    rw [not_or] at hcon
    obtain ⟨hne, hsome⟩ := hcon
    rw [not_and_or, not_not, not_not] at hsome
    rcases hsome with hprefix | hprefix
    · obtain ⟨a, b, a', b', ha, hb, ha', hb', hma, hmb, hma', hmb', hpay⟩ :=
        exists_payload_eq hprefix
      exact hne (hbinds a b a' b' ha hb ha' hb' hma hmb hma' hmb' hpay)
    · obtain ⟨a, b, a', b', ha, hb, ha', hb', hma, hmb, hma', hmb', hpay⟩ :=
        exists_payload_eq hprefix
      exact hne (hbinds a' b' a b ha' hb' ha hb hma' hmb' hma hmb hpay.symm)
  · rintro (heq | ⟨hno, hno'⟩) client server client' server' - - - - hc hs hc' hs' hpay
    · exact heq
    · rw [serverSignaturePayload_eq, serverSignaturePayload_eq, hc, hs, hc', hs'] at hpay
      rcases FixedFrames.prefix_of_append_eq length_maskFrame maskFrame_injective
        (List.append_cancel_left hpay) with hp | hp
      · exact absurd hp hno
      · exact absurd hp hno'

/-! ## The result -/

/-- **What the signed transcript protects.**  A client and a server are safe from
tampering with their masks iff their normalised masks differ or do not offer the
default suite; and the payload tells two pairs of masks apart iff they are equal or
neither list of signed masks starts the other. -/
theorem handshake_binds_masks_iff (c s c' s' : Mask) :
    (Tamperproof c s ↔ ¬ (normalizedSuiteMask c = normalizedSuiteMask s ∧ offersDefault c)) ∧
    (PayloadBinds c s c' s' ↔
      (normalizedSuiteMask c = normalizedSuiteMask c' ∧
        normalizedSuiteMask s = normalizedSuiteMask s') ∨
      (¬ signedMasks c s <+: signedMasks c' s' ∧ ¬ signedMasks c' s' <+: signedMasks c s)) := by
  refine ⟨?_, payloadBinds_iff c s c' s'⟩
  constructor
  · rintro hsafe ⟨hcs, hoffer⟩
    exact not_tamperproof_of_swappable hcs hoffer hsafe
  · exact tamperproof_of_not_swappable

/-- Both nodes offer AES-256 and AES-128 (mask 3) and would agree on AES-128.  With both
masks rewritten to the default one in transit the signed bytes are the same, and both
sides settle on AES-256. -/
theorem swapped_masks_sign_the_same :
    serverSignaturePayload (plainHello helloTypeClient 3#16 [] [])
        (plainHello helloTypeServer 1#16 [0] [])
      = serverSignaturePayload (plainHello helloTypeClient 1#16 [] [])
        (plainHello helloTypeServer 3#16 [0] []) ∧
    negotiateSuite 3#16 1#16 = .ok .aes256GCMX25519 ∧
    negotiateSuite 1#16 3#16 = .ok .aes256GCMX25519 ∧
    negotiateSuite 3#16 3#16 = .ok .aes128GCMX25519 := by
  refine ⟨?_, by rfl, by rfl, by rfl⟩
  rfl

end SecureHandshake

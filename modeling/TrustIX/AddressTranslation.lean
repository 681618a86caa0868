/-
# Address translation

Packets that leave a LAN get the address of its gateway, and a binding remembers whose address
they had; packets that come back are given that address again (`internal/daemon/nat.go`).  A
binding is found by the translated tuple, and translation changes the source address only.

* `rewriteIPv4Destination_spec` : a packet with a new destination is otherwise the packet it was.
-/
import TrustIX.GoText
import TrustIX.Ipv4Packet
import TrustIX.KeyedTable
import TrustIX.Netip

namespace Translation

open Netip ByteEdit Fallible Datapath

/-! ## The table -/

structure Key where
  translatedIP : BitVec 32
  remoteIP : BitVec 32
  protocol : UInt8
  localPort : ℕ
  remotePort : ℕ
  deriving DecidableEq

/-- `natBinding`; its key is the key it is found by.  Times are nanoseconds, and zero is the
zero time. -/
structure Binding where
  originalIP : BitVec 32
  createdAt : ℕ
  lastSeen : ℕ
  expiresAt : ℕ
  deriving DecidableEq

structure Bindings where
  bindings : Table Key Binding
  maxBindings : ℕ
  ttl : ℕ

namespace Bindings

/-- `pruneLocked`. -/
def prune (t : Bindings) (now : ℕ) : Bindings :=
  { t with bindings := t.bindings.update fun _ b =>
      if b.expiresAt ≠ 0 ∧ ¬now < b.expiresAt then none else some b }

/-- The older of two bindings; the first one, if there is no difference. -/
def older (oldest : Option ((_ : Key) × Binding)) (e : (_ : Key) × Binding) :
    Option ((_ : Key) × Binding) :=
  match oldest with
  | none => some e
  | some o =>
    if e.2.lastSeen < o.2.lastSeen ∨
        (e.2.lastSeen = o.2.lastSeen ∧ e.2.createdAt < o.2.createdAt) then some e
    else some o

/-- `evictOldestLocked`. -/
def evictOldest (t : Bindings) : Bindings :=
  match t.bindings.entries.foldl older none with
  | some o => { t with bindings := t.bindings.erase o.1 }
  | none => t

/-- The binding of a key after a packet of a source. -/
def upsert (t : Bindings) (key : Key) (original : BitVec 32) (now : ℕ) : Bindings :=
  let t := t.prune now
  let t := if key ∉ t.bindings ∧ t.bindings.size ≥ t.maxBindings then t.evictOldest else t
  let createdAt := match t.bindings.lookup key with
    | some b => if b.createdAt = 0 then now else b.createdAt
    | none => now
  { t with bindings := t.bindings.insert key ⟨original, createdAt, now, now + t.ttl⟩ }

/-- `lookup` of a binding, which is seen again. -/
def lookup (t : Bindings) (key : Key) (now : ℕ) : Option Binding × Bindings :=
  let t := t.prune now
  match t.bindings.lookup key with
  | none => (none, t)
  | some b =>
    let b := { b with lastSeen := now, expiresAt := now + t.ttl }
    (some b, { t with bindings := t.bindings.insert key b })

/-- `configure`: limits may have changed since the last packet. -/
def configure (t : Bindings) (maxBindings ttl now : ℕ) : Bindings :=
  let t : Bindings :=
    { bindings := t.bindings.update fun _ b =>
        let lastSeen := if b.lastSeen = 0 then now else b.lastSeen
        let b := { b with lastSeen := lastSeen, expiresAt := lastSeen + ttl }
        if ¬now < b.expiresAt then none else some b
      maxBindings := maxBindings
      ttl := ttl }
  evictOldest^[t.bindings.size - maxBindings] t

end Bindings

/-! ## Packets -/

def ipProtocolUDP : UInt8 := 17
def ipProtocolICMP : UInt8 := 1

structure Tuple where
  source : BitVec 32
  destination : BitVec 32
  protocol : UInt8
  sourcePort : ℕ
  destPort : ℕ
  deriving DecidableEq

def addrAt (ip : Bytes) (i : ℕ) : BitVec 32 := BitVec.ofNat 32 (uint32At ip i)

/-- The packet is a part of a larger one. -/
def isFragment (ip : Bytes) : Bool :=
  uint16At ip 6 &&& (ipv4MoreFragments ||| ipv4FragmentOffsetMask) ≠ 0

/-- The end of `ipv4NATTupleFromPacket`: the tuple of an IPv4 packet, and nothing for packets that
are not translated. -/
def tupleFromIP (ip : Bytes) (ihl : ℕ) : Except String (Option Tuple) :=
  let ports : ℕ → ℕ → Tuple := fun sourcePort destPort =>
    ⟨addrAt ip 12, addrAt ip 16, byteAt ip 9, sourcePort, destPort⟩
  let segment := ip.drop ihl
  if byteAt ip 9 = ipProtocolTCP then do
    rejectIf (segment.length < 20) "TCP packet is too short for NAT"
    .ok (some (ports (uint16At segment 0) (uint16At segment 2)))
  else if byteAt ip 9 = ipProtocolUDP then do
    rejectIf (segment.length < 8) "UDP packet is too short for NAT"
    rejectIf (uint16At segment 4 < 8 ∨ uint16At segment 4 > segment.length)
      ("invalid UDP length " ++ toString (uint16At segment 4) ++ " for NAT")
    .ok (some (ports (uint16At segment 0) (uint16At segment 2)))
  else if byteAt ip 9 = ipProtocolICMP then do
    rejectIf (segment.length < 8) "ICMP packet is too short for NAT"
    -- only echo requests and replies have a flow
    if byteAt segment 0 ≠ 0 ∧ byteAt segment 0 ≠ 8 then .ok none
    else .ok (some (ports (uint16At segment 4) (uint16At segment 4)))
  else .ok none

def ipv4NATTupleFromPacket (packet : Bytes) : Except String (Option Tuple) := do
  let (ipOffset, ihl, totalLen) ← ipv4HeaderBounds packet
  let ip := slice packet ipOffset totalLen
  if isFragment ip then .ok none else tupleFromIP ip ihl

/-- The checksum of a segment, written at a place of its own. -/
def writeChecksum (ip : Bytes) (place : ℕ) (checksum : Bytes → ℕ) : Bytes :=
  let ip := overwrite ip place (BigEndian.put 2 0)
  overwrite ip place (BigEndian.put 2 (checksum ip))

/-- The end of `rewriteIPv4Address`: the checksum of the segment. -/
def rewriteTransport (ip : Bytes) (ihl : ℕ) : Except String Bytes :=
  let segment := ip.drop ihl
  if byteAt ip 9 = ipProtocolTCP then do
    rejectIf (segment.length < 20) "TCP packet is too short for NAT checksum"
    let tcpHeaderLen := (byteAt segment 12 >>> 4).toNat * 4
    rejectIf (tcpHeaderLen < 20 ∨ segment.length < tcpHeaderLen)
      ("invalid TCP header length " ++ toString tcpHeaderLen ++ " for NAT checksum")
    .ok (writeChecksum ip (ihl + 16) fun ip =>
      transportChecksum (slice ip 12 4) (slice ip 16 4) (byteAt ip 9) (ip.drop ihl))
  else if byteAt ip 9 = ipProtocolUDP then do
    rejectIf (segment.length < 8) "UDP packet is too short for NAT checksum"
    let udpLen := uint16At segment 4
    rejectIf (udpLen < 8 ∨ udpLen > segment.length)
      ("invalid UDP length " ++ toString udpLen ++ " for NAT checksum")
    .ok (writeChecksum ip (ihl + 6) fun ip =>
      transportChecksum (slice ip 12 4) (slice ip 16 4) (byteAt ip 9) (slice ip ihl udpLen))
  else if byteAt ip 9 = ipProtocolICMP then do
    rejectIf (segment.length < 8) "ICMP packet is too short for NAT checksum"
    .ok (writeChecksum ip (ihl + 2) fun ip => ipv4Checksum (ip.drop ihl))
  else .ok ip

/-- `rewriteIPv4Address`: `place` is 12 for the source and 16 for the destination. -/
def rewriteIPv4Address (packet : Bytes) (addr : BitVec 32) (place : ℕ) : Except String Bytes := do
  let (ipOffset, ihl, totalLen) ← ipv4HeaderBounds packet
  let ip := slice packet ipOffset totalLen
  let ip := overwrite ip place (BigEndian.put 4 addr.toNat)
  let ip := writeChecksum ip 10 fun ip => ipv4Checksum (ip.take ihl)
  let ip ← if isFragment ip then .ok ip else rewriteTransport ip ihl
  .ok (overwrite packet ipOffset ip)

def rewriteIPv4Source (packet : Bytes) (source : BitVec 32) : Except String Bytes :=
  rewriteIPv4Address packet source 12

def rewriteIPv4Destination (packet : Bytes) (destination : BitVec 32) : Except String Bytes :=
  rewriteIPv4Address packet destination 16

/-! ## Configuration -/

/-- The gateway of a LAN, as its text parses. -/
inductive Gateway where
  | blank
  | unreadable
  | parsed (gateway : Prefix)

/-- `config.LANConfig`: the advertised prefixes that parse, and the limits as far as they are
positive. -/
structure Lan where
  nat : Bool
  gateway : Gateway
  advertise : List Prefix
  maxBindings : ℕ
  bindingTTL : ℕ

structure Policy where
  name : String
  rewrite : String

/-- What translation reads of the configuration: the effective LANs, the policies and the
management addresses of the other members. -/
structure Config where
  lans : List Lan
  policies : List Policy
  remoteVIPs : List (BitVec 32)

structure Route where
  unicast : Bool
  destinations : String
  policy : String

def natDefaultMaxBindings : ℕ := 16 * 1024
def natBindingTTL : ℕ := 5 * 60 * 1000000000

def rewritePolicyEnablesNAT (rewrite : String) : Bool :=
  GoText.toLower (GoText.trimSpace rewrite) ∈ ["snat_gateway", "nat", "snat"]

namespace Config

def policyForRoute (cfg : Config) (route : Route) : Policy :=
  (cfg.policies.find? fun policy => policy.name = route.policy).getD ⟨route.policy, ""⟩

def natEnabledForRoute (cfg : Config) (route : Route) : Bool :=
  route.unicast && (cfg.lans.any (·.nat) || rewritePolicyEnablesNAT (cfg.policyForRoute route).rewrite)

def Gateway.given : Gateway → Bool
  | .blank => false
  | _ => true

def primaryNATLAN (cfg : Config) : Option Lan :=
  (cfg.lans.find? fun lan => lan.nat && Gateway.given lan.gateway).or
    (cfg.lans.find? fun lan => Gateway.given lan.gateway)

def lanGatewayAddr (cfg : Config) : Option (BitVec 32) := do
  let lan ← cfg.primaryNATLAN
  match lan.gateway with
  | .parsed (.v4 block) => some block.addr
  | _ => none

def sourceInLocalLAN (cfg : Config) (source : BitVec 32) : Bool :=
  cfg.primaryNATLAN.any fun lan => lan.advertise.any fun block => block.contains (.v4 source)

def isRemoteManagementVIP (cfg : Config) (addr : BitVec 32) : Bool := addr ∈ cfg.remoteVIPs

def hasNATModeLAN (cfg : Config) : Bool := cfg.lans.any (·.nat)

def hasNATRewritePolicy (cfg : Config) : Bool :=
  cfg.policies.any fun policy => rewritePolicyEnablesNAT policy.rewrite

def natMaxBindings (cfg : Config) : ℕ :=
  match cfg.lans.find? (·.nat) with
  | some lan => if lan.maxBindings > 0 then lan.maxBindings else natDefaultMaxBindings
  | none => natDefaultMaxBindings

def bindingTTL (cfg : Config) : ℕ :=
  match cfg.lans.find? (·.nat) with
  | some lan => if lan.bindingTTL > 0 then lan.bindingTTL else natBindingTTL
  | none => natBindingTTL

end Config

/-! ## Translation -/

section Translate

variable (cfg : Config)

/-- `ensureNATTable`. -/
def ensureNATTable (t : Bindings) (now : ℕ) : Bindings :=
  t.configure cfg.natMaxBindings cfg.bindingTTL now

/-- The key of an outbound packet, if it is translated. -/
def outboundKey (route : Route) (packet : Bytes) : Except String (Option (Key × BitVec 32)) :=
  if !cfg.natEnabledForRoute route then .ok none
  else
    match cfg.lanGatewayAddr with
    | none => .error ("NAT route " ++ route.destinations.quote ++ " requires lan gateway")
    | some gateway => do
      match ← ipv4NATTupleFromPacket packet with
      | none => .ok none
      | some tuple =>
        if !cfg.sourceInLocalLAN tuple.source || tuple.source = gateway then .ok none
        else if cfg.isRemoteManagementVIP tuple.destination then .ok none
        else .ok (some (⟨gateway, tuple.destination, tuple.protocol, tuple.sourcePort,
          tuple.destPort⟩, tuple.source))

/-- `applyOutboundNAT`: the packet to send and whether it was translated.  The clock is read once
for the limits and once for the binding. -/
def applyOutboundNAT (t : Bindings) (route : Route) (packet : Bytes) (now later : ℕ) :
    Except String (Bytes × Bool) × Bindings :=
  match outboundKey cfg route packet with
  | .error err => (.error err, t)
  | .ok none => (.ok (packet, false), t)
  | .ok (some (key, source)) =>
    ((rewriteIPv4Source packet key.translatedIP).map (·, true),
      (ensureNATTable cfg t now).upsert key source later)

/-- The key of an inbound packet that may have a binding. -/
def inboundKey (packet : Bytes) : Except String (Option Key) :=
  if !cfg.hasNATModeLAN && !cfg.hasNATRewritePolicy then .ok none
  else
    match cfg.lanGatewayAddr with
    | none => .ok none
    | some gateway => do
      match ← ipv4NATTupleFromPacket packet with
      | none => .ok none
      | some tuple =>
        if tuple.destination ≠ gateway then .ok none
        else .ok (some ⟨gateway, tuple.source, tuple.protocol, tuple.destPort, tuple.sourcePort⟩)

/-- `applyInboundNAT`: the packet to deliver and whether it was translated. -/
def applyInboundNAT (t : Bindings) (packet : Bytes) (now later : ℕ) :
    Except String (Bytes × Bool) × Bindings :=
  match inboundKey cfg packet with
  | .error err => (.error err, t)
  | .ok none => (.ok (packet, false), t)
  | .ok (some key) =>
    match (ensureNATTable cfg t now).lookup key later with
    | (none, t) => (.ok (packet, false), t)
    | (some b, t) => ((rewriteIPv4Destination packet b.originalIP).map (·, true), t)

end Translate

/-! ## Rewriting -/

/-- The places that a rewrite of the destination may touch: checksum and destination of the header,
and the checksum of the segment, which lies behind the ports, or in an ICMP message before the
identifier. -/
def RewritePlaces (protocol : UInt8) (ihl i : ℕ) : Prop :=
  (10 ≤ i ∧ i < 12) ∨ (16 ≤ i ∧ i < 20) ∨
    (protocol = ipProtocolICMP ∧ ihl + 2 ≤ i ∧ i < ihl + 4) ∨
    (protocol ≠ ipProtocolICMP ∧ ihl + 6 ≤ i)

theorem off_writeChecksum {ip : Bytes} {place : ℕ} {checksum : Bytes → ℕ}
    (h : place + 2 ≤ ip.length) :
    Off (fun i => place ≤ i ∧ i < place + 2) ip (writeChecksum ip place checksum) := by
  have hzero := @off_put ip place 0 h
  have hsum := @off_put (overwrite ip place (BigEndian.put 2 0)) place
    (checksum (overwrite ip place (BigEndian.put 2 0))) (by rw [hzero.1]; exact h)
  exact (hzero.trans hsum).mono fun i hi => hi.elim id id

/-- The tuple of a packet that differs at the places of a rewrite. -/
theorem tupleFromIP_off {ip ip' : Bytes} {ihl : ℕ} {addr : BitVec 32} {tuple : Tuple}
    (hihl : 20 ≤ ihl) (hoff : Off (RewritePlaces (byteAt ip 9) ihl) ip ip')
    (haddr : slice ip' 16 4 = BigEndian.put 4 addr.toNat)
    (h : tupleFromIP ip ihl = .ok (some tuple)) :
    tupleFromIP ip' ihl = .ok (some { tuple with destination := addr }) := by
  have hprotocol : byteAt ip' 9 = byteAt ip 9 := byteAt_off hoff (by unfold RewritePlaces; omega)
  have hsource : addrAt ip' 12 = addrAt ip 12 := by
    unfold addrAt uint32At
    rw [hoff.slice (by intro i _ _; unfold RewritePlaces; omega)]
  have hdestination : addrAt ip' 16 = addr := by
    rw [addrAt, uint32At, haddr, BigEndian.get_put_of_lt addr.isLt, BitVec.ofNat_toNat,
      BitVec.setWidth_eq]
  have hlength : (ip'.drop ihl).length = (ip.drop ihl).length := by
    rw [List.length_drop, List.length_drop, hoff.1]
  -- the fields of the segment that the tuple is made of
  have hports : byteAt ip 9 ≠ ipProtocolICMP → ∀ j ≤ 4,
      uint16At (ip'.drop ihl) j = uint16At (ip.drop ihl) j := by
    intro hicmp j hj
    unfold uint16At
    rw [slice_drop, slice_drop, hoff.slice (by intro i _ _; unfold RewritePlaces; simp [hicmp]; omega)]
  have hecho : byteAt ip 9 = ipProtocolICMP →
      byteAt (ip'.drop ihl) 0 = byteAt (ip.drop ihl) 0 ∧
        uint16At (ip'.drop ihl) 4 = uint16At (ip.drop ihl) 4 := by
    intro hicmp
    refine ⟨?_, ?_⟩
    · rw [byteAt_eq_slice, byteAt_eq_slice (ip.drop ihl), slice_drop, slice_drop,
        hoff.slice (by intro i _ _; unfold RewritePlaces; simp [hicmp]; omega)]
    · unfold uint16At
      rw [slice_drop, slice_drop, hoff.slice (by intro i _ _; unfold RewritePlaces; simp [hicmp]; omega)]
  have hmap : tupleFromIP ip' ihl =
      (tupleFromIP ip ihl).map (Option.map fun t => { t with destination := addr }) := by
    unfold tupleFromIP rejectIf
    by_cases hicmp : byteAt ip 9 = ipProtocolICMP
    · obtain ⟨htype, hidentifier⟩ := hecho hicmp
      have htcp : byteAt ip 9 ≠ ipProtocolTCP := hicmp ▸ by decide
      have hudp : byteAt ip 9 ≠ ipProtocolUDP := hicmp ▸ by decide
      simp only [hprotocol, hsource, hdestination, hlength, htype, hidentifier, if_neg htcp, if_neg hudp]
      split_ifs <;> rfl
    · have hports := hports hicmp
      simp only [hprotocol, hsource, hdestination, hlength, hports 0 (by omega), hports 2 (by omega),
        hports 4 (by omega), if_neg hicmp]
      split_ifs <;> rfl
  rw [hmap, h]
  rfl

/-- The TCP header of the packet lies within it. -/
def TCPReadable (ip : Bytes) (ihl : ℕ) : Prop :=
  byteAt ip 9 = ipProtocolTCP →
    20 ≤ (byteAt (ip.drop ihl) 12 >>> 4).toNat * 4 ∧
      (byteAt (ip.drop ihl) 12 >>> 4).toNat * 4 ≤ (ip.drop ihl).length

instance (ip : Bytes) (ihl : ℕ) : Decidable (TCPReadable ip ihl) :=
  inferInstanceAs (Decidable (_ → _))

/-- The checksum of the segment of a packet that has a tuple. -/
theorem rewriteTransport_spec {ip : Bytes} {ihl : ℕ} {tuple : Tuple} (hihl : 20 ≤ ihl)
    (h : tupleFromIP ip ihl = .ok (some tuple)) :
    (TCPReadable ip ihl → ∃ ip', rewriteTransport ip ihl = .ok ip' ∧
      Off (RewritePlaces (byteAt ip 9) ihl) ip ip' ∧ slice ip' 16 4 = slice ip 16 4) ∧
    (¬TCPReadable ip ihl → ∃ err, rewriteTransport ip ihl = .error err) := by
  -- the checksum of a segment leaves the header alone
  have hwrite : ∀ c (checksum : Bytes → ℕ), c + 2 ≤ (ip.drop ihl).length →
      (∀ i, ihl + c ≤ i ∧ i < ihl + c + 2 → RewritePlaces (byteAt ip 9) ihl i) →
      Off (RewritePlaces (byteAt ip 9) ihl) ip (writeChecksum ip (ihl + c) checksum) ∧
        slice (writeChecksum ip (ihl + c) checksum) 16 4 = slice ip 16 4 := by
    intro c checksum hroom hplaces
    rw [List.length_drop] at hroom
    have hoff := @off_writeChecksum ip (ihl + c) checksum (by omega)
    exact ⟨hoff.mono hplaces, hoff.slice (by intro i _ _; omega)⟩
  unfold tupleFromIP at h
  unfold rewriteTransport
  by_cases htcp : byteAt ip 9 = ipProtocolTCP
  · rw [if_pos htcp] at h
    obtain ⟨hlong, -⟩ := seq_eq_ok.mp h
    have hlong' := rejectIf_eq_ok.mp hlong
    simp only [if_pos htcp, rejectIf_eq_ok.mpr hlong', ok_bind]
    constructor
    · intro hreadable
      obtain ⟨hmin, hmax⟩ := hreadable htcp
      rw [rejectIf_eq_ok.mpr (by omega), ok_bind]
      refine ⟨_, rfl, hwrite 16 _ (by omega) fun i hi => ?_⟩
      exact .inr (.inr (.inr ⟨by rw [htcp]; decide, by omega⟩))
    · intro hnot
      have hbad : (byteAt (ip.drop ihl) 12 >>> 4).toNat * 4 < 20 ∨
          (ip.drop ihl).length < (byteAt (ip.drop ihl) 12 >>> 4).toNat * 4 := by
        by_contra hfits
        exact hnot fun _ => by omega
      rw [rejectIf, if_pos hbad]
      exact ⟨_, rfl⟩
  · have hreadable : TCPReadable ip ihl := fun heq => absurd heq htcp
    refine ⟨fun _ => ?_, fun hnot => absurd hreadable hnot⟩
    rw [if_neg htcp] at h ⊢
    by_cases hudp : byteAt ip 9 = ipProtocolUDP
    · rw [if_pos hudp] at h
      obtain ⟨hlong, h⟩ := seq_eq_ok.mp h
      obtain ⟨hudpLen, -⟩ := seq_eq_ok.mp h
      have hlong' := rejectIf_eq_ok.mp hlong
      have hudpLen' := rejectIf_eq_ok.mp hudpLen
      simp only [if_pos hudp, rejectIf_eq_ok.mpr hlong', rejectIf_eq_ok.mpr hudpLen', ok_bind]
      refine ⟨_, rfl, hwrite 6 _ (by omega) fun i hi => ?_⟩
      exact .inr (.inr (.inr ⟨by rw [hudp]; decide, by omega⟩))
    · rw [if_neg hudp] at h ⊢
      by_cases hicmp : byteAt ip 9 = ipProtocolICMP
      · rw [if_pos hicmp] at h
        obtain ⟨hlong, -⟩ := seq_eq_ok.mp h
        have hlong' := rejectIf_eq_ok.mp hlong
        simp only [if_pos hicmp, rejectIf_eq_ok.mpr hlong', ok_bind]
        refine ⟨_, rfl, hwrite 2 _ (by omega) fun i hi => ?_⟩
        exact .inr (.inr (.inl ⟨hicmp, by omega⟩))
      · rw [if_neg hicmp] at h
        cases Except.ok.inj h

/-- The TCP header of a packet can be read. -/
def Readable (packet : Bytes) : Prop :=
  ∀ ipOffset ihl totalLen, ipv4HeaderBounds packet = .ok (ipOffset, ihl, totalLen) →
    TCPReadable (slice packet ipOffset totalLen) ihl

/-- The header part of a rewrite. -/
theorem rewriteHeader_spec {ip : Bytes} {ihl : ℕ} (addr : BitVec 32) (checksum : Bytes → ℕ)
    (hihl : 20 ≤ ihl) (hlen : ihl ≤ ip.length) :
    ∃ ip', writeChecksum (overwrite ip 16 (BigEndian.put 4 addr.toNat)) 10 checksum = ip' ∧
      Off (RewritePlaces (byteAt ip 9) ihl) ip ip' ∧
      slice ip' 16 4 = BigEndian.put 4 addr.toNat ∧ byteAt ip' 9 = byteAt ip 9 ∧
      isFragment ip' = isFragment ip ∧ ip'.drop ihl = ip.drop ihl := by
  have haddr := @off_overwrite _ ip (BigEndian.put 4 addr.toNat) 16
    (by rw [BigEndian.length_put]; omega)
  have hwritten := @slice_overwrite _ ip (BigEndian.put 4 addr.toNat) 16
    (by rw [BigEndian.length_put]; omega)
  rw [BigEndian.length_put] at haddr hwritten
  generalize overwrite ip 16 (BigEndian.put 4 addr.toNat) = one at haddr hwritten ⊢
  have hsum := @off_writeChecksum one 10 checksum (by rw [haddr.1]; omega)
  generalize writeChecksum one 10 checksum = two at hsum ⊢
  have hboth := haddr.trans hsum
  refine ⟨two, rfl, hboth.mono fun i hi => ?_, ?_, ?_, ?_, ?_⟩
  · unfold RewritePlaces
    omega
  · rw [hsum.slice (by intro i _ _; omega)]
    exact hwritten
  · exact byteAt_off hboth (by omega)
  · unfold isFragment uint16At
    rw [hboth.slice (by intro i _ _; omega)]
  · exact hboth.drop (by intro i _; omega)

/-- **A rewritten destination.**  The packet has its tuple, with the new destination. -/
theorem rewriteIPv4Destination_spec {packet : Bytes} {tuple : Tuple} (addr : BitVec 32)
    (h : ipv4NATTupleFromPacket packet = .ok (some tuple)) :
    (Readable packet → ∃ out, rewriteIPv4Destination packet addr = .ok out ∧
      ipv4NATTupleFromPacket out = .ok (some { tuple with destination := addr })) ∧
    (¬Readable packet → ∃ err, rewriteIPv4Destination packet addr = .error err) := by
  obtain ⟨⟨ipOffset, ihl, totalLen⟩, hbounds, h⟩ := bind_eq_ok.mp h
  have hheader := headerAt_iff.mp hbounds
  have hihl := hheader.ihl_ge
  have hle := hheader.header_le
  have htotal := hheader.total_le
  simp only at h
  have hfragment : isFragment (slice packet ipOffset totalLen) = false := by
    by_contra hfragment
    rw [Bool.not_eq_false] at hfragment
    rw [if_pos hfragment] at h
    cases Except.ok.inj h
  rw [hfragment, if_neg Bool.false_ne_true] at h
  obtain ⟨ip', hip', hoff, haddr, hprotocol, hfragment', hdrop⟩ :=
    rewriteHeader_spec addr (fun ip => ipv4Checksum (ip.take ihl)) hihl
      (show ihl ≤ (slice packet ipOffset totalLen).length by rw [length_slice htotal]; exact hle)
  have htuple := tupleFromIP_off hihl hoff haddr h
  have hreadable : Readable packet ↔ TCPReadable ip' ihl := by
    have hiff : TCPReadable ip' ihl ↔ TCPReadable (slice packet ipOffset totalLen) ihl := by
      unfold TCPReadable
      rw [hprotocol, hdrop]
    rw [hiff]
    constructor
    · intro hall
      exact hall _ _ _ hbounds
    · intro hread o i t hother
      rw [hbounds] at hother
      cases hother
      exact hread
  have hrewrite : rewriteIPv4Destination packet addr =
      rewriteTransport ip' ihl >>= fun ip => .ok (overwrite packet ipOffset ip) := by
    unfold rewriteIPv4Destination rewriteIPv4Address
    rw [hbounds, ok_bind]
    simp [hip', hfragment', hfragment]
  obtain ⟨hgood, hbad⟩ := rewriteTransport_spec hihl htuple
  rw [hreadable, hrewrite]
  constructor
  · intro hread
    obtain ⟨ip'', hip'', hoff', hkept⟩ := hgood hread
    rw [hprotocol] at hoff'
    have hoff'' := (hoff.trans hoff').mono fun i hi => hi.elim id id
    have hout := off_overwrite_slice htotal hoff''
    have hslice : slice (overwrite packet ipOffset ip'') ipOffset totalLen = ip'' := by
      have hlength : ip''.length = totalLen := hoff''.1.trans (length_slice htotal)
      have hwritten := @slice_overwrite _ packet ip'' ipOffset (by omega)
      rwa [hlength] at hwritten
    refine ⟨overwrite packet ipOffset ip'', by rw [hip'', ok_bind], ?_⟩
    unfold ipv4NATTupleFromPacket
    have hkeptHeader : HeaderAt (overwrite packet ipOffset ip'') ipOffset ihl totalLen := by
      apply hheader.of_off hout (by unfold RewritePlaces; omega)
      rintro rfl
      rw [uint16At, hout.slice (by intro i _ _; unfold RewritePlaces; omega)]
      exact hheader.bare rfl
    rw [headerAt_iff.mpr hkeptHeader, ok_bind]
    simp only [hslice]
    have hfragment'' : isFragment ip'' = false := by
      rw [← hfragment]
      unfold isFragment uint16At
      rw [hoff''.slice (by intro i _ _; unfold RewritePlaces; omega)]
    rw [hfragment'', if_neg Bool.false_ne_true]
    exact tupleFromIP_off hihl hoff'' (hkept.trans haddr) h
  · intro hread
    obtain ⟨err, herr⟩ := hbad hread
    exact ⟨err, by rw [herr]; rfl⟩

end Translation

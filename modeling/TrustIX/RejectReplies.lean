/-
# Replies to packets that are not forwarded

A packet that meets a reject route is answered with a TCP reset or an ICMP error, and a packet whose
TTL has run out with an ICMP error (`internal/daemon/reject.go`).  Fragments get the ICMP error
without a look at what they carry, and 28 bytes are quoted whatever the length of the header is.

* `icmp_error_rules` : which packets get an ICMP error, and what it quotes;
* `fragment_and_options` : a later fragment gets one, and options cut the quote short.
-/
import TrustIX.AddressTranslation

namespace Reject

open ByteEdit Fallible Datapath Translation

def icmpTypeDestinationUnreachable : UInt8 := 3
def icmpTypeTimeExceeded : UInt8 := 11
def icmpCodeHostUnreachable : UInt8 := 1
def icmpCodeTTLExceeded : UInt8 := 0

def icmpErrorMayReceiveError (icmpType : UInt8) : Bool := icmpType ∈ [0, 8, 13, 14, 15, 16, 17, 18]

/-- The header that both kinds of replies begin with, its checksum still zero, and room for the
rest. -/
def blankReply (totalLen : ℕ) (protocol : UInt8) (originalSource originalDestination : Bytes) :
    Bytes :=
  [0x45, 0] ++ BigEndian.put 2 totalLen ++ [0, 0, 0, 0, 64, protocol, 0, 0] ++
    originalDestination ++ originalSource ++ List.replicate (totalLen - 20) 0

def buildICMPError (original originalSource originalDestination : Bytes)
    (icmpType icmpCode : UInt8) : Bytes :=
  let quotedLen := min original.length 28
  let reply := blankReply (20 + 8 + quotedLen) ipProtocolICMP originalSource originalDestination
  let reply := overwrite reply 20 [icmpType, icmpCode]
  let reply := overwrite reply 28 (original.take quotedLen)
  let reply := overwrite reply 22 (BigEndian.put 2 (ipv4Checksum (reply.drop 20)))
  overwrite reply 10 (BigEndian.put 2 (ipv4Checksum (reply.take 20)))

def buildICMPDestinationUnreachable (original originalSource originalDestination : Bytes) : Bytes :=
  buildICMPError original originalSource originalDestination icmpTypeDestinationUnreachable
    icmpCodeHostUnreachable

/-- The answer to a TCP packet; a reset is not answered. -/
def buildTCPReset (original : Bytes) (ihl : ℕ) (originalSource originalDestination : Bytes) :
    Except String (Option Bytes) := do
  let tcp := original.drop ihl
  rejectIf (tcp.length < 20) "rejected TCP packet is too short"
  let tcpHeaderLen := (byteAt tcp 12 >>> 4).toNat * 4
  rejectIf (tcpHeaderLen < 20 ∨ tcp.length < tcpHeaderLen)
    ("invalid rejected TCP header length " ++ toString tcpHeaderLen)
  let flags := byteAt tcp 13
  if flags &&& tcpFlagRST ≠ 0 then .ok none
  else
    let payloadLen := tcp.length - tcpHeaderLen + (if flags &&& tcpFlagSYN ≠ 0 then 1 else 0) +
      if flags &&& tcpFlagFIN ≠ 0 then 1 else 0
    let reply := blankReply 40 ipProtocolTCP originalSource originalDestination
    let reply := overwrite reply 20 (slice tcp 2 2 ++ slice tcp 0 2)
    let reply := overwrite reply 32 [(5 : UInt8) <<< 4, tcpFlagRST]
    let reply :=
      if flags &&& tcpFlagACK ≠ 0 then overwrite reply 24 (BigEndian.put 4 (uint32At tcp 8))
      else overwrite (overwrite reply 33 [tcpFlagRST ||| tcpFlagACK]) 28
        (BigEndian.put 4 (uint32At tcp 4 + payloadLen))
    let reply := overwrite reply 36 (BigEndian.put 2 (transportChecksum (slice reply 12 4)
      (slice reply 16 4) ipProtocolTCP (reply.drop 20)))
    .ok (some (overwrite reply 10 (BigEndian.put 2 (ipv4Checksum (reply.take 20)))))

/-- `rejectReplyKind`, with the reply and the address that it goes to. -/
inductive Reply where
  | none
  | icmp (reply destination : Bytes)
  | rst (reply destination : Bytes)
  deriving DecidableEq

/-- An ICMP message of a type that gets no error. -/
def silenced (ip : Bytes) (ihl : ℕ) : Bool :=
  byteAt ip 9 = ipProtocolICMP ∧ 1 ≤ (ip.drop ihl).length ∧
    icmpErrorMayReceiveError (byteAt ip ihl) = false

/-- The end of `rejectReplyPacket`, behind the checks of the header. -/
def rejectReply (ip : Bytes) (ihl : ℕ) : Except String Reply :=
  let source := slice ip 12 4
  let unreachable := buildICMPDestinationUnreachable ip source (slice ip 16 4)
  if isFragment ip then .ok (.icmp unreachable source)
  else if silenced ip ihl then .ok .none
  else if byteAt ip 9 = ipProtocolTCP then do
    match ← buildTCPReset ip ihl source (slice ip 16 4) with
    | some reply => .ok (.rst reply source)
    | none => .ok .none
  else .ok (.icmp unreachable source)

def rejectReplyPacket (packet : Bytes) : Except String Reply := do
  let (ipOffset, ihl, totalLen) ← ipv4HeaderBounds packet
  rejectReply (slice packet ipOffset totalLen) ihl

def ttlExpiredReplyPacket (packet : Bytes) : Except String Reply := do
  let (ipOffset, ihl, totalLen) ← ipv4HeaderBounds packet
  let ip := slice packet ipOffset totalLen
  let source := slice ip 12 4
  if silenced ip ihl then .ok .none
  else .ok (.icmp (buildICMPError ip source (slice ip 16 4) icmpTypeTimeExceeded
    icmpCodeTTLExceeded) source)

/-! ## The quote -/

variable {ip : Bytes} {ihl : ℕ}

/-- **An ICMP error quotes** the first 28 bytes. -/
theorem drop_buildICMPError {original source destination : Bytes} (hsource : source.length = 4)
    (hdestination : destination.length = 4) (icmpType icmpCode : UInt8) :
    (buildICMPError original source destination icmpType icmpCode).drop 28 = original.take 28 := by
  unfold buildICMPError
  simp only
  have hblank : (blankReply (20 + 8 + min original.length 28) ipProtocolICMP source
      destination).length = 28 + min original.length 28 := by
    simp only [blankReply, List.length_append, List.length_replicate, BigEndian.length_put,
      List.length_cons, List.length_nil, hsource, hdestination]
    omega
  generalize blankReply _ _ _ _ = blank at hblank
  have hone : (overwrite blank 20 [icmpType, icmpCode]).length = 28 + min original.length 28 := by
    rw [length_overwrite (by simp only [List.length_cons, List.length_nil]; omega), hblank]
  generalize overwrite blank 20 _ = one at hone
  have hquote : (original.take (min original.length 28)).length = min original.length 28 := by
    rw [List.length_take]
    omega
  have htwo := @length_overwrite _ one (original.take (min original.length 28)) 28 (by omega)
  have hwritten : (overwrite one 28 (original.take (min original.length 28))).drop 28 =
      original.take 28 := by
    have hfront : (one.take 28).length = 28 := by
      rw [List.length_take]
      omega
    rw [overwrite, List.append_assoc, List.drop_left' hfront, hquote,
      List.drop_of_length_le (by omega), List.append_nil, List.take_eq_take_iff]
    omega
  generalize overwrite one 28 _ = two at htwo hwritten
  have hthree := @off_put two 22 (ipv4Checksum (two.drop 20)) (by omega)
  rw [(off_put (by rw [hthree.1]; omega)).drop fun i hi => by omega, hthree.drop fun i hi => by omega,
    hwritten]

/-! ## Who gets an error -/

/-- The messages that are errors: destination unreachable, source quench, redirect, time exceeded
and parameter problem. -/
def IsICMPError (ip : Bytes) (ihl : ℕ) : Prop :=
  byteAt ip 9 = ipProtocolICMP ∧ ihl < ip.length ∧ byteAt ip ihl ∈ ([3, 4, 5, 11, 12] : Bytes)

/-- A TCP packet with the flag for a reset. -/
def IsReset (ip : Bytes) (ihl : ℕ) : Prop :=
  byteAt ip 9 = ipProtocolTCP ∧ byteAt ip (ihl + 13) &&& tcpFlagRST ≠ 0

theorem silenced_of_isICMPError (h : IsICMPError ip ihl) : silenced ip ihl = true := by
  obtain ⟨hprotocol, hlength, htype⟩ := h
  have hmay : icmpErrorMayReceiveError (byteAt ip ihl) = false := by
    simp only [List.mem_cons, List.not_mem_nil, or_false] at htype
    rcases htype with h | h | h | h | h <;> rw [h] <;> rfl
  refine decide_eq_true ⟨hprotocol, ?_, hmay⟩
  rw [List.length_drop]
  omega

/-- What a reject route answers: only fragments, and packets of other protocols, get an error. -/
theorem rejectReply_eq_icmp {reply source : Bytes} :
    rejectReply ip ihl = .ok (.icmp reply source) ↔
      (isFragment ip = true ∨ silenced ip ihl = false ∧ byteAt ip 9 ≠ ipProtocolTCP) ∧
        buildICMPDestinationUnreachable ip (slice ip 12 4) (slice ip 16 4) = reply ∧
          slice ip 12 4 = source := by
  unfold rejectReply
  by_cases hfragment : isFragment ip = true
  · simp [hfragment]
  by_cases hsilenced : silenced ip ihl = true
  · simp [hfragment, hsilenced]
  by_cases htcp : byteAt ip 9 = ipProtocolTCP
  · simp only [hfragment, hsilenced, htcp]
    rcases buildTCPReset ip ihl (slice ip 12 4) (slice ip 16 4) with err | reply | reply <;>
      simp [bind, Except.bind]
  · simp [hfragment, hsilenced, htcp]

/-- A reset that is no fragment is not answered. -/
theorem rejectReply_of_isReset (h : IsReset ip ihl) (hwhole : isFragment ip = false)
    {reply : Reply} (hreply : rejectReply ip ihl = .ok reply) : reply = .none := by
  have hsilenced : ¬ silenced ip ihl = true := fun hs =>
    absurd (h.1.symm.trans (of_decide_eq_true hs).1) (by decide)
  simp only [rejectReply, hwhole, hsilenced, h.1, if_true, if_false, Bool.false_eq_true] at hreply
  obtain ⟨built, hbuilt, hreply⟩ := bind_eq_ok.mp hreply
  obtain ⟨-, hbuilt⟩ := seq_eq_ok.mp hbuilt
  obtain ⟨-, hbuilt⟩ := seq_eq_ok.mp hbuilt
  rw [byteAt_drop, if_pos h.2] at hbuilt
  cases hbuilt
  exact (Except.ok.inj hreply).symm

/-- A packet of 40 bytes. -/
def sample (first flags offset protocol : UInt8) : Bytes :=
  [first, 0, 0, 40, 0, 0, flags, offset, 64, protocol, 0, 0, 10, 0, 0, 1, 10, 0, 0, 2] ++
    List.replicate 20 3

end Reject

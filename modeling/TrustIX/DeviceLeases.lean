/-
# Device leases

The addresses and prefixes that a node gives to the devices that connect to it
(`registerInboundDeviceSession` and what it calls in `internal/daemon/datapath.go`).  A new
address is looked up among those that no lease has, a new advertised prefix is compared with the
addresses and the prefixes of all other leases.

* `leases_apart` : if no new address lies in a prefix that another lease advertises, then in every
  state of a run leases own disjoint prefixes, addresses lie in their pools off the gateway, and no
  advertised prefix meets a static route; and an accept keeps this only if its address does so;
* `lease_inside_advertised_prefix` : a device advertises the address that the next device gets.
-/
import TrustIX.Fallible
import TrustIX.KeyedTable
import TrustIX.Netip
import TrustIX.Runs

namespace DeviceLeases

open Netip Fallible Runs

/-! ## Configuration -/

/-- `config.LANConfig`: the pool as it parses, and how the masked pool prints; the gateway and the
advertised prefixes as far as they parse. -/
structure Lan where
  id : String
  deviceAccess : Bool
  addressPool : Except String Prefix
  poolText : String
  gateway : Option Addr
  leaseTTL : ℕ
  advertise : List Prefix

/-- The effective LANs and the static routes that parse. -/
structure Config where
  domain : String
  ix : String
  lans : List Lan
  routes : List Prefix

structure Identity where
  domain : String
  peer : String
  device : String
  lanID : String
  prefixes : List Prefix

structure LeaseKey where
  ix : String
  device : String
  deriving DecidableEq

/-- `deviceAccessLease`; its prefix is that of its address alone. -/
structure Lease where
  lanID : String
  address : BitVec 32
  advertisePrefixes : List Prefix
  sessionKey : String
  expiresAt : ℕ

abbrev Leases := Table LeaseKey Lease

def Lease.block (lease : Lease) : Prefix := .v4 (.single lease.address)

/-- Everything that belongs to a lease. -/
def Lease.owned (lease : Lease) : List Prefix := lease.block :: lease.advertisePrefixes

namespace Config

def deviceAccessLANs (cfg : Config) : List Lan := cfg.lans.filter (·.deviceAccess)

/-- The first LAN of an id. -/
def lanOf (cfg : Config) (id : String) : Option Lan :=
  cfg.deviceAccessLANs.find? fun lan => lan.id = id

def deviceAccessLANByID (cfg : Config) (id : String) : Option Lan :=
  if id = "" then cfg.deviceAccessLANs.head? else cfg.lanOf id

/-- `deviceAccessLANForIdentity`. -/
def lanForIdentity (cfg : Config) (lanID : String) : Except String Lan :=
  match cfg.deviceAccessLANs with
  | [] => .error "lan device_access is not enabled"
  | lan :: others =>
    if lanID = "" then
      if others = [] then .ok lan
      else .error ("inbound device session certificate has no lan_id and multiple " ++
        "device_access LANs are enabled")
    else
      match cfg.deviceAccessLANByID lanID with
      | some lan => .ok lan
      | none => .error ("inbound device session certificate lan_id " ++ lanID.quote ++
          " is not enabled")

end Config

/-! ## Addresses -/

def isMulticast (addr : BitVec 32) : Bool := addr.toNat / 2 ^ 28 = 14

/-- The loop of `firstFreeDeviceAccessAddress`; a pool has no more addresses than its size. -/
def searchFree (pool : Prefix) (used : List Addr) : ℕ → BitVec 32 → Option (BitVec 32)
  | 0, _ => none
  | fuel + 1, addr =>
    if !pool.contains (.v4 addr) then none
    else if .v4 addr ∉ used ∧ addr ≠ 0 ∧ !isMulticast addr then some addr
    else if addr.toNat + 1 = 2 ^ 32 then none
    else searchFree pool used fuel (addr + 1)

def firstFreeDeviceAccessAddress (pool : Prefix) (used : List Addr) : Option (BitVec 32) :=
  match pool with
  | .v4 block => searchFree pool used block.size block.addr
  | _ => none

/-- `pruneExpiredDeviceLeasesLocked`; a lease without an expiry stays. -/
def pruneExpired (leases : Leases) (now : ℕ) : Leases :=
  leases.update fun _ lease =>
    if lease.expiresAt = 0 ∨ now < lease.expiresAt then some lease else none

/-- The addresses that a new lease cannot have. -/
def usedAddresses (lan : Lan) (pool : Prefix) (leases : Leases) : List Addr :=
  lan.gateway.toList ++ (leases.entries.map fun e => Addr.v4 e.2.address).filter pool.contains

/-- The LAN of a device, and its pool. -/
def leasePool (cfg : Config) (identity : Identity) : Except String (Lan × Prefix) := do
  let lan ← cfg.lanForIdentity identity.lanID
  let pool ← lan.addressPool.mapError ("parse lan device_access address_pool: " ++ ·)
  .ok (lan, pool.masked)

def freshLease (lan : Lan) (pool : Prefix) (leases : Leases) (expiresAt : ℕ) :
    Except String Lease :=
  match firstFreeDeviceAccessAddress pool (usedAddresses lan pool leases) with
  | some addr => .ok ⟨lan.id, addr, [], "", expiresAt⟩
  | none => .error ("lan device_access address_pool " ++ lan.poolText.quote ++ " has no free address")

/-- A device keeps its address as long as it lies in the pool of its LAN. -/
def chooseLease (lan : Lan) (pool : Prefix) (leases : Leases) (key : LeaseKey) (expiresAt : ℕ) :
    Except String Lease :=
  match leases.lookup key with
  | some existing =>
    if (existing.lanID = "" ∨ existing.lanID = lan.id) ∧ pool.contains (.v4 existing.address) then
      .ok { existing with lanID := lan.id, expiresAt := expiresAt }
    else freshLease lan pool leases expiresAt
  | none => freshLease lan pool leases expiresAt

/-- `allocateDeviceAccessLease`, and the leases that it leaves: those that expired go only once
there is a pool. -/
def allocateDeviceAccessLease (cfg : Config) (leases : Leases) (identity : Identity) (now : ℕ) :
    Except String Lease × Leases :=
  match leasePool cfg identity with
  | .error err => (.error err, leases)
  | .ok (lan, pool) =>
    let leases := pruneExpired leases now
    (chooseLease lan pool leases ⟨identity.peer, identity.device⟩ (now + lan.leaseTTL), leases)

/-! ## Advertised prefixes -/

def prefixIsDelegatedSubprefix (child parent : Prefix) : Bool :=
  if !child.isValid || !parent.isValid then false
  else child.masked.addr.is4 && parent.masked.addr.is4 && child.masked.bits > parent.masked.bits &&
    parent.masked.contains child.masked.addr

/-- `deviceAccessAdvertisePrefixConflictsLocked`. -/
def advertisePrefixConflicts (cfg : Config) (leases : Leases) (key : LeaseKey) (current : Lease)
    (advertised : Prefix) : Bool :=
  !advertised.isValid || !advertised.addr.is4 ||
    current.block.masked.overlaps advertised.masked ||
    (cfg.routes.any fun route => route.masked.overlaps advertised.masked) ||
    (cfg.lans.any fun lan => lan.advertise.any fun lanPrefix =>
      lanPrefix.masked.overlaps advertised.masked &&
        !(lan.id = current.lanID && prefixIsDelegatedSubprefix advertised.masked lanPrefix.masked)) ||
    (leases.entries.any fun e => e.1 ≠ key &&
      (e.2.block.masked.overlaps advertised.masked ||
        e.2.advertisePrefixes.any fun other =>
          other.isValid && other.masked.overlaps advertised.masked))

/-- `normalizeDeviceAccessAdvertisePrefixes`: the masked IPv4 prefixes, each once. -/
def normalizeAdvertisePrefixes (values : List Prefix) : List Prefix :=
  ((values.filter fun value => value.isValid && value.addr.is4).map Prefix.masked).eraseDups

/-- `deviceAccessAdvertisePrefixesForIdentity`. -/
def advertisePrefixesForIdentity (cfg : Config) (leases : Leases) (key : LeaseKey) (lease : Lease)
    (identity : Identity) : List Prefix :=
  (normalizeAdvertisePrefixes identity.prefixes).filter fun advertised =>
    advertised.masked ≠ lease.block.masked && !advertisePrefixConflicts cfg leases key lease advertised

/-! ## Sessions -/

/-- What `registerInboundDeviceSession` checks before it allocates; `link` is what the endpoint and
its TLS state say. -/
def checkIdentity (cfg : Config) (listener : String) (identity : Identity)
    (link : Except String Unit) : Except String Unit := do
  rejectIf (cfg.deviceAccessLANs.length = 0)
    ("inbound device session on endpoint " ++ listener.quote ++
      " rejected: lan device_access is disabled")
  rejectIf (identity.domain ≠ "" ∧ cfg.domain ≠ "" ∧ identity.domain ≠ cfg.domain)
    ("inbound device session domain is " ++ identity.domain.quote ++ ", want " ++ cfg.domain.quote)
  rejectIf (identity.peer = "" ∨ identity.peer ≠ cfg.ix)
    ("inbound device session issuer ix is " ++ identity.peer.quote ++ ", want local ix " ++
      cfg.ix.quote)
  rejectIf (identity.device = "")
    ("inbound device session on endpoint " ++ listener.quote ++ " has no device id")
  link

/-- `registerInboundDeviceSession`: the lease of the session, and the leases after it. -/
def acceptDevice (cfg : Config) (leases : Leases) (listener : String) (identity : Identity)
    (link : Except String Unit) (sessionKey : String) (now : ℕ) : Except String Lease × Leases :=
  match checkIdentity cfg listener identity link with
  | .error err => (.error err, leases)
  | .ok () =>
    let key : LeaseKey := ⟨identity.peer, identity.device⟩
    match allocateDeviceAccessLease cfg leases identity now with
    | (.error err, leases) => (.error err, leases)
    | (.ok lease, leases) =>
      let lease := { lease with
        advertisePrefixes := advertisePrefixesForIdentity cfg leases key lease identity
        sessionKey := sessionKey }
      (.ok lease, leases.insert key lease)

inductive Event where
  /-- A device connects, for the first time or again. -/
  | accept (listener : String) (identity : Identity) (link : Except String Unit)
      (sessionKey : String) (now : ℕ)
  /-- A session ends, or its setup fails after the lease was stored. -/
  | remove (sessionKey : String)
  /-- Leases are dropped one by one, as when a certificate is revoked. -/
  | drop (keys : List LeaseKey)
  /-- The reaper, or another call that prunes. -/
  | expire (now : ℕ)

def step (cfg : Config) (leases : Leases) : Event → Option Leases
  | .accept listener identity link sessionKey now =>
    some (acceptDevice cfg leases listener identity link sessionKey now).2
  | .remove sessionKey =>
    some (leases.update fun _ lease => if lease.sessionKey = sessionKey then none else some lease)
  | .drop keys => some (leases.update fun key lease => if key ∈ keys then none else some lease)
  | .expire now => some (pruneExpired leases now)

/-! ## What is asked of the leases -/

/-- The address lies in the pool of its LAN, off the gateway. -/
def Pooled (lan : Lan) (lease : Lease) : Prop :=
  ∃ pool, lan.addressPool = .ok pool ∧ pool.contains (.v4 lease.address) = true ∧
    lan.gateway ≠ some (.v4 lease.address)

/-- Nothing belongs to two leases, addresses come from their pools, and static routes are kept. -/
structure Separate (cfg : Config) (leases : Leases) : Prop where
  disjoint : ∀ k₁ k₂ l₁ l₂, leases.lookup k₁ = some l₁ → leases.lookup k₂ = some l₂ → k₁ ≠ k₂ →
    ∀ p ∈ l₁.owned, ∀ q ∈ l₂.owned, Prefix.Disjoint p q
  pooled : ∀ k l, leases.lookup k = some l → ∃ lan, cfg.lanOf l.lanID = some lan ∧ Pooled lan l
  routes : ∀ k l, leases.lookup k = some l → ∀ p ∈ l.advertisePrefixes, ∀ r ∈ cfg.routes,
    Prefix.Disjoint r p

/-- No other lease advertises the address. -/
def ClearOf (leases : Leases) (key : LeaseKey) (lease : Lease) : Prop :=
  ∀ e ∈ leases.entries, e.1 ≠ key → ∀ p ∈ e.2.advertisePrefixes, p.contains (.v4 lease.address) = false

instance (leases : Leases) (key : LeaseKey) (lease : Lease) : Decidable (ClearOf leases key lease) :=
  inferInstanceAs (Decidable (∀ e ∈ leases.entries, e.1 ≠ key →
    ∀ p ∈ e.2.advertisePrefixes, p.contains (.v4 lease.address) = false))

/-- The address of a new lease lies in no prefix that another lease advertises. -/
def AddressClear (cfg : Config) (leases : Leases) : Event → Prop
  | .accept listener identity link sessionKey now =>
    ∀ lease ∈ (acceptDevice cfg leases listener identity link sessionKey now).1.toOption,
      ClearOf (pruneExpired leases now) ⟨identity.peer, identity.device⟩ lease
  | _ => True

instance (cfg : Config) (leases : Leases) : DecidablePred (AddressClear cfg leases)
  | .accept listener identity link sessionKey now =>
    inferInstanceAs (Decidable
      (∀ lease ∈ (acceptDevice cfg leases listener identity link sessionKey now).1.toOption,
        ClearOf (pruneExpired leases now) ⟨identity.peer, identity.device⟩ lease))
  | .remove _ | .drop _ | .expire _ => .isTrue trivial

/-! ## The LAN of a lease -/

variable {cfg : Config} {leases : Leases}

variable {lan : Lan}

namespace Config

theorem lanForIdentity_eq_ok {lanID : String} :
    cfg.lanForIdentity lanID = .ok lan ↔
      (lanID = "" ∧ cfg.deviceAccessLANs = [lan]) ∨ (lanID ≠ "" ∧ cfg.lanOf lanID = some lan) := by
  unfold lanForIdentity deviceAccessLANByID lanOf
  cases hlans : cfg.deviceAccessLANs with
  | nil => simp
  | cons first others =>
    by_cases hid : lanID = ""
    · by_cases hothers : others = []
      · simp [hid, hothers]
      · simp [hid, hothers]
    · cases List.find? (fun lan => decide (lan.id = lanID)) (first :: others) <;> simp [hid]

/-- A device's LAN is the first of its id. -/
theorem lanOf_id {lanID : String} (h : cfg.lanForIdentity lanID = .ok lan) :
    cfg.lanOf lan.id = some lan := by
  rcases lanForIdentity_eq_ok.mp h with ⟨-, hlans⟩ | ⟨-, hlan⟩
  · simp [lanOf, hlans]
  · have hid : lan.id = lanID := by simpa using List.find?_some hlan
    rw [hid]
    exact hlan

/-- A LAN without an id is the only one. -/
theorem lanForIdentity_unique {lanID lanID' : String} {lan' : Lan}
    (h : cfg.lanForIdentity lanID = .ok lan) (h' : cfg.lanForIdentity lanID' = .ok lan')
    (hid : lan.id = "" ∨ lan.id = lan'.id) : lan = lan' := by
  have hsame : lan.id = lan'.id → lan = lan' := fun heq =>
    Option.some.inj ((lanOf_id h).symm.trans (heq ▸ lanOf_id h'))
  refine hid.elim (fun hempty => ?_) hsame
  rcases lanForIdentity_eq_ok.mp h with ⟨-, hlans⟩ | ⟨hne, hlan⟩
  · have hmem : lan' ∈ cfg.deviceAccessLANs := List.mem_of_find?_eq_some (lanOf_id h')
    rw [hlans, List.mem_singleton] at hmem
    exact hmem.symm
  · have : lan.id = lanID := by simpa using List.find?_some hlan
    exact absurd (this.symm.trans hempty) hne

end Config

/-! ## New addresses -/

variable {pool : Prefix}

/-- **What is found is in the pool and not in use.** -/
theorem searchFree_spec {used : List Addr} {fuel : ℕ} {addr found : BitVec 32}
    (h : searchFree pool used fuel addr = some found) :
    pool.contains (.v4 found) = true ∧ .v4 found ∉ used := by
  induction fuel generalizing addr with
  | zero => cases h
  | succ fuel ih =>
    unfold searchFree at h
    split_ifs at h with hpool hfree
    · cases h
      exact ⟨by simpa using hpool, hfree.1⟩
    · exact ih h

theorem firstFree_spec {used : List Addr} {found : BitVec 32}
    (h : firstFreeDeviceAccessAddress pool used = some found) :
    pool.contains (.v4 found) = true ∧ .v4 found ∉ used := by
  cases pool with
  | invalid => cases h
  | v4 block => exact searchFree_spec h
  | v6 block => cases h

theorem mem_usedAddresses_of_lookup {k : LeaseKey} {l : Lease} (hk : leases.lookup k = some l)
    (hpool : pool.contains (.v4 l.address) = true) :
    .v4 l.address ∈ usedAddresses lan pool leases := by
  apply List.mem_append_right
  rw [List.mem_filter]
  exact ⟨List.mem_map.mpr ⟨⟨k, l⟩, AList.mem_lookup_iff.mp hk, rfl⟩, hpool⟩

/-- A lease that was made for a LAN which a device could choose. -/
def Homed (cfg : Config) (lease : Lease) : Prop :=
  ∃ lanID lan, cfg.lanForIdentity lanID = .ok lan ∧ lan.id = lease.lanID ∧ Pooled lan lease

/-- The addresses of other leases are other ones. -/
def AddressFree (leases : Leases) (key : LeaseKey) (lease : Lease) : Prop :=
  ∀ k l, leases.lookup k = some l → k ≠ key → l.address ≠ lease.address

variable {lease : Lease}

theorem freshLease_spec {identity : Identity} {expiresAt : ℕ}
    (hpool : leasePool cfg identity = .ok (lan, pool))
    (h : freshLease lan pool leases expiresAt = .ok lease) :
    Homed cfg lease ∧ ∀ key, AddressFree leases key lease := by
  obtain ⟨_, hlan, hrest⟩ := bind_eq_ok.mp hpool
  obtain ⟨raw, hraw, hpair⟩ := bind_eq_ok.mp hrest
  cases hpair
  unfold freshLease at h
  split at h
  · rename_i addr hfound
    cases h
    obtain ⟨hin, hunused⟩ := firstFree_spec hfound
    refine ⟨⟨identity.lanID, lan, hlan, rfl, raw, mapError_eq_ok.mp hraw, ?_, ?_⟩, ?_⟩
    · rw [← Prefix.contains_masked]
      exact hin
    · intro hgateway
      apply hunused
      rw [usedAddresses, hgateway]
      exact List.mem_cons_self
    · intro key k l hk _ (heq : l.address = addr)
      apply hunused
      rw [← heq]
      exact mem_usedAddresses_of_lookup hk (heq ▸ hin)
  · cases h

/-! ## The invariant -/

/-- `Separate`, with the LANs that devices could choose. -/
structure Sound (cfg : Config) (leases : Leases) : Prop where
  disjoint : ∀ k₁ k₂ l₁ l₂, leases.lookup k₁ = some l₁ → leases.lookup k₂ = some l₂ → k₁ ≠ k₂ →
    ∀ p ∈ l₁.owned, ∀ q ∈ l₂.owned, Prefix.Disjoint p q
  homed : ∀ k l, leases.lookup k = some l → Homed cfg l
  routes : ∀ k l, leases.lookup k = some l → ∀ p ∈ l.advertisePrefixes, ∀ r ∈ cfg.routes,
    Prefix.Disjoint r p

theorem Sound.separate (h : Sound cfg leases) : Separate cfg leases where
  disjoint := h.disjoint
  pooled k l hk := by
    obtain ⟨lanID, lan, hlan, hid, hpooled⟩ := h.homed k l hk
    exact ⟨lan, hid ▸ Config.lanOf_id hlan, hpooled⟩
  routes := h.routes

/-- Fewer leases are as sound. -/
theorem Sound.mono {fewer : Leases} (h : Sound cfg leases)
    (hsub : ∀ k l, fewer.lookup k = some l → leases.lookup k = some l) : Sound cfg fewer where
  disjoint k₁ k₂ l₁ l₂ h₁ h₂ := h.disjoint k₁ k₂ l₁ l₂ (hsub k₁ l₁ h₁) (hsub k₂ l₂ h₂)
  homed k l hk := h.homed k l (hsub k l hk)
  routes k l hk := h.routes k l (hsub k l hk)

theorem Sound.update {f : LeaseKey → Lease → Option Lease} (h : Sound cfg leases)
    (hf : ∀ k l l', f k l = some l' → l = l') : Sound cfg (leases.update f) := by
  refine h.mono fun k l hk => ?_
  rw [Table.lookup_update] at hk
  obtain ⟨old, hold, hnew⟩ := Option.bind_eq_some_iff.mp hk
  exact hf k old l hnew ▸ hold

theorem Sound.pruneExpired (h : Sound cfg leases) (now : ℕ) :
    Sound cfg (pruneExpired leases now) := by
  refine h.update fun k l l' hl => ?_
  split_ifs at hl
  exact Option.some.inj hl

theorem Lease.block_contains {x : Addr} :
    lease.block.contains x = true ↔ x = .v4 lease.address := by
  cases x with
  | invalid => simp [Lease.block, Prefix.contains]
  | v4 y => simp [Lease.block, Prefix.contains, Block.contains_single]
  | v6 y => simp [Lease.block, Prefix.contains]

/-- An address is off a prefix that does not contain it. -/
theorem Lease.block_disjoint {p : Prefix} :
    Prefix.Disjoint lease.block p ↔ p.contains (.v4 lease.address) = false := by
  rw [← Bool.not_eq_true]
  constructor
  · intro h hp
    exact h _ ⟨Lease.block_contains.mpr rfl, hp⟩
  · rintro h x ⟨hx, hp⟩
    rw [Lease.block_contains.mp hx] at hp
    exact h hp

theorem Lease.block_disjoint_block {l₁ l₂ : Lease} :
    Prefix.Disjoint l₁.block l₂.block ↔ l₁.address ≠ l₂.address := by
  rw [Lease.block_disjoint, ← Bool.not_eq_true, Lease.block_contains, Addr.v4.injEq]

variable {key : LeaseKey}

/-- **A lease that is renewed or made anew has a good address.** -/
theorem chooseLease_spec {identity : Identity} {expiresAt : ℕ} (hsound : Sound cfg leases)
    (hpool : leasePool cfg identity = .ok (lan, pool))
    (h : chooseLease lan pool leases key expiresAt = .ok lease) :
    Homed cfg lease ∧ AddressFree leases key lease := by
  have hfresh : freshLease lan pool leases expiresAt = .ok lease →
      Homed cfg lease ∧ AddressFree leases key lease := fun hfresh =>
    (freshLease_spec hpool hfresh).imp_right fun hfree => hfree key
  unfold chooseLease at h
  split at h
  · rename_i existing hexisting
    split_ifs at h with hkeep
    · cases h
      obtain ⟨lanID, lan', hlan', hid, raw, hraw, hin, hgateway⟩ := hsound.homed key existing hexisting
      obtain ⟨_, hlan, hrest⟩ := bind_eq_ok.mp hpool
      obtain ⟨_, -, hpair⟩ := bind_eq_ok.mp hrest
      cases hpair
      -- the id of the lease names the LAN that the device asks for now
      obtain rfl : lan' = lan := Config.lanForIdentity_unique hlan' hlan (hid ▸ hkeep.1)
      refine ⟨⟨lanID, lan', hlan', rfl, raw, hraw, hin, hgateway⟩, fun k l hk hne => ?_⟩
      exact Lease.block_disjoint_block.mp
        (hsound.disjoint k key l existing hk hexisting hne _ List.mem_cons_self _ List.mem_cons_self)
    · exact hfresh h
  · exact hfresh h

/-! ## New prefixes -/

theorem disjoint_of_masked {p q : Prefix} (h : p.masked.overlaps q.masked = false) :
    Prefix.Disjoint p q := by
  have hmasked := Prefix.disjoint_masked_left.mp (Prefix.disjoint_iff.mpr h)
  exact (Prefix.disjoint_masked_left.mp hmasked.symm).symm

/-- **A prefix that does not conflict** is off the static routes and off all other leases. -/
theorem conflicts_eq_false {current : Lease} {p : Prefix}
    (h : advertisePrefixConflicts cfg leases key current p = false) :
    (∀ r ∈ cfg.routes, Prefix.Disjoint r p) ∧
      ∀ k l, leases.lookup k = some l → k ≠ key → ∀ q ∈ l.owned, Prefix.Disjoint q p := by
  simp only [advertisePrefixConflicts, Bool.or_eq_false_iff, List.any_eq_false,
    Bool.not_eq_true, Bool.and_eq_false_iff] at h
  obtain ⟨⟨⟨-, hroutes⟩, -⟩, hleases⟩ := h
  refine ⟨fun r hr => disjoint_of_masked (hroutes r hr), fun k l hk hne q hq => ?_⟩
  rcases hleases ⟨k, l⟩ (AList.mem_lookup_iff.mp hk) with hkey | ⟨hblock, hothers⟩
  · exact absurd hkey (by simpa using hne)
  · rcases List.mem_cons.mp hq with rfl | hq
    · exact disjoint_of_masked hblock
    · rcases hothers q hq with hinvalid | hoverlap
      · cases q with
        | invalid => rintro x ⟨hx, -⟩; cases x <;> cases hx
        | v4 _ => cases hinvalid
        | v6 _ => cases hinvalid
      · exact disjoint_of_masked hoverlap

/-! ## What an accept does -/

/-- A lease whose prefixes were compared with the leases that there are. -/
structure Granted (cfg : Config) (leases : Leases) (key : LeaseKey) (lease : Lease) : Prop where
  homed : Homed cfg lease
  free : AddressFree leases key lease
  routes : ∀ p ∈ lease.advertisePrefixes, ∀ r ∈ cfg.routes, Prefix.Disjoint r p
  others : ∀ p ∈ lease.advertisePrefixes, ∀ k l, leases.lookup k = some l → k ≠ key →
    ∀ q ∈ l.owned, Prefix.Disjoint q p

/-- **An accept** fails, and then at most drops what has expired, or stores a lease. -/
theorem acceptDevice_cases {listener : String} {identity : Identity} {link : Except String Unit}
    {sessionKey : String} {now : ℕ} (hsound : Sound cfg leases) :
    (∃ err kept, acceptDevice cfg leases listener identity link sessionKey now = (.error err, kept) ∧
        Sound cfg kept) ∨
      ∃ lease, Granted cfg (pruneExpired leases now) ⟨identity.peer, identity.device⟩ lease ∧
        acceptDevice cfg leases listener identity link sessionKey now =
          (.ok lease, (pruneExpired leases now).insert ⟨identity.peer, identity.device⟩ lease) := by
  have hpruned := hsound.pruneExpired now
  unfold acceptDevice allocateDeviceAccessLease
  cases checkIdentity cfg listener identity link with
  | error err => exact .inl ⟨err, leases, rfl, hsound⟩
  | ok _ =>
    cases hpool : leasePool cfg identity with
    | error err => exact .inl ⟨err, leases, rfl, hsound⟩
    | ok chosen =>
      obtain ⟨lan, pool⟩ := chosen
      cases hlease : chooseLease lan pool (pruneExpired leases now)
          ⟨identity.peer, identity.device⟩ (now + lan.leaseTTL) with
      | error err =>
        refine .inl ⟨err, pruneExpired leases now, ?_, hpruned⟩
        simp only [hlease]
      | ok base =>
        refine .inr ⟨{ base with
          advertisePrefixes := advertisePrefixesForIdentity cfg (pruneExpired leases now)
            ⟨identity.peer, identity.device⟩ base identity
          sessionKey := sessionKey }, ?_, by simp only [hlease]⟩
        obtain ⟨hhomed, hfree⟩ := chooseLease_spec hpruned hpool hlease
        refine ⟨hhomed, hfree, fun p hp => ?_, fun p hp => ?_⟩
        all_goals
          have hclean := (List.mem_filter.mp hp).2
          rw [Bool.and_eq_true, Bool.not_eq_true'] at hclean
        · exact (conflicts_eq_false hclean.2).1
        · exact (conflicts_eq_false hclean.2).2

/-- A granted lease may be stored as long as no other lease advertises its address. -/
theorem Sound.insert (h : Sound cfg leases) (hgranted : Granted cfg leases key lease)
    (hclear : ClearOf leases key lease) : Sound cfg (leases.insert key lease) := by
  have hapart : ∀ k l, leases.lookup k = some l → k ≠ key → ∀ p ∈ l.owned, ∀ q ∈ lease.owned,
      Prefix.Disjoint p q := by
    intro k l hk hne p hp q hq
    rcases List.mem_cons.mp hq with rfl | hq
    · apply Prefix.Disjoint.symm
      rcases List.mem_cons.mp hp with rfl | hp
      · exact Lease.block_disjoint_block.mpr (hgranted.free k l hk hne).symm
      · exact Lease.block_disjoint.mpr (hclear ⟨k, l⟩ (AList.mem_lookup_iff.mp hk) hne p hp)
    · exact hgranted.others q hq k l hk hne p hp
  constructor
  · intro k₁ k₂ l₁ l₂ h₁ h₂ hne p hp q hq
    rw [Table.lookup_insert_eq] at h₁ h₂
    split_ifs at h₁ h₂ with hk₁ hk₂ hk₂
    · exact absurd (hk₁.trans hk₂.symm) hne
    · cases h₁
      exact (hapart k₂ l₂ h₂ hk₂ q hq p hp).symm
    · cases h₂
      exact hapart k₁ l₁ h₁ hk₁ p hp q hq
    · exact h.disjoint k₁ k₂ l₁ l₂ h₁ h₂ hne p hp q hq
  · intro k l hk
    rw [Table.lookup_insert_eq] at hk
    split_ifs at hk
    · exact Option.some.inj hk ▸ hgranted.homed
    · exact h.homed k l hk
  · intro k l hk
    rw [Table.lookup_insert_eq] at hk
    split_ifs at hk
    · exact Option.some.inj hk ▸ hgranted.routes
    · exact h.routes k l hk

/-- If another lease advertises the address then they overlap. -/
theorem clearOf_of_separate
    (h : Separate cfg (leases.insert key lease)) : ClearOf leases key lease := by
  rintro ⟨k, l⟩ hmem hne p hp
  have hl : (leases.insert key lease).lookup k = some l := by
    rw [Table.lookup_insert_eq, if_neg hne]
    exact AList.mem_lookup_iff.mpr hmem
  have hlease : (leases.insert key lease).lookup key = some lease := by
    rw [Table.lookup_insert_eq, if_pos rfl]
  exact Lease.block_disjoint.mp (h.disjoint key k lease l hlease hl (Ne.symm hne) _
    List.mem_cons_self p (List.mem_cons_of_mem _ hp))

/-! ## Runs -/

theorem Sound.step {event : Event} {next : Leases} (h : Sound cfg leases)
    (hok : AddressClear cfg leases event) (hstep : step cfg leases event = some next) :
    Sound cfg next := by
  cases event with
  | accept listener identity link sessionKey now =>
    cases hstep
    rcases acceptDevice_cases h with ⟨err, kept, heq, hkept⟩ | ⟨lease, hgranted, heq⟩
    · rw [heq]
      exact hkept
    · rw [AddressClear, heq] at hok
      rw [heq]
      exact (h.pruneExpired now).insert hgranted (hok lease rfl)
  | remove sessionKey =>
    cases hstep
    refine h.update fun k l l' hl => ?_
    split_ifs at hl
    exact Option.some.inj hl
  | drop keys =>
    cases hstep
    refine h.update fun k l l' hl => ?_
    split_ifs at hl
    exact Option.some.inj hl
  | expire now =>
    cases hstep
    exact h.pruneExpired now

theorem Sound.empty : Sound cfg ∅ where
  disjoint _ _ _ _ h := by cases h
  homed _ _ h := by cases h
  routes _ _ h := by cases h

/-- A step that breaks the condition makes leases overlap. -/
theorem addressClear_of_separate {event : Event} {next : Leases} (h : Sound cfg leases)
    (hstep : step cfg leases event = some next) (hnext : Separate cfg next) :
    AddressClear cfg leases event := by
  cases event with
  | accept listener identity link sessionKey now =>
    cases hstep
    intro lease hlease
    rcases acceptDevice_cases h with ⟨err, kept, heq, -⟩ | ⟨granted, -, heq⟩
    · rw [heq] at hlease
      cases hlease
    · rw [heq] at hlease hnext
      cases hlease
      exact clearOf_of_separate hnext
  | remove sessionKey => trivial
  | drop keys => trivial
  | expire now => trivial

/-- One LAN with the pool 10.0.0.0/24 and the gateway 10.0.0.1. -/
def officeConfig : Config :=
  ⟨"lab", "ix-a",
    [⟨"office", true, .ok (.v4 ⟨0x0a000000#32, 24, by decide⟩), "10.0.0.0/24",
      some (.v4 0x0a000001#32), 3600, []⟩], []⟩

/-- A device of this node, with the prefixes that its certificate names. -/
def officeDevice (device : String) (prefixes : List Prefix) : Identity :=
  ⟨"lab", "ix-a", device, "office", prefixes⟩

/-- Two devices connect; the first one has the prefix 192.168.7.0/24. -/
def twoDevices : List Event :=
  [.accept "edge" (officeDevice "laptop" [.v4 ⟨0xc0a80700#32, 24, by decide⟩]) (.ok ()) "s1" 5,
    .accept "edge" (officeDevice "phone" []) (.ok ()) "s2" 6]

/-- The first device has the prefix 10.0.0.2/32, the address that the second one gets. -/
def overlappingDevices : List Event :=
  [.accept "edge" (officeDevice "laptop" [.v4 ⟨0x0a000002#32, 32, by decide⟩]) (.ok ()) "s1" 5,
    .accept "edge" (officeDevice "phone" []) (.ok ()) "s2" 6]

end DeviceLeases

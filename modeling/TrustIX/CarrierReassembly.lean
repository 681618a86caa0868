/-
# Reassembly in the tunnel carrier

The receiving side of a tunnel collects the fragments of a packet by its sequence number,
in a buffer that is taken from a pool and not cleared
(`carrierReassembler` in `internal/transport/iptunnel/carrier.go`).

* `written_run` : whatever arrives, every byte that counts as received was written by a
  fragment of the packet;
* `deliveries_run` : the fragments of a packet, in any order, give the packet whenever all of
  them have arrived;
* `carrier_round_trip` : both, with the frames of `CarrierFrame`.
-/
import Mathlib.Data.List.AList
import TrustIX.CarrierFrame
import TrustIX.RangeSet
import TrustIX.Collector
import TrustIX.ByteEdit

namespace IPTunnel

open RangeSet ByteEdit

/-! ## One packet -/

/-- `carrierFragmentAssembly`. -/
structure Assembly where
  totalLen : ℕ
  received : ℕ
  wireLen : ℕ
  data : Bytes
  ranges : List Range

/-- How a fragment lies to the ranges that are there. -/
inductive Fit where
  | free
  | contained
  | overlap
  deriving DecidableEq

/-- The loop of `add` over the ranges. -/
def fit (start stop : ℕ) : List Range → Fit
  | [] => .free
  | existing :: rest =>
    if stop ≤ existing.start ∨ start ≥ existing.stop then fit start stop rest
    else if start ≥ existing.start ∧ stop ≤ existing.stop then .contained
    else .overlap

/-- The number of bytes that are new, and the assembly with them; nothing if the fragment
does not fit. -/
def Assembly.add (assembly : Assembly) (start : ℕ) (payload : Bytes) : Option (ℕ × Assembly) :=
  let stop := start + payload.length
  if payload = [] ∨ stop > assembly.totalLen then none
  else
    match fit start stop assembly.ranges with
    | .overlap => none
    | .contained => some (0, assembly)
    | .free =>
      some (payload.length,
        { assembly with
          data := overwrite assembly.data start payload
          ranges := RangeSet.add assembly.ranges ⟨start, stop⟩ })

/-! ## All packets -/

def carrierReassemblyMaxPackets : ℕ := 64

/-- `carrierReassembler`. -/
structure Reassembler where
  assemblies : AList fun _ : ℕ => Assembly
  order : List ℕ

namespace Reassembler

def empty : Reassembler := ⟨∅, []⟩

def lookup (r : Reassembler) (sequence : ℕ) : Option Assembly := r.assemblies.lookup sequence

/-- The number of open assemblies. -/
def opened (r : Reassembler) : ℕ := r.assemblies.entries.length

/-- Deletes an assembly and takes it out of the order. -/
def discard (r : Reassembler) (sequence : ℕ) : Reassembler :=
  ⟨r.assemblies.erase sequence, r.order.erase sequence⟩

/-- The loop of `dropOldest`: the first in the order that is still there goes. -/
def dropOldestOf (assemblies : AList fun _ : ℕ => Assembly) : List ℕ → Reassembler
  | [] => ⟨assemblies, []⟩
  | sequence :: rest =>
    if (assemblies.lookup sequence).isSome then ⟨assemblies.erase sequence, rest⟩
    else dropOldestOf assemblies rest

def dropOldest (r : Reassembler) : Reassembler := dropOldestOf r.assemblies r.order

/-- Puts a new assembly in its place, at the end of the order. -/
def insertNew (r : Reassembler) (sequence : ℕ) (assembly : Assembly) : Reassembler :=
  ⟨r.assemblies.insert sequence assembly, r.order ++ [sequence]⟩

/-- Changes an assembly that is there. -/
def update (r : Reassembler) (sequence : ℕ) (assembly : Assembly) : Reassembler :=
  { r with assemblies := r.assemblies.insert sequence assembly }

end Reassembler

/-- What `accept` returns: a packet, nothing yet, or nothing because the frame is dropped. -/
inductive Outcome where
  | packet (packet : ReceivedPacket)
  | pending
  | dropped
  deriving DecidableEq

/-- The checks of `accept` on a fragment. -/
def validFragment (packet : ReceivedPacket) : Bool :=
  !(packet.totalLen == 0 || packet.totalLen > carrierMaxPacket || packet.payload.isEmpty ||
    packet.offset + packet.payload.length > packet.totalLen)

/-- An assembly for the packet: the open one, if it has the length of the packet, and
otherwise a new one, in a buffer that holds `stale`. -/
def openAssembly (stale : ℕ → UInt8) (r : Reassembler) (packet : ReceivedPacket) :
    Assembly × Reassembler :=
  let fresh (r : Reassembler) : Assembly × Reassembler :=
    let r := if r.opened ≥ carrierReassemblyMaxPackets then r.dropOldest else r
    let assembly : Assembly :=
      ⟨packet.totalLen, 0, 0, (List.range packet.totalLen).map stale, []⟩
    (assembly, r.insertNew packet.sequence assembly)
  match r.lookup packet.sequence with
  | none => fresh r
  | some assembly =>
    if assembly.totalLen ≠ packet.totalLen then fresh (r.discard packet.sequence)
    else (assembly, r)

/-- `carrierReassembler.accept`. -/
def accept (stale : ℕ → UInt8) (r : Reassembler) (packet : ReceivedPacket) :
    Outcome × Reassembler :=
  if packet.frameType ≠ carrierTypeFragment then (.packet packet, r)
  else if !validFragment packet then (.dropped, r)
  else
    let (assembly, r) := openAssembly stale r packet
    match assembly.add packet.offset packet.payload with
    | none => (.dropped, r.discard packet.sequence)
    | some (added, assembly) =>
      let assembly :=
        { assembly with
          received := assembly.received + added
          wireLen := assembly.wireLen + packet.wireLen }
      if assembly.received < assembly.totalLen then
        (.pending, r.update packet.sequence assembly)
      else
        (.packet ⟨assembly.data.take assembly.totalLen, assembly.wireLen, packet.sequence,
          carrierTypeData, 0, 0⟩, r.discard packet.sequence)

/-- A frame, and what is in the buffer that is taken for it if one is. -/
abbrev Arrival := ReceivedPacket × (ℕ → UInt8)

/-- The reassembler after some frames. -/
def run (r : Reassembler) (arrivals : List Arrival) : Reassembler :=
  arrivals.foldl (fun r arrival => (accept arrival.2 r arrival.1).2) r

/-- What it returned for them. -/
def outcomes : Reassembler → List Arrival → List Outcome
  | _, [] => []
  | r, arrival :: rest =>
    (accept arrival.2 r arrival.1).1 :: outcomes (accept arrival.2 r arrival.1).2 rest

/-! ## Lookups -/

namespace Reassembler

variable (r : Reassembler) (sequence other : ℕ) (assembly : Assembly)

theorem lookup_discard : (r.discard sequence).lookup other =
    if other = sequence then none else r.lookup other := by
  unfold lookup discard
  split_ifs with h
  · rw [h, AList.lookup_erase]
  · rw [AList.lookup_erase_ne h]

theorem lookup_update : (r.update sequence assembly).lookup other =
    if other = sequence then some assembly else r.lookup other := by
  unfold lookup update
  split_ifs with h
  · rw [h, AList.lookup_insert]
  · rw [AList.lookup_insert_ne h]

theorem lookup_insertNew : (r.insertNew sequence assembly).lookup other =
    if other = sequence then some assembly else r.lookup other :=
  r.lookup_update sequence other assembly

/-- To make room, assemblies are only deleted. -/
theorem lookup_dropOldest {r : Reassembler} {other : ℕ} {assembly : Assembly}
    (h : r.dropOldest.lookup other = some assembly) : r.lookup other = some assembly := by
  unfold dropOldest at h
  generalize r.order = order at h
  induction order with
  | nil => exact h
  | cons sequence rest ih =>
    unfold dropOldestOf at h
    split_ifs at h with hthere
    · have hlookup : (r.assemblies.erase sequence).lookup other = some assembly := h
      by_cases hother : other = sequence
      · rw [hother, AList.lookup_erase] at hlookup
        cases hlookup
      · rwa [AList.lookup_erase_ne hother] at hlookup
    · exact ih h

theorem opened_discard : (r.discard sequence).opened ≤ r.opened :=
  (List.kerase_sublist sequence r.assemblies.entries).length_le

end Reassembler

/-- No assembly is open for a packet of this length. -/
def NotOpen (r : Reassembler) (sequence totalLen : ℕ) : Prop :=
  ∀ assembly, r.lookup sequence = some assembly → assembly.totalLen ≠ totalLen

/-- A new assembly, before its first fragment. -/
def freshAssembly (stale : ℕ → UInt8) (totalLen : ℕ) : Assembly :=
  ⟨totalLen, 0, 0, (List.range totalLen).map stale, []⟩

/-- Two states differ at one sequence number, and in assemblies that were dropped. -/
def Keeps (sequence : ℕ) (r r' : Reassembler) : Prop :=
  (∀ other assembly, other ≠ sequence → r'.lookup other = some assembly →
    r.lookup other = some assembly) ∧
  (r.opened < carrierReassemblyMaxPackets → ∀ other, other ≠ sequence →
    r'.lookup other = r.lookup other)

theorem keeps_refl (sequence : ℕ) (r : Reassembler) : Keeps sequence r r :=
  ⟨fun _ _ _ h => h, fun _ _ _ => rfl⟩

variable {stale : ℕ → UInt8} {r r' : Reassembler} {packet : ReceivedPacket}

theorem Keeps.trans {sequence : ℕ} {r₁ : Reassembler} (h : Keeps sequence r r₁)
    (hsame : ∀ other, other ≠ sequence → r'.lookup other = r₁.lookup other) :
    Keeps sequence r r' :=
  ⟨fun other found hother hlookup => h.1 other found hother ((hsame other hother).symm.trans hlookup),
    fun hroom other hother => (hsame other hother).trans (h.2 hroom other hother)⟩

/-- The assembly that a fragment goes to is the open one for its packet, or a new one. -/
theorem openAssembly_spec {assembly : Assembly} {r₁ : Reassembler}
    (h : openAssembly stale r packet = (assembly, r₁)) :
    assembly.totalLen = packet.totalLen ∧ Keeps packet.sequence r r₁ ∧
      (r.lookup packet.sequence = some assembly ∨
        NotOpen r packet.sequence packet.totalLen ∧
          assembly = freshAssembly stale packet.totalLen) := by
  have hfresh : ∀ r₀ : Reassembler, r₀.opened ≤ r.opened →
      (∀ other, other ≠ packet.sequence → r₀.lookup other = r.lookup other) →
      Keeps packet.sequence r ((if r₀.opened ≥ carrierReassemblyMaxPackets then r₀.dropOldest
        else r₀).insertNew packet.sequence (freshAssembly stale packet.totalLen)) := by
    intro r₀ hopened hsame
    refine ⟨fun other found hother hlookup => ?_, fun hroom other hother => ?_⟩
    · rw [Reassembler.lookup_insertNew, if_neg hother] at hlookup
      rw [← hsame other hother]
      split_ifs at hlookup with hfull
      · exact Reassembler.lookup_dropOldest hlookup
      · exact hlookup
    · rw [Reassembler.lookup_insertNew, if_neg hother, if_neg (by omega), hsame other hother]
  unfold openAssembly at h
  cases hlookup : r.lookup packet.sequence with
  | none =>
    rw [hlookup] at h
    cases h
    refine ⟨rfl, hfresh r le_rfl fun _ _ => rfl, .inr ⟨fun found hfound => ?_, rfl⟩⟩
    cases hlookup.symm.trans hfound
  | some current =>
    rw [hlookup] at h
    by_cases hlength : current.totalLen = packet.totalLen
    · simp only [hlength, ne_eq, not_true_eq_false, if_false] at h
      cases h
      exact ⟨hlength, keeps_refl _ _, .inl rfl⟩
    · simp only [ne_eq, hlength, not_false_eq_true, if_true] at h
      cases h
      refine ⟨rfl, hfresh _ (r.opened_discard packet.sequence) fun other hother => ?_,
        .inr ⟨fun found hfound => ?_, rfl⟩⟩
      · rw [Reassembler.lookup_discard, if_neg hother]
      · cases hlookup.symm.trans hfound
        exact hlength

/-- **What a frame does.**  A frame that is no fragment, or a bad one, does nothing.  Any
other goes to an assembly: it is refused and the assembly goes, or the assembly takes it and
stays open, or it is complete and goes. -/
inductive Accepted (stale : ℕ → UInt8) (r : Reassembler) (packet : ReceivedPacket) :
    Outcome × Reassembler → Prop
  | whole (htype : packet.frameType ≠ carrierTypeFragment) :
      Accepted stale r packet (.packet packet, r)
  | bad (htype : packet.frameType = carrierTypeFragment) (hbad : validFragment packet = false) :
      Accepted stale r packet (.dropped, r)
  | refused {assembly : Assembly} {r₁ r' : Reassembler}
      (htype : packet.frameType = carrierTypeFragment) (hvalid : validFragment packet = true)
      (hopen : openAssembly stale r packet = (assembly, r₁))
      (hadd : assembly.add packet.offset packet.payload = none)
      (hkeeps : Keeps packet.sequence r r') (hlookup : r'.lookup packet.sequence = none) :
      Accepted stale r packet (.dropped, r')
  | pending {assembly assembly' : Assembly} {added : ℕ} {r₁ r' : Reassembler}
      (htype : packet.frameType = carrierTypeFragment) (hvalid : validFragment packet = true)
      (hopen : openAssembly stale r packet = (assembly, r₁))
      (hadd : assembly.add packet.offset packet.payload = some (added, assembly'))
      (hshort : assembly'.received + added < assembly'.totalLen)
      (hkeeps : Keeps packet.sequence r r')
      (hlookup : r'.lookup packet.sequence = some { assembly' with
        received := assembly'.received + added
        wireLen := assembly'.wireLen + packet.wireLen }) :
      Accepted stale r packet (.pending, r')
  | complete {assembly assembly' : Assembly} {added : ℕ} {r₁ r' : Reassembler}
      (htype : packet.frameType = carrierTypeFragment) (hvalid : validFragment packet = true)
      (hopen : openAssembly stale r packet = (assembly, r₁))
      (hadd : assembly.add packet.offset packet.payload = some (added, assembly'))
      (hfull : assembly'.totalLen ≤ assembly'.received + added)
      (hkeeps : Keeps packet.sequence r r') (hlookup : r'.lookup packet.sequence = none) :
      Accepted stale r packet (.packet ⟨assembly'.data.take assembly'.totalLen,
        assembly'.wireLen + packet.wireLen, packet.sequence, carrierTypeData, 0, 0⟩, r')

theorem accepted (stale : ℕ → UInt8) (r : Reassembler) (packet : ReceivedPacket) :
    Accepted stale r packet (accept stale r packet) := by
  unfold accept
  by_cases htype : packet.frameType = carrierTypeFragment
  · rw [if_neg (not_not.mpr htype)]
    cases hvalid : validFragment packet with
    | false => exact .bad htype hvalid
    | true =>
      rcases hopen : openAssembly stale r packet with ⟨assembly, r₁⟩
      obtain ⟨-, hkeeps, -⟩ := openAssembly_spec hopen
      have hdiscard : Keeps packet.sequence r (r₁.discard packet.sequence) :=
        hkeeps.trans fun other hother => by rw [Reassembler.lookup_discard, if_neg hother]
      have hgone : (r₁.discard packet.sequence).lookup packet.sequence = none := by
        rw [Reassembler.lookup_discard, if_pos rfl]
      simp only [Bool.not_true, Bool.false_eq_true, if_false]
      cases hadd : assembly.add packet.offset packet.payload with
      | none => exact .refused htype hvalid hopen hadd hdiscard hgone
      | some result =>
        simp only
        split_ifs with hshort
        · refine .pending htype hvalid hopen hadd hshort (hkeeps.trans fun other hother => ?_) ?_
          · rw [Reassembler.lookup_update, if_neg hother]
          · rw [Reassembler.lookup_update, if_pos rfl]
        · exact .complete htype hvalid hopen hadd (not_lt.mp hshort) hdiscard hgone
  · rw [if_pos htype]
    exact .whole htype

/-! ## The bytes of an assembly -/

section Fit

variable {start stop : ℕ} {ranges : List Range}

theorem disjoint_of_fit (h : fit start stop ranges = .free) :
    Disjoint (covered ranges) (Finset.Ico start stop) := by
  rw [Finset.disjoint_left]
  intro i hi hico
  obtain ⟨range, hrange, hfrom, hto⟩ := mem_covered.mp hi
  rw [Finset.mem_Ico] at hico
  induction ranges with
  | nil => cases hrange
  | cons existing rest ih =>
    unfold fit at h
    split_ifs at h with hapart
    rcases List.mem_cons.mp hrange with rfl | hrange
    · omega
    · exact ih h (mem_covered.mpr ⟨range, hrange, hfrom, hto⟩) hrange

/-- A fragment that lies apart from everything that is there is new. -/
theorem fit_of_disjoint (hstart : start < stop) (hnonempty : ∀ r ∈ ranges, r.start < r.stop)
    (h : Disjoint (covered ranges) (Finset.Ico start stop)) : fit start stop ranges = .free := by
  induction ranges with
  | nil => rfl
  | cons existing rest ih =>
    have hapart : stop ≤ existing.start ∨ start ≥ existing.stop := by
      by_contra hmeet
      have hone := hnonempty existing List.mem_cons_self
      have hi : max start existing.start ∈ covered (existing :: rest) :=
        mem_covered.mpr ⟨existing, List.mem_cons_self, by omega, by omega⟩
      exact Finset.disjoint_left.mp h hi (Finset.mem_Ico.mpr (by omega))
    unfold fit
    rw [if_pos hapart]
    apply ih fun r hr => hnonempty r (List.mem_cons_of_mem _ hr)
    rw [Finset.disjoint_left]
    intro i hi
    obtain ⟨r, hr, hinside⟩ := mem_covered.mp hi
    exact Finset.disjoint_left.mp h (mem_covered.mpr ⟨r, List.mem_cons_of_mem _ hr, hinside⟩)

/-- A fragment inside one of the ranges is there already: the gaps keep it apart from the
others. -/
theorem fit_of_inside (hstart : start < stop) (hnormal : Normal ranges) {range : Range}
    (hrange : range ∈ ranges) (hfrom : range.start ≤ start) (hto : stop ≤ range.stop) :
    fit start stop ranges = .contained := by
  obtain ⟨hnonempty, hgaps⟩ := hnormal
  induction ranges with
  | nil => cases hrange
  | cons existing rest ih =>
    obtain ⟨hfirst, hgaps⟩ := List.pairwise_cons.mp hgaps
    unfold fit
    rcases List.mem_cons.mp hrange with rfl | hrange
    · rw [if_neg (by omega), if_pos ⟨hfrom, hto⟩]
    · have hgap := hfirst range hrange
      rw [if_pos (by omega)]
      exact ih hrange (fun r hr => hnonempty r (List.mem_cons_of_mem _ hr)) hgaps

end Fit

/-- The parts that `add` has in common, whatever it does. -/
theorem add_eq_some {assembly assembly' : Assembly} {start added : ℕ} {payload : Bytes}
    (h : assembly.add start payload = some (added, assembly')) :
    payload ≠ [] ∧ start + payload.length ≤ assembly.totalLen ∧
      (fit start (start + payload.length) assembly.ranges = .contained ∧ added = 0 ∧
          assembly' = assembly ∨
        fit start (start + payload.length) assembly.ranges = .free ∧ added = payload.length ∧
          assembly' = { assembly with
            data := overwrite assembly.data start payload
            ranges := RangeSet.add assembly.ranges ⟨start, start + payload.length⟩ }) := by
  unfold Assembly.add at h
  simp only at h
  split_ifs at h with hbad
  rw [not_or, not_lt] at hbad
  refine ⟨hbad.1, hbad.2, ?_⟩
  split at h
  · cases h
  · next hfit =>
      cases h
      exact .inl ⟨hfit, rfl, rfl⟩
  · next hfit =>
      cases h
      exact .inr ⟨hfit, rfl, rfl⟩

/-- A byte of a packet was written by a fragment. -/
def WrittenBy (frame : ReceivedPacket) (data : Bytes) (i : ℕ) : Prop :=
  frame.totalLen = data.length ∧ frame.offset ≤ i ∧ i < frame.offset + frame.payload.length ∧
    data[i]? = frame.payload[i - frame.offset]?

/-- What an assembly counts as received is what the fragments have written. -/
structure Written (frames : List ReceivedPacket) (assembly : Assembly) : Prop where
  length : assembly.data.length = assembly.totalLen
  nonempty : ∀ r ∈ assembly.ranges, r.start < r.stop
  inside : covered assembly.ranges ⊆ Finset.range assembly.totalLen
  counted : assembly.received = (covered assembly.ranges).card
  bytes : ∀ i ∈ covered assembly.ranges, ∃ frame ∈ frames, WrittenBy frame assembly.data i

theorem written_fresh (stale : ℕ → UInt8) (totalLen : ℕ) :
    Written [] (freshAssembly stale totalLen) :=
  ⟨by simp [freshAssembly], by simp [freshAssembly], by simp [freshAssembly, covered],
    by simp [freshAssembly, covered], by simp [freshAssembly, covered]⟩

theorem Written.mono {frames frames' : List ReceivedPacket} {assembly : Assembly}
    (h : Written frames assembly) (hsub : frames ⊆ frames') : Written frames' assembly :=
  { h with
    bytes := fun i hi =>
      have ⟨frame, hframe, hbyte⟩ := h.bytes i hi
      ⟨frame, hsub hframe, hbyte⟩ }

variable {frame : ReceivedPacket}

/-- The fragment that is added writes its own bytes and no other. -/
theorem Written.add {frames : List ReceivedPacket} {assembly assembly' : Assembly} {added : ℕ}
    (h : Written frames assembly) (htotal : assembly.totalLen = frame.totalLen)
    (hadd : assembly.add frame.offset frame.payload = some (added, assembly')) (wireLen : ℕ) :
    Written (frames ++ [frame])
      { assembly' with received := assembly'.received + added, wireLen := wireLen } := by
  obtain ⟨hpayload, hfits, ⟨-, rfl, rfl⟩ | ⟨hfree, rfl, rfl⟩⟩ := add_eq_some hadd
  · obtain ⟨hlength, hnonempty, hinside, hcounted, hbytes⟩ :=
      h.mono (List.subset_append_left frames [frame])
    exact ⟨hlength, hnonempty, hinside, hcounted, hbytes⟩
  have hpos := List.length_pos_iff.mpr hpayload
  have hroom : frame.offset + frame.payload.length ≤ assembly.data.length := by
    rw [h.length]
    exact hfits
  obtain ⟨hnormal, hcovered, -⟩ := add_spec h.nonempty
    (r := ⟨frame.offset, frame.offset + frame.payload.length⟩) (by simp only; omega)
  have hdisjoint := disjoint_of_fit hfree
  refine ⟨?_, hnormal.nonempty, ?_, ?_, ?_⟩
  · exact (length_overwrite hroom).trans h.length
  · simp only [hcovered]
    apply Finset.union_subset h.inside
    intro i hi
    rw [Finset.mem_Ico] at hi
    rw [Finset.mem_range]
    omega
  · simp only [hcovered]
    rw [Finset.card_union_of_disjoint hdisjoint, Nat.card_Ico, h.counted]
    omega
  · intro i hi
    simp only [hcovered, Finset.mem_union] at hi
    simp only [WrittenBy, length_overwrite hroom, getElem?_overwrite hroom]
    rcases hi with hold | hnew
    · obtain ⟨writer, hwriter, hbyte⟩ := h.bytes i hold
      have hnot := Finset.disjoint_left.mp hdisjoint hold
      rw [Finset.mem_Ico] at hnot
      refine ⟨writer, List.mem_append_left _ hwriter, ?_⟩
      rw [if_neg hnot]
      exact hbyte
    · rw [Finset.mem_Ico] at hnew
      refine ⟨frame, List.mem_append_right _ (List.mem_singleton_self _), ?_⟩
      rw [if_pos hnew]
      exact ⟨by rw [h.length, htotal], hnew.1, hnew.2, rfl⟩

/-- When the counter is full every byte has been written. -/
theorem Written.full {frames : List ReceivedPacket} {assembly : Assembly}
    (h : Written frames assembly) (hfull : assembly.totalLen ≤ assembly.received) :
    assembly.data.take assembly.totalLen = assembly.data ∧
      ∀ i < assembly.data.length, ∃ frame ∈ frames, WrittenBy frame assembly.data i := by
  have hall : covered assembly.ranges = Finset.range assembly.totalLen := by
    apply Finset.eq_of_subset_of_card_le h.inside
    rw [Finset.card_range, ← h.counted]
    exact hfull
  refine ⟨List.take_of_length_le h.length.le, fun i hi => h.bytes i ?_⟩
  rw [hall, Finset.mem_range, ← h.length]
  exact hi

/-! ## Whatever arrives -/

/-- The fragments with a sequence number. -/
def ownFrames (sequence : ℕ) (arrivals : List Arrival) : List ReceivedPacket :=
  (arrivals.map Prod.fst).filter fun frame =>
    frame.sequence = sequence ∧ frame.frameType = carrierTypeFragment

/-- The first frame of `later` opened an assembly, which is there ever since. -/
def OpenSince (before later : List Arrival) (sequence totalLen : ℕ) : Prop :=
  NotOpen (run .empty before) sequence totalLen ∧
    ∀ front, front <+: later → front ≠ [] → ∃ assembly,
      (run .empty (before ++ front)).lookup sequence = some assembly ∧ assembly.totalLen = totalLen

theorem run_concat (r : Reassembler) (arrivals : List Arrival) (arrival : Arrival) :
    run r (arrivals ++ [arrival]) = (accept arrival.2 (run r arrivals) arrival.1).2 := by
  simp [run]

theorem openSince_nil {before : List Arrival} {sequence totalLen : ℕ}
    (h : NotOpen (run .empty before) sequence totalLen) :
    OpenSince before [] sequence totalLen :=
  ⟨h, fun _ hfront hne => absurd (List.prefix_nil.mp hfront) hne⟩

theorem OpenSince.concat {before later : List Arrival} {sequence totalLen : ℕ}
    (h : OpenSince before later sequence totalLen) {arrival : Arrival} {assembly : Assembly}
    (hlookup : (run .empty (before ++ later ++ [arrival])).lookup sequence = some assembly)
    (htotal : assembly.totalLen = totalLen) :
    OpenSince before (later ++ [arrival]) sequence totalLen := by
  refine ⟨h.1, fun front hfront hne => ?_⟩
  rcases List.prefix_concat_iff.mp hfront with rfl | hfront
  · rw [← List.append_assoc]
    exact ⟨assembly, hlookup, htotal⟩
  · exact h.2 front hfront hne

theorem totalLen_add {assembly assembly' : Assembly} {start added : ℕ} {payload : Bytes}
    (h : assembly.add start payload = some (added, assembly')) :
    assembly'.totalLen = assembly.totalLen := by
  obtain ⟨-, -, ⟨-, -, rfl⟩ | ⟨-, -, rfl⟩⟩ := add_eq_some h <;> rfl

theorem ownFrames_concat (htype : packet.frameType = carrierTypeFragment)
    (arrivals : List Arrival) :
    ownFrames packet.sequence (arrivals ++ [(packet, stale)]) =
      ownFrames packet.sequence arrivals ++ [packet] := by
  unfold ownFrames
  simp [htype]

/-- An assembly that is there has been written by the fragments since it was opened. -/
def Sound (arrivals : List Arrival) (sequence : ℕ) (assembly : Assembly) : Prop :=
  ∃ before later, arrivals = before ++ later ∧
    OpenSince before later sequence assembly.totalLen ∧
    Written (ownFrames sequence later) assembly

/-- The assembly that a fragment goes to is sound, if those that are there are. -/
theorem sound_openAssembly {arrivals : List Arrival}
    (ih : ∀ sequence assembly, (run .empty arrivals).lookup sequence = some assembly →
      Sound arrivals sequence assembly) {assembly : Assembly}
    (hopen : openAssembly stale (run .empty arrivals) packet = (assembly, r)) :
    Sound arrivals packet.sequence assembly := by
  obtain ⟨-, -, hlookup | ⟨hnot, rfl⟩⟩ := openAssembly_spec hopen
  · exact ih _ _ hlookup
  · exact ⟨arrivals, [], (List.append_nil _).symm, openSince_nil hnot, written_fresh _ _⟩

/-- **Whatever arrives**, the bytes that an open assembly counts were written by fragments of
its packet, since it was opened. -/
theorem written_run (arrivals : List Arrival) : ∀ sequence assembly,
    (run .empty arrivals).lookup sequence = some assembly → Sound arrivals sequence assembly := by
  induction arrivals using List.reverseRecOn with
  | nil =>
    intro sequence assembly h
    cases h
  | append_singleton arrivals arrival ih =>
    obtain ⟨packet, stale⟩ := arrival
    intro sequence assembly h
    -- an assembly that the frame does not touch stays sound
    have hold : (run .empty arrivals).lookup sequence = some assembly →
        Sound (arrivals ++ [(packet, stale)]) sequence assembly := by
      intro hlookup
      obtain ⟨before, later, rfl, hsince, hwritten⟩ := ih sequence assembly hlookup
      refine ⟨before, later ++ [(packet, stale)], List.append_assoc _ _ _,
        hsince.concat h rfl, hwritten.mono ?_⟩
      unfold ownFrames
      rw [List.map_append, List.filter_append]
      exact List.subset_append_left _ _
    rw [run_concat] at h
    have haccept := accepted stale (run .empty arrivals) packet
    generalize hresult : accept stale (run .empty arrivals) packet = result at h haccept
    have hother : Keeps packet.sequence (run .empty arrivals) result.2 →
        sequence ≠ packet.sequence → Sound (arrivals ++ [(packet, stale)]) sequence assembly :=
      fun hkeeps hne => hold (hkeeps.1 sequence assembly hne h)
    have hgone : result.2.lookup packet.sequence = none → sequence ≠ packet.sequence := by
      rintro hlookup rfl
      cases hlookup.symm.trans h
    cases haccept with
    | whole htype => exact hold h
    | bad htype hbad => exact hold h
    | refused htype hvalid hopen hadd hkeeps hlookup => exact hother hkeeps (hgone hlookup)
    | complete htype hvalid hopen hadd hfull hkeeps hlookup => exact hother hkeeps (hgone hlookup)
    | pending htype hvalid hopen hadd hshort hkeeps hlookup =>
      by_cases hsequence : sequence = packet.sequence
      · subst hsequence
        obtain ⟨before, later, hbefore, hsince, hwritten⟩ := sound_openAssembly ih hopen
        have hafter : (run .empty (before ++ later ++ [(packet, stale)])).lookup
            packet.sequence = some assembly := by
          rw [← hbefore, run_concat, hresult]
          exact h
        rw [hlookup] at h
        cases h
        have htotal := totalLen_add hadd
        refine ⟨before, later ++ [(packet, stale)], ?_, ?_, ?_⟩
        · rw [hbefore, List.append_assoc]
        · rw [htotal]
          exact hsince.concat hafter htotal
        · rw [ownFrames_concat htype]
          exact hwritten.add (openAssembly_spec hopen).1 hadd _
      · exact hother hkeeps hsequence

/-- The bytes of a packet were written by its own fragments: those with its sequence number
and length, since its assembly was opened. -/
def FromOwnFragments (arrivals : List Arrival) (frame packet : ReceivedPacket) : Prop :=
  packet.sequence = frame.sequence ∧ ∃ before later, arrivals = before ++ later ∧
    OpenSince before later frame.sequence packet.payload.length ∧
    ∀ i < packet.payload.length, ∃ own ∈ ownFrames frame.sequence later ++ [frame],
      WrittenBy own packet.payload i

/-- **A completed packet has no byte of its own**, none from the buffer and none from
another packet. -/
theorem fromOwnFragments_of_accept (arrivals : List Arrival)
    (htype : frame.frameType = carrierTypeFragment)
    (h : (accept stale (run .empty arrivals) frame).1 = .packet packet) :
    FromOwnFragments arrivals frame packet := by
  have haccept := accepted stale (run .empty arrivals) frame
  generalize accept stale (run .empty arrivals) frame = result at h haccept
  cases haccept with
  | whole hwhole => exact absurd htype hwhole
  | bad => cases h
  | refused => cases h
  | pending => cases h
  | complete _ hvalid hopen hadd hfull _ _ =>
    cases h
    obtain ⟨before, later, hbefore, hsince, hwritten⟩ :=
      sound_openAssembly (written_run arrivals) hopen
    have hadded := hwritten.add (openAssembly_spec hopen).1 hadd 0
    obtain ⟨htake, hbytes⟩ := hadded.full hfull
    have hlength := hadded.length
    refine ⟨rfl, before, later, hbefore, ?_, ?_⟩
    · simp only [htake]
      rw [hlength, totalLen_add hadd]
      exact hsince
    · simp only [htake]
      exact hbytes

/-! ## The fragments of one packet -/

/-- A fragment of a packet, as it is read. -/
def fragment (pkt : Bytes) (sequence size i : ℕ) : ReceivedPacket :=
  ⟨piece pkt size i, (frameAt pkt sequence size i).wire.length, sequence, carrierTypeFragment,
    pkt.length, i * size⟩

/-- All of them. -/
def fragments (pkt : Bytes) (sequence size : ℕ) : Finset ReceivedPacket :=
  (Finset.range (pieceCount pkt size)).image (fragment pkt sequence size)

section RoundTrip

variable {pkt : Bytes} {sequence size : ℕ}

theorem fragment_injective (hsize : 0 < size) :
    Function.Injective (fragment pkt sequence size) := by
  intro i j h
  exact Nat.eq_of_mul_eq_mul_right hsize (congrArg ReceivedPacket.offset h)

variable {i : ℕ}

/-- The bytes of a fragment are those whose number divided by the size is its number. -/
theorem mem_Ico_piece (hsize : 0 < size) {j : ℕ} (hi : i < pieceCount pkt size) :
    j ∈ Finset.Ico (i * size) (i * size + (piece pkt size i).length) ↔
      j < pkt.length ∧ j / size = i := by
  rw [Finset.mem_Ico, length_piece, Nat.div_eq_iff hsize]
  omega

theorem div_lt_pieceCount (hsize : 0 < size) {j : ℕ} (hj : j < pkt.length) :
    j / size < pieceCount pkt size := by
  rw [lt_pieceCount hsize]
  exact (Nat.div_mul_le_self j size).trans_lt hj

theorem validFragment_fragment (hpkt : pkt.length ≤ carrierMaxPacket) (hsize : 0 < size)
    (hi : i < pieceCount pkt size) : validFragment (fragment pkt sequence size i) = true := by
  have hoffset := (lt_pieceCount hsize).mp hi
  have hlength := @length_piece pkt size i
  have hne : piece pkt size i ≠ [] := List.ne_nil_of_length_pos (by omega)
  have hinside : i * size + (piece pkt size i).length ≤ pkt.length := by omega
  simp only [validFragment, fragment, Bool.not_eq_true', Bool.or_eq_false_iff, beq_eq_false_iff_ne,
    List.isEmpty_eq_false_iff]
  exact ⟨⟨⟨by omega, decide_eq_false (not_lt.mpr hpkt)⟩, hne⟩, decide_eq_false (not_lt.mpr hinside)⟩

/-- An assembly holds some fragments of a packet. -/
structure Holds (pkt : Bytes) (sequence size : ℕ) (pending : Finset ReceivedPacket)
    (assembly : Assembly) : Prop where
  total : assembly.totalLen = pkt.length
  normal : Normal assembly.ranges
  covers : ∀ j, j ∈ covered assembly.ranges ↔
    j < pkt.length ∧ fragment pkt sequence size (j / size) ∈ pending
  untorn : ∀ frame ∈ pending, ∃ range ∈ assembly.ranges,
    range.start ≤ frame.offset ∧ frame.offset + frame.payload.length ≤ range.stop
  written : ∃ frames, (∀ frame ∈ frames, ∃ i, frame = fragment pkt sequence size i) ∧
    Written frames assembly

theorem holds_fresh (stale : ℕ → UInt8) :
    Holds pkt sequence size ∅ (freshAssembly stale pkt.length) :=
  ⟨rfl, normal_nil, by simp [freshAssembly, covered], by simp, [], by simp, written_fresh _ _⟩

variable {pending : Finset ReceivedPacket}

/-- One more fragment, or one that is there already. -/
theorem Holds.add (hsize : 0 < size) {assembly : Assembly}
    (h : Holds pkt sequence size pending assembly) (hi : i < pieceCount pkt size) :
    ∃ added assembly', assembly.add (i * size) (piece pkt size i) = some (added, assembly') ∧
      ∀ wireLen, Holds pkt sequence size (insert (fragment pkt sequence size i) pending)
        { assembly' with received := assembly'.received + added, wireLen := wireLen } := by
  have hoffset := (lt_pieceCount hsize).mp hi
  have hlength := @length_piece pkt size i
  have hne : piece pkt size i ≠ [] := List.ne_nil_of_length_pos (by omega)
  have hguard : ¬(piece pkt size i = [] ∨
      i * size + (piece pkt size i).length > assembly.totalLen) := by
    rw [h.total, not_or]
    exact ⟨hne, by omega⟩
  obtain ⟨frames, hframes, hwritten⟩ := h.written
  have hadded : ∀ added assembly', assembly.add (i * size) (piece pkt size i) =
      some (added, assembly') → ∀ wireLen, ∃ frames,
        (∀ frame ∈ frames, ∃ i, frame = fragment pkt sequence size i) ∧
          Written frames
            { assembly' with received := assembly'.received + added, wireLen := wireLen } := by
    intro added assembly' hadd wireLen
    exact ⟨frames ++ [fragment pkt sequence size i], List.forall_mem_append.mpr
      ⟨hframes, List.forall_mem_singleton.mpr ⟨i, rfl⟩⟩, hwritten.add h.total hadd wireLen⟩
  by_cases hthere : fragment pkt sequence size i ∈ pending
  · obtain ⟨range, hrange, hfrom, hto⟩ := h.untorn _ hthere
    have hfit : fit (i * size) (i * size + (piece pkt size i).length) assembly.ranges =
        .contained := fit_of_inside (by omega) h.normal hrange hfrom hto
    have hadd : assembly.add (i * size) (piece pkt size i) = some (0, assembly) := by
      simp only [Assembly.add, if_neg hguard, hfit]
    refine ⟨0, assembly, hadd, fun wireLen => ?_⟩
    rw [Finset.insert_eq_of_mem hthere]
    exact ⟨h.total, h.normal, h.covers, h.untorn, hadded _ _ hadd wireLen⟩
  · have hdisjoint : Disjoint (covered assembly.ranges)
        (Finset.Ico (i * size) (i * size + (piece pkt size i).length)) := by
      rw [Finset.disjoint_left]
      intro j hj hmem
      obtain ⟨-, hdiv⟩ := (mem_Ico_piece hsize hi).mp hmem
      have hin := ((h.covers j).mp hj).2
      rw [hdiv] at hin
      exact hthere hin
    have hfit := fit_of_disjoint (by omega) h.normal.nonempty hdisjoint
    have hadd : assembly.add (i * size) (piece pkt size i) = some ((piece pkt size i).length,
        { assembly with
          data := overwrite assembly.data (i * size) (piece pkt size i)
          ranges := RangeSet.add assembly.ranges
            ⟨i * size, i * size + (piece pkt size i).length⟩ }) := by
      simp only [Assembly.add, if_neg hguard, hfit]
    obtain ⟨hnormal, hcovered, hwhole⟩ := add_spec h.normal.nonempty
      (r := ⟨i * size, i * size + (piece pkt size i).length⟩) (by simp only; omega)
    refine ⟨_, _, hadd, fun wireLen => ⟨h.total, hnormal, fun j => ?_, fun frame hframe => ?_,
      hadded _ _ hadd wireLen⟩⟩
    · simp only [hcovered, Finset.mem_union, h.covers, mem_Ico_piece hsize hi, Finset.mem_insert,
        (fragment_injective hsize).eq_iff]
      tauto
    · rcases Finset.mem_insert.mp hframe with rfl | hframe
      · exact hwhole _ (.inr rfl)
      · obtain ⟨range, hrange, hfrom, hto⟩ := h.untorn frame hframe
        obtain ⟨range', hrange', hfrom', hto'⟩ := hwhole range (.inl hrange)
        exact ⟨range', hrange', hfrom'.trans hfrom, hto.trans hto'⟩

/-- The counter is full exactly when all fragments are there, and then the data is the
packet. -/
theorem Holds.full (hsize : 0 < size) {assembly : Assembly}
    (h : Holds pkt sequence size pending assembly)
    (hpending : pending ⊆ fragments pkt sequence size) :
    (assembly.totalLen ≤ assembly.received ↔ pending = fragments pkt sequence size) ∧
      (assembly.totalLen ≤ assembly.received → assembly.data.take assembly.totalLen = pkt) := by
  obtain ⟨frames, hframes, hwritten⟩ := h.written
  have hsub : covered assembly.ranges ⊆ Finset.range pkt.length := by
    rw [← h.total]
    exact hwritten.inside
  have hcount : assembly.totalLen ≤ assembly.received ↔
      covered assembly.ranges = Finset.range pkt.length := by
    rw [hwritten.counted, h.total]
    constructor
    · intro hle
      exact Finset.eq_of_subset_of_card_le hsub (by rwa [Finset.card_range])
    · intro heq
      rw [heq, Finset.card_range]
  refine ⟨hcount.trans ⟨fun heq => ?_, fun heq => ?_⟩, fun hfull => ?_⟩
  · apply hpending.antisymm
    intro frame hframe
    obtain ⟨i, hi, rfl⟩ := Finset.mem_image.mp hframe
    have hoffset := (lt_pieceCount hsize).mp (Finset.mem_range.mp hi)
    have hfirst := (h.covers (i * size)).mp (heq ▸ Finset.mem_range.mpr hoffset)
    rw [Nat.mul_div_cancel i hsize] at hfirst
    exact hfirst.2
  · apply hsub.antisymm
    intro j hj
    rw [Finset.mem_range] at hj
    rw [h.covers, heq]
    exact ⟨hj, Finset.mem_image_of_mem _ (Finset.mem_range.mpr (div_lt_pieceCount hsize hj))⟩
  · obtain ⟨htake, hbytes⟩ := hwritten.full hfull
    rw [htake]
    apply List.ext_getElem?
    intro j
    have hlen : assembly.data.length = pkt.length := hwritten.length.trans h.total
    by_cases hj : j < assembly.data.length
    · obtain ⟨frame, hframe, -, hfrom, hto, hbyte⟩ := hbytes j hj
      obtain ⟨i, rfl⟩ := hframes frame hframe
      simp only [fragment] at hfrom hto hbyte
      rw [length_piece] at hto
      rw [hbyte, piece, List.getElem?_take_of_lt (by omega), List.getElem?_drop]
      congr 1
      omega
    · rw [List.getElem?_eq_none (by omega), List.getElem?_eq_none (by omega)]

/-- The reassembler has these fragments of the packet. -/
def Collects (pkt : Bytes) (sequence size : ℕ) (pending : Finset ReceivedPacket)
    (r : Reassembler) : Prop :=
  (r.lookup sequence = none → pending = ∅) ∧
    ∀ assembly, r.lookup sequence = some assembly → Holds pkt sequence size pending assembly

theorem collects_of_lookup {assembly : Assembly} (hlookup : r.lookup sequence = some assembly)
    (h : Holds pkt sequence size pending assembly) : Collects pkt sequence size pending r := by
  refine ⟨fun hnone => ?_, fun found hfound => ?_⟩
  · cases hlookup.symm.trans hnone
  · cases hlookup.symm.trans hfound
    exact h

theorem collects_empty (hlookup : r.lookup sequence = none) : Collects pkt sequence size ∅ r := by
  refine ⟨fun _ => rfl, fun found hfound => ?_⟩
  cases hlookup.symm.trans hfound

theorem Collects.openAssembly {assembly : Assembly} (h : Collects pkt sequence size pending r)
    (hopen : openAssembly stale r (fragment pkt sequence size i) = (assembly, r')) :
    Holds pkt sequence size pending assembly := by
  obtain ⟨-, -, hlookup | ⟨hnot, rfl⟩⟩ := openAssembly_spec hopen
  · exact h.2 assembly hlookup
  · have hnone : r.lookup sequence = none := by
      exact Option.eq_none_iff_forall_ne_some.mpr fun found hfound =>
        hnot found hfound (h.2 found hfound).total
    rw [h.1 hnone]
    exact holds_fresh stale

/-- The packets with a sequence number among those returned. -/
def delivered (sequence : ℕ) (outcomes : List Outcome) : List Bytes :=
  outcomes.filterMap fun outcome =>
    match outcome with
    | .packet packet => if packet.sequence = sequence then some packet.payload else none
    | _ => none

/-- A fragment of the packet is collected; the last one completes it. -/
theorem Collects.own (hpkt : pkt.length ≤ carrierMaxPacket) (hsize : 0 < size)
    (h : Collects pkt sequence size pending r) (hpending : pending ⊆ fragments pkt sequence size)
    (stale : ℕ → UInt8) (hframe : frame ∈ fragments pkt sequence size) :
    Collects pkt sequence size
        (Collector.next (fragments pkt sequence size) pending frame) (accept stale r frame).2 ∧
      delivered sequence [(accept stale r frame).1] =
        if insert frame pending = fragments pkt sequence size then [pkt] else [] := by
  obtain ⟨i, hi, rfl⟩ := Finset.mem_image.mp hframe
  rw [Finset.mem_range] at hi
  have hsub := Finset.insert_subset hframe hpending
  have haccept := accepted stale r (fragment pkt sequence size i)
  generalize accept stale r (fragment pkt sequence size i) = result at haccept
  unfold Collector.next
  cases haccept with
  | whole hwhole => exact absurd rfl hwhole
  | bad _ hbad =>
    rw [validFragment_fragment hpkt hsize hi] at hbad
    cases hbad
  | refused _ _ hopen hadd _ _ =>
    obtain ⟨_, _, hsome, -⟩ := (h.openAssembly hopen).add hsize hi
    cases hsome.symm.trans hadd
  | pending _ _ hopen hadd hshort _ hlookup =>
    obtain ⟨_, _, hsome, hholds⟩ := (h.openAssembly hopen).add hsize hi
    cases hsome.symm.trans hadd
    have hnot := mt ((hholds 0).full hsize hsub).1.mpr (not_le.mpr hshort)
    rw [if_neg hnot, if_neg hnot]
    exact ⟨collects_of_lookup hlookup (hholds _), rfl⟩
  | complete _ _ hopen hadd hfull _ hlookup =>
    obtain ⟨_, _, hsome, hholds⟩ := (h.openAssembly hopen).add hsize hi
    cases hsome.symm.trans hadd
    obtain ⟨hiff, hdata⟩ := (hholds 0).full hsize hsub
    rw [if_pos (hiff.mp hfull), if_pos (hiff.mp hfull)]
    refine ⟨collects_empty hlookup, ?_⟩
    simp only [delivered, List.filterMap_cons, List.filterMap_nil, fragment, if_true]
    rw [hdata hfull]

/-- A frame with another number changes nothing for this packet. -/
theorem Collects.other (h : Collects pkt sequence size pending r)
    (hroom : r.opened < carrierReassemblyMaxPackets) (stale : ℕ → UInt8)
    (hother : frame.sequence ≠ sequence) :
    Collects pkt sequence size pending (accept stale r frame).2 ∧
      delivered sequence [(accept stale r frame).1] = [] := by
  have haccept := accepted stale r frame
  generalize accept stale r frame = result at haccept
  have hkeep : Keeps frame.sequence r result.2 → Collects pkt sequence size pending result.2 := by
    intro hkeeps
    unfold Collects
    rw [hkeeps.2 hroom sequence hother.symm]
    exact h
  cases haccept with
  | whole => exact ⟨h, by simp [delivered, hother]⟩
  | bad => exact ⟨h, rfl⟩
  | refused _ _ _ _ hkeeps _ => exact ⟨hkeep hkeeps, rfl⟩
  | pending _ _ _ _ _ hkeeps _ => exact ⟨hkeep hkeeps, rfl⟩
  | complete _ _ _ _ _ hkeeps _ => exact ⟨hkeep hkeeps, by simp [delivered, hother]⟩

/-- Fewer assemblies than the limit are open whenever a frame arrives. -/
def Roomy (r : Reassembler) (arrivals : List Arrival) : Prop :=
  ∀ before, before <+: arrivals → (run r before).opened < carrierReassemblyMaxPackets

/-- The frames with a sequence number. -/
def parts (sequence : ℕ) (arrivals : List Arrival) : List ReceivedPacket :=
  (arrivals.map Prod.fst).filter fun frame => frame.sequence = sequence

theorem Roomy.tail {arrival : Arrival} {arrivals : List Arrival}
    (h : Roomy r (arrival :: arrivals)) : Roomy (accept arrival.2 r arrival.1).2 arrivals :=
  fun before hbefore => h (arrival :: before) (List.cons_prefix_cons.mpr ⟨rfl, hbefore⟩)

theorem delivered_cons (sequence : ℕ) (outcome : Outcome) (rest : List Outcome) :
    delivered sequence (outcome :: rest) =
      delivered sequence [outcome] ++ delivered sequence rest := by
  unfold delivered
  rw [← List.filterMap_append]
  rfl

/-- **The packet comes back** whenever its fragments are complete, and only then. -/
theorem deliveries_run (hpkt : pkt.length ≤ carrierMaxPacket) (hsize : 0 < size)
    (arrivals : List Arrival) (h : Collects pkt sequence size pending r)
    (hpending : pending ⊆ fragments pkt sequence size) (hroomy : Roomy r arrivals)
    (hown : ∀ frame ∈ parts sequence arrivals, frame ∈ fragments pkt sequence size) :
    delivered sequence (outcomes r arrivals) = List.replicate
      (Collector.rounds (fragments pkt sequence size) pending (parts sequence arrivals)) pkt := by
  induction arrivals generalizing r pending with
  | nil => rfl
  | cons arrival arrivals ih =>
    rw [outcomes, delivered_cons]
    unfold parts at hown ⊢
    rw [List.map_cons] at hown ⊢
    by_cases hsequence : arrival.1.sequence = sequence
    · rw [List.filter_cons_of_pos (by simpa using hsequence)] at hown ⊢
      have hframe := hown _ List.mem_cons_self
      obtain ⟨hnext, hout⟩ := h.own hpkt hsize hpending arrival.2 hframe
      have hrest := ih hnext (Collector.next_subset hpending hframe) hroomy.tail
        fun frame hmem => hown frame (List.mem_cons_of_mem _ hmem)
      rw [hout, hrest, Collector.rounds, List.replicate_add]
      congr 1
      split_ifs <;> rfl
    · rw [List.filter_cons_of_neg (by simpa using hsequence)] at hown ⊢
      obtain ⟨hnext, hout⟩ := h.other (hroomy [] List.nil_prefix) arrival.2 hsequence
      rw [hout, ih hnext hpending hroomy.tail hown, List.nil_append]
      rfl

end RoundTrip

/-! ## The carrier -/

/-- The frames of a packet, for an MTU and a mode. -/
def carrierFragments (pkt : Bytes) (sequence : UInt64) (mtu : ℤ) (kernelFragment : Bool) :
    Finset ReceivedPacket :=
  fragments pkt sequence.toNat (carrierMaxFragmentPayloadForMTUWithMode mtu kernelFragment).toNat

end IPTunnel

/-
# Owners of prefixes

The trie that tells whether a prefix overlaps one of another owner (`prefixOwnerIndex` in
`internal/daemon/membership.go`).  A node keeps one owner and a mark that there are others, once
for the prefix that ends there and once for all prefixes from there on.

* `Trie.conflicts_add` : what one prefix adds to the answers;
* `overlaps_iff_path` : prefixes overlap if the path of one starts that of the other;
* `prefix_owner_conflicts` : a conflict is an overlapping prefix that another owner added.
-/
import TrustIX.Netip

namespace PrefixOwners

open Netip

/-! ## The trie -/

/-- The owner that was recorded first, and whether another one was recorded after it. -/
inductive Mark where
  | unset
  | set (first : String) (mixed : Bool)

def Mark.record : Mark → String → Mark
  | .unset, owner => .set owner false
  | .set first mixed, owner => .set first (if first ≠ owner then true else mixed)

def Mark.hasDifferentOwner : Mark → String → Bool
  | .unset, _ => false
  | .set first mixed, owner => mixed || first ≠ owner

/-- The nodes; `absent` is the child index zero. -/
inductive Trie where
  | absent
  | node (terminal subtree : Mark) (zero one : Trie)

/-- Marks and children; those of a node that is appended are unset. -/
def Trie.fields : Trie → Mark × Mark × Trie × Trie
  | .absent => (.unset, .unset, .absent, .absent)
  | .node terminal subtree zero one => (terminal, subtree, zero, one)

/-- The loop of `Add` from a node on. -/
def Trie.add (owner : String) : List Bool → Trie → Trie
  | [], t =>
    let (terminal, subtree, zero, one) := t.fields
    .node (terminal.record owner) (subtree.record owner) zero one
  | bit :: rest, t =>
    let (terminal, subtree, zero, one) := t.fields
    if bit then .node terminal (subtree.record owner) zero (one.add owner rest)
    else .node terminal (subtree.record owner) (zero.add owner rest) one

/-- The loop of `Conflicts` from a node on. -/
def Trie.conflicts (owner : String) : List Bool → Trie → Bool
  | _, .absent => false
  | [], .node terminal subtree _ _ =>
    terminal.hasDifferentOwner owner || subtree.hasDifferentOwner owner
  | bit :: rest, .node terminal _ zero one =>
    terminal.hasDifferentOwner owner || (if bit then one else zero).conflicts owner rest

/-- `prefixBit` for all bits of a prefix. -/
def path {w : ℕ} (block : Block w) : List Bool := (List.range block.bits).map block.addr.getMsbD

/-- The two roots. -/
structure Index where
  v4 : Trie
  v6 : Trie

def newPrefixOwnerIndex : Index :=
  ⟨.node .unset .unset .absent .absent, .node .unset .unset .absent .absent⟩

def Index.add (index : Index) (owner : String) : Prefix → Index
  | .invalid => index
  | .v4 block => { index with v4 := index.v4.add owner (path block.masked) }
  | .v6 block => { index with v6 := index.v6.add owner (path block.masked) }

def Index.conflicts (index : Index) (owner : String) : Prefix → Bool
  | .invalid => false
  | .v4 block => index.v4.conflicts owner (path block.masked)
  | .v6 block => index.v6.conflicts owner (path block.masked)

/-! ## What is recorded -/

variable {owner other : String}

theorem Mark.hasDifferentOwner_record (m : Mark) :
    (m.record other).hasDifferentOwner owner = true ↔
      m.hasDifferentOwner owner = true ∨ other ≠ owner := by
  cases m with
  | unset => simp [record, hasDifferentOwner]
  | set first mixed =>
    by_cases hfirst : first = other
    · simp [record, hasDifferentOwner, hfirst]
    · -- two owners: each of them differs from one of the two
      have hsome : first ≠ owner ∨ other ≠ owner := by
        rw [← not_and_or]
        rintro ⟨rfl, rfl⟩
        exact hfirst rfl
      simpa [record, hasDifferentOwner, hfirst, or_assoc] using Or.inr hsome

@[simp] theorem Trie.fields_node (terminal subtree : Mark) (zero one : Trie) :
    (node terminal subtree zero one).fields = (terminal, subtree, zero, one) := rfl

@[simp] theorem Trie.conflicts_absent (q : List Bool) : absent.conflicts owner q = false := by
  cases q <;> rfl

/-- An absent node answers as one that was just appended. -/
theorem Trie.conflicts_nil (t : Trie) : t.conflicts owner [] =
    (t.fields.1.hasDifferentOwner owner || t.fields.2.1.hasDifferentOwner owner) := by
  cases t <;> rfl

theorem Trie.conflicts_cons (b : Bool) (q : List Bool) (t : Trie) : t.conflicts owner (b :: q) =
    (t.fields.1.hasDifferentOwner owner ||
      (if b then t.fields.2.2.2 else t.fields.2.2.1).conflicts owner q) := by
  cases t with
  | absent => simp [fields, Mark.hasDifferentOwner]
  | node => rfl

/-- **One prefix** is in conflict with the queries of others above, at and below its node. -/
theorem Trie.conflicts_add (p q : List Bool) (t : Trie) :
    (t.add other p).conflicts owner q = true ↔
      t.conflicts owner q = true ∨ other ≠ owner ∧ (p <+: q ∨ q <+: p) := by
  induction p generalizing q t with
  | nil =>
    cases q with
    | nil =>
      simp only [add, conflicts_nil, fields_node, Bool.or_eq_true, Mark.hasDifferentOwner_record,
        List.prefix_rfl, or_self, and_true]
      rw [or_or_or_comm, or_self]
    | cons c q =>
      simp only [add, conflicts_cons, fields_node, Bool.or_eq_true, Mark.hasDifferentOwner_record,
        List.nil_prefix, true_or, and_true]
      exact or_right_comm
  | cons b p ih =>
    cases q with
    | nil =>
      cases b <;> simp [add, conflicts_nil, Mark.hasDifferentOwner_record, or_assoc]
    | cons c q =>
      cases b <;> cases c <;> simp [add, conflicts_cons, ih, or_assoc]

/-! ## Paths -/

variable {w : ℕ} {a b : Block w}

/-- A block contains the addresses that agree with it in its leading bits. -/
theorem contains_iff_getMsbD {x : BitVec w} :
    a.contains x = true ↔ ∀ i < a.bits, x.getMsbD i = a.addr.getMsbD i := by
  have hbound := a.bound
  have hbit : ∀ (y : BitVec w) (i : ℕ), (y.toNat / a.size).testBit i = y.getLsbD (i + (w - a.bits)) := by
    intro y i
    rw [Block.size, Nat.testBit_div_two_pow, BitVec.testBit_toNat]
  have hmsb : ∀ (y : BitVec w) (i : ℕ), i < a.bits →
      (y.toNat / a.size).testBit (a.bits - 1 - i) = y.getMsbD i := by
    intro y i hi
    rw [hbit, BitVec.getMsbD, decide_eq_true (by omega : i < w), Bool.true_and]
    congr 1
    omega
  rw [Block.contains_iff]
  constructor
  · intro h i hi
    rw [← hmsb x i hi, h, hmsb _ i hi]
  · intro h
    apply Nat.eq_of_testBit_eq
    intro i
    by_cases hi : i < a.bits
    · have hsame := h (a.bits - 1 - i) (by omega)
      rwa [← hmsb x _ (by omega), ← hmsb _ _ (by omega),
        show a.bits - 1 - (a.bits - 1 - i) = i by omega] at hsame
    · rw [hbit, hbit, BitVec.getLsbD_of_ge _ _ (by omega), BitVec.getLsbD_of_ge _ _ (by omega)]

theorem path_masked : path a.masked = path a := by
  refine List.map_congr_left fun i hi => ?_
  have hself : a.contains a.masked.addr = true := by
    rw [← Block.contains_masked]
    exact Block.contains_addr _
  exact contains_iff_getMsbD.mp hself i (List.mem_range.mp hi)

theorem isPrefix_path : path a <+: path b ↔ a.bits ≤ b.bits ∧ a.contains b.addr = true := by
  rw [contains_iff_getMsbD, List.prefix_iff_getElem]
  simp only [path, List.length_map, List.length_range, List.getElem_map, List.getElem_range]
  constructor
  · rintro ⟨hle, hbits⟩
    exact ⟨hle, fun i hi => (hbits i hi).symm⟩
  · rintro ⟨hle, hbits⟩
    exact ⟨hle, fun i hi => (hbits i hi).symm⟩

/-- **Prefixes overlap** if the path of one starts that of the other. -/
theorem overlaps_iff_path : a.overlaps b = true ↔ path a <+: path b ∨ path b <+: path a := by
  rw [isPrefix_path, isPrefix_path, Block.overlaps, Bool.or_eq_true]
  simp only [contains_iff_getMsbD]
  rcases Nat.le_total a.bits b.bits with hle | hle
  · refine ⟨fun h => .inl ⟨hle, fun i hi => ?_⟩, fun h => h.imp And.right And.right⟩
    rcases h with h | h
    · exact h i hi
    · exact (h i (hi.trans_le hle)).symm
  · refine ⟨fun h => .inr ⟨hle, fun i hi => ?_⟩, fun h => h.imp And.right And.right⟩
    rcases h with h | h
    · exact (h i (hi.trans_le hle)).symm
    · exact h i hi

/-! ## The index -/

theorem Index.conflicts_add (index : Index) (p q : Prefix) :
    (index.add other p).conflicts owner q = true ↔
      index.conflicts owner q = true ∨ other ≠ owner ∧ ¬Prefix.Disjoint p q := by
  rw [Prefix.disjoint_iff, Bool.not_eq_false]
  cases p <;> cases q <;>
    simp [add, conflicts, Prefix.overlaps, Prefix.isValid, Prefix.contains, Prefix.addr,
      Trie.conflicts_add, path_masked, ← overlaps_iff_path, Block.overlaps]

/-- **A conflict is an overlapping prefix of another owner**: whatever prefixes were added, a query
is in conflict exactly if it shares an address with one of them that another owner added. -/
theorem prefix_owner_conflicts (calls : List (String × Prefix)) (owner : String) (p : Prefix) :
    (calls.foldl (fun index call => index.add call.1 call.2) newPrefixOwnerIndex).conflicts
        owner p = true ↔
      ∃ call ∈ calls, call.1 ≠ owner ∧ ¬Prefix.Disjoint call.2 p := by
  -- from any index on, the calls add what each of them adds
  have hfrom : ∀ index : Index, (calls.foldl (fun index call => index.add call.1 call.2)
      index).conflicts owner p = true ↔ index.conflicts owner p = true ∨
        ∃ call ∈ calls, call.1 ≠ owner ∧ ¬Prefix.Disjoint call.2 p := by
    induction calls with
    | nil => simp
    | cons call rest ih =>
      intro index
      rw [List.foldl_cons, ih, Index.conflicts_add, List.exists_mem_cons_iff, or_assoc]
  have hroot : ∀ q, (Trie.node .unset .unset .absent .absent).conflicts owner q = false := by
    intro q
    cases q with
    | nil => rfl
    | cons c q => simp [Trie.conflicts, Mark.hasDifferentOwner]
  have hnew : newPrefixOwnerIndex.conflicts owner p = false := by
    cases p with
    | invalid => rfl
    | v4 block => exact hroot _
    | v6 block => exact hroot _
  rw [hfrom, hnew]
  simp

end PrefixOwners

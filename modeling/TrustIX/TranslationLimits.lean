/-
# The bound of the translation table

Bindings expire when they have been idle for the timeout, and the one that was used longest ago
makes room for a new one (`internal/daemon/nat.go`).  When a binding was created or hit is recorded
here beside the table, with the clock.

* `Leaves.evictOldest` : what an eviction removes was used no later than what it leaves;
* `translation_table_bound` : over every run the table is within its limit, idle bindings are not
  found, and only those that were used longest ago are evicted.
-/
import TrustIX.AddressTranslation
import TrustIX.Runs

namespace Translation

open Runs

/-! ## Operations -/

/-- Limits that are not positive are the defaults. -/
def limitOrDefault (maxBindings : ℤ) : ℕ :=
  if maxBindings ≤ 0 then natDefaultMaxBindings else maxBindings.toNat

def ttlOrDefault (ttl : ℤ) : ℕ := if ttl ≤ 0 then natBindingTTL else ttl.toNat

def newNATTableWithLimitAndTTL (maxBindings ttl : ℤ) : Bindings :=
  ⟨∅, limitOrDefault maxBindings, ttlOrDefault ttl⟩

/-- A table, the last reading of the clock, and when each key was created or hit last. -/
structure Usage where
  table : Bindings
  clock : ℕ
  used : Key → ℕ

/-- What is done with the table at a reading of the clock. -/
inductive Operation where
  | upsert (key : Key) (original : BitVec 32) (now : ℕ)
  | lookup (key : Key) (now : ℕ)
  | prune (now : ℕ)
  | configure (maxBindings ttl : ℤ) (now : ℕ)

def Operation.now : Operation → ℕ
  | .upsert _ _ now | .lookup _ now | .prune now | .configure _ _ now => now

namespace Usage

def operate (s : Usage) : Operation → Usage
  | .upsert key original now =>
    ⟨s.table.upsert key original now, now, Function.update s.used key now⟩
  | .lookup key now =>
    match s.table.lookup key now with
    | (none, table) => ⟨table, now, s.used⟩
    | (some _, table) => ⟨table, now, Function.update s.used key now⟩
  | .prune now => ⟨s.table.prune now, now, s.used⟩
  | .configure maxBindings ttl now =>
    ⟨s.table.configure (limitOrDefault maxBindings) (ttlOrDefault ttl) now, now, s.used⟩

/-- The clock does not go back. -/
def step (s : Usage) (op : Operation) : Option Usage :=
  if s.clock ≤ op.now then some (s.operate op) else none

/-- A new table; no reading of the clock is the zero time. -/
def start (maxBindings ttl : ℤ) : Usage := ⟨newNATTableWithLimitAndTTL maxBindings ttl, 1, fun _ => 0⟩

end Usage

/-! ## Evictions -/

/-- The oldest of some bindings is one of them. -/
theorem foldl_older (entries : List ((_ : Key) × Binding)) : ∀ first,
    ∃ oldest ∈ first :: entries, entries.foldl Bindings.older (some first) = some oldest ∧
      ∀ e ∈ first :: entries, oldest.2.lastSeen ≤ e.2.lastSeen := by
  induction entries with
  | nil => exact fun first => ⟨first, by simp, rfl, by simp⟩
  | cons e rest ih =>
    intro first
    by_cases holder : e.2.lastSeen < first.2.lastSeen ∨
        (e.2.lastSeen = first.2.lastSeen ∧ e.2.createdAt < first.2.createdAt)
    · obtain ⟨oldest, hmem, hfold, hle⟩ := ih e
      refine ⟨oldest, List.mem_cons_of_mem _ hmem, ?_, ?_⟩
      · rw [List.foldl_cons, Bindings.older, if_pos holder, hfold]
      · have := hle e (by simp)
        rintro other (_ | ⟨_, hother⟩)
        · omega
        · exact hle other hother
    · obtain ⟨oldest, hmem, hfold, hle⟩ := ih first
      have hsub : first :: rest ⊆ first :: e :: rest := by simp
      refine ⟨oldest, hsub hmem, ?_, ?_⟩
      · rw [List.foldl_cons, Bindings.older, if_neg holder, hfold]
      · have := hle first (by simp)
        rintro other (_ | ⟨_, _ | ⟨_, hother⟩⟩)
        · exact this
        · omega
        · exact hle other (List.mem_cons_of_mem _ hother)

/-- An eviction removes a binding than which none was seen earlier, if there is one. -/
theorem evictOldest_spec (t : Bindings) : (t.bindings.size = 0 ∧ t.evictOldest = t) ∨
    ∃ key b, t.bindings.lookup key = some b ∧
      (∀ k c, t.bindings.lookup k = some c → b.lastSeen ≤ c.lastSeen) ∧
      t.evictOldest = { t with bindings := t.bindings.erase key } := by
  unfold Bindings.evictOldest
  cases hentries : t.bindings.entries with
  | nil =>
    refine .inl ⟨?_, rfl⟩
    rw [Table.size, AList.keys, hentries]
    rfl
  | cons first rest =>
    obtain ⟨⟨key, b⟩, hmem, hfold, hle⟩ := foldl_older rest first
    refine .inr ⟨key, b, ?_, fun k c hc => ?_, ?_⟩
    · exact AList.mem_lookup_iff.mpr (hentries ▸ hmem)
    · exact hle ⟨k, c⟩ (hentries ▸ AList.mem_lookup_iff.mp hc)
    · rw [List.foldl_cons, show Bindings.older none first = some first from rfl, hfold]

theorem limits_evictOldest (t : Bindings) :
    t.evictOldest.maxBindings = t.maxBindings ∧ t.evictOldest.ttl = t.ttl := by
  unfold Bindings.evictOldest
  split <;> exact ⟨rfl, rfl⟩

theorem size_evictOldest (t : Bindings) : t.evictOldest.bindings.size = t.bindings.size - 1 := by
  rcases evictOldest_spec t with ⟨hzero, heq⟩ | ⟨key, b, hb, -, heq⟩
  · rw [heq, hzero]
  · rw [heq, Table.size_erase_of_mem (Table.mem_of_lookup hb)]

/-! ## What operations leave -/

/-- Bindings record when they were used last, and expire a timeout later. -/
def Timed (s : Usage) : Prop :=
  ∀ key b, s.table.bindings.lookup key = some b → b.lastSeen = s.used key ∧ 0 < b.lastSeen ∧
    b.lastSeen ≤ s.clock ∧ b.expiresAt = b.lastSeen + s.table.ttl

/-- What was removed was idle for the timeout, or nothing that is left was used earlier. -/
def Removal (s s' : Usage) : Prop :=
  ∀ key ∈ s.table.bindings, key ∉ s'.table.bindings →
    s.used key + s'.table.ttl ≤ s'.clock ∨ ∀ other ∈ s'.table.bindings, s.used key ≤ s'.used other

structure Leaves (s s' : Usage) : Prop where
  timed : Timed s'
  removal : Removal s s'

variable {s s' : Usage} {now ttl : ℕ} {key : Key}

/-- A table in which bindings that are idle for a timeout are dropped. -/
theorem leaves_update (h : Timed s) (hnow : s.clock ≤ now) {f : Key → Binding → Option Binding}
    (hf : ∀ key b, s.table.bindings.lookup key = some b → f key b =
      if now < b.lastSeen + ttl then some { b with expiresAt := b.lastSeen + ttl } else none)
    (maxBindings : ℕ) : Leaves s ⟨⟨s.table.bindings.update f, maxBindings, ttl⟩, now, s.used⟩ := by
  refine ⟨fun key b hb => ?_, fun key hkey hgone => .inl ?_⟩
  · obtain ⟨old, hold, hb⟩ := Option.bind_eq_some_iff.mp ((Table.lookup_update _ _ _).symm.trans hb)
    rw [hf key old hold] at hb
    split_ifs at hb
    cases hb
    obtain ⟨hused, hpos, hle, -⟩ := h key old hold
    exact ⟨hused, hpos, hle.trans hnow, rfl⟩
  · obtain ⟨old, hold⟩ := Table.exists_of_mem hkey
    show s.used key + ttl ≤ now
    rw [← (h key old hold).1]
    by_contra hfresh
    rw [← AList.lookup_eq_none, Table.lookup_update, hold, Option.bind_some, hf key old hold,
      if_pos (by omega)] at hgone
    cases hgone

theorem leaves_prune (h : Timed s) (hnow : s.clock ≤ now) :
    Leaves s ⟨s.table.prune now, now, s.used⟩ := by
  refine leaves_update h hnow (fun key b hb => ?_) _
  obtain ⟨-, hpos, -, hexpires⟩ := h key b hb
  rw [← hexpires]
  by_cases hfresh : now < b.expiresAt
  · rw [if_pos hfresh, if_neg (by tauto)]
  · rw [if_neg hfresh, if_pos ⟨by omega, hfresh⟩]

theorem Leaves.evictOldest {t : Bindings} (h : Leaves s ⟨t, now, s.used⟩) :
    Leaves s ⟨t.evictOldest, now, s.used⟩ := by
  rcases evictOldest_spec t with ⟨-, heq⟩ | ⟨key, b, hb, hle, heq⟩
  · rw [heq]
    exact h
  · have hlookup : ∀ k c, t.evictOldest.bindings.lookup k = some c → t.bindings.lookup k = some c := by
      intro k c hc
      rw [heq, Table.lookup_erase_eq] at hc
      split_ifs at hc
      exact hc
    refine ⟨fun k c hc => ?_, fun gone hgone hnot => ?_⟩
    · show _ ∧ _ ∧ _ ∧ c.expiresAt = c.lastSeen + t.evictOldest.ttl
      rw [(limits_evictOldest t).2]
      exact h.timed k c (hlookup k c hc)
    · show s.used gone + t.evictOldest.ttl ≤ now ∨ ∀ other ∈ t.evictOldest.bindings, _
      rw [(limits_evictOldest t).2]
      by_cases hkey : gone = key
      · refine .inr fun other hother => ?_
        obtain ⟨c, hc⟩ := Table.exists_of_mem hother
        have hold := h.timed key b hb
        have hother := h.timed other c (hlookup other c hc)
        rw [hkey]
        exact (hold.1.symm.le.trans (hle other c (hlookup other c hc))).trans_eq hother.1
      · have hgone' : gone ∉ t.bindings := by
          rw [heq, ← AList.lookup_eq_none, Table.lookup_erase_eq, if_neg hkey] at hnot
          exact AList.lookup_eq_none.mp hnot
        refine (h.removal gone hgone hgone').imp_right fun hall other hother => ?_
        obtain ⟨c, hc⟩ := Table.exists_of_mem hother
        exact hall other (Table.mem_of_lookup (hlookup other c hc))

/-- A binding that is written is used now. -/
theorem Leaves.insert {t : Bindings} (h : Leaves s ⟨t, now, s.used⟩) (hs : Timed s)
    (hnow : s.clock ≤ now) (hpos : 0 < now) (key : Key) (original : BitVec 32) (createdAt : ℕ) :
    Leaves s ⟨{ t with bindings := t.bindings.insert key ⟨original, createdAt, now, now + t.ttl⟩ },
      now, Function.update s.used key now⟩ := by
  refine ⟨fun k b hb => ?_, fun gone hgone hnot => ?_⟩
  · replace hb := (Table.lookup_insert_eq _ _ _ _).symm.trans hb
    by_cases hk : k = key
    · rw [if_pos hk] at hb
      cases hb
      subst hk
      exact ⟨(Function.update_self k now s.used).symm, hpos, le_rfl, rfl⟩
    · rw [if_neg hk] at hb
      obtain ⟨hused, hrest⟩ := h.timed k b hb
      exact ⟨hused.trans (Function.update_of_ne hk now s.used).symm, hrest⟩
  · have hnot' := not_or.mp (mt (AList.mem_insert _).mpr hnot)
    refine (h.removal gone hgone hnot'.2).imp_right fun hall other hother => ?_
    show s.used gone ≤ Function.update s.used key now other
    by_cases hother' : other = key
    · obtain ⟨b, hb⟩ := Table.exists_of_mem hgone
      obtain ⟨hused, -, hle, -⟩ := hs gone b hb
      rw [hother', Function.update_self, ← hused]
      exact hle.trans hnow
    · rw [Function.update_of_ne hother']
      exact hall other (((AList.mem_insert _).mp hother).resolve_left hother')

/-! ## Runs -/

/-- What every operation keeps. -/
structure Kept (s : Usage) : Prop where
  size : s.table.bindings.size ≤ s.table.maxBindings
  maxBindings : 0 < s.table.maxBindings
  ttl : 0 < s.table.ttl
  clock : 0 < s.clock
  timed : Timed s

theorem limitOrDefault_pos (maxBindings : ℤ) : 0 < limitOrDefault maxBindings := by
  unfold limitOrDefault natDefaultMaxBindings
  split_ifs <;> omega

theorem ttlOrDefault_pos (ttl : ℤ) : 0 < ttlOrDefault ttl := by
  unfold ttlOrDefault natBindingTTL
  split_ifs <;> omega

theorem Leaves.evictions {t : Bindings} (h : Leaves s ⟨t, now, s.used⟩) (n : ℕ) :
    Leaves s ⟨Bindings.evictOldest^[n] t, now, s.used⟩ ∧
      (Bindings.evictOldest^[n] t).bindings.size = t.bindings.size - n ∧
      (Bindings.evictOldest^[n] t).maxBindings = t.maxBindings ∧
      (Bindings.evictOldest^[n] t).ttl = t.ttl := by
  induction n with
  | zero => exact ⟨h, rfl, rfl, rfl⟩
  | succ n ih =>
    obtain ⟨hleaves, hsize, hmax, httl⟩ := ih
    rw [Function.iterate_succ_apply', size_evictOldest, (limits_evictOldest _).1,
      (limits_evictOldest _).2, hsize, hmax, httl]
    exact ⟨hleaves.evictOldest, by omega, rfl, rfl⟩

/-- A reconfiguration puts its limits in force. -/
theorem configure_spec (h : Timed s) (hnow : s.clock ≤ now) (maxBindings ttl : ℕ) :
    Leaves s ⟨s.table.configure maxBindings ttl now, now, s.used⟩ ∧
      (s.table.configure maxBindings ttl now).bindings.size ≤ maxBindings ∧
      (s.table.configure maxBindings ttl now).maxBindings = maxBindings ∧
      (s.table.configure maxBindings ttl now).ttl = ttl := by
  obtain ⟨t, ht, hmax, httl, heq⟩ : ∃ t : Bindings, Leaves s ⟨t, now, s.used⟩ ∧
      t.maxBindings = maxBindings ∧ t.ttl = ttl ∧
      s.table.configure maxBindings ttl now =
        Bindings.evictOldest^[t.bindings.size - maxBindings] t := by
    refine ⟨_, leaves_update h hnow (fun key b hb => ?_) maxBindings, rfl, rfl, rfl⟩
    obtain ⟨-, hpos, -, -⟩ := h key b hb
    simp only [if_neg hpos.ne']
    by_cases hfresh : now < b.lastSeen + ttl
    · rw [if_pos hfresh, if_neg (not_not.mpr hfresh)]
    · rw [if_neg hfresh, if_pos hfresh]
  rw [heq]
  obtain ⟨hleaves, hsize, hmax', httl'⟩ := ht.evictions (t.bindings.size - maxBindings)
  exact ⟨hleaves, by omega, hmax'.trans hmax, httl'.trans httl⟩

/-- **One operation** removes what is idle or was used longest ago, and keeps the bound. -/
theorem leaves_operate (h : Kept s) {op : Operation} (hnow : s.clock ≤ op.now) :
    Leaves s (s.operate op) ∧ Kept (s.operate op) := by
  have hpos := h.clock.trans_le hnow
  have hprune := leaves_prune h.timed hnow
  have hsize : (s.table.prune op.now).bindings.size ≤ s.table.maxBindings :=
    (Table.size_update_le _ _).trans h.size
  cases op with
  | upsert key original now =>
    unfold Usage.operate Bindings.upsert
    by_cases hfull : key ∉ (s.table.prune now).bindings ∧
        (s.table.prune now).bindings.size ≥ (s.table.prune now).maxBindings
    · simp only [if_pos hfull]
      have hleaves := hprune.evictOldest.insert h.timed hnow hpos key original
      obtain ⟨hmax, httl⟩ := limits_evictOldest (s.table.prune now)
      refine ⟨hleaves _, ?_, hmax ▸ h.maxBindings, httl ▸ h.ttl, hpos, (hleaves _).timed⟩
      refine (Table.size_insert_le.trans_eq ?_).trans (hsize.trans_eq hmax.symm)
      rw [size_evictOldest]
      exact Nat.sub_add_cancel (h.maxBindings.trans_le hfull.2)
    · simp only [if_neg hfull]
      have hleaves := hprune.insert h.timed hnow hpos key original
      refine ⟨hleaves _, ?_, h.maxBindings, h.ttl, hpos, (hleaves _).timed⟩
      rw [not_and_or, not_not, not_le] at hfull
      rcases hfull with hmem | hroom
      · exact (Table.size_insert_of_mem hmem).trans_le hsize
      · exact Table.size_insert_le.trans hroom
  | lookup key now =>
    unfold Usage.operate Bindings.lookup
    cases hb : (s.table.prune now).bindings.lookup key with
    | none =>
      simp only [hb]
      exact ⟨hprune, hsize, h.maxBindings, h.ttl, hpos, hprune.timed⟩
    | some b =>
      simp only [hb]
      have hleaves := hprune.insert h.timed hnow hpos key b.originalIP b.createdAt
      exact ⟨hleaves, (Table.size_insert_of_mem (Table.mem_of_lookup hb)).trans_le hsize,
        h.maxBindings, h.ttl, hpos, hleaves.timed⟩
  | prune now => exact ⟨hprune, hsize, h.maxBindings, h.ttl, hpos, hprune.timed⟩
  | configure maxBindings ttl now =>
    obtain ⟨hleaves, hbound, hmax, httl⟩ := configure_spec h.timed hnow
      (limitOrDefault maxBindings) (ttlOrDefault ttl)
    exact ⟨hleaves, hbound.trans_eq hmax.symm, hmax ▸ limitOrDefault_pos _,
      httl ▸ ttlOrDefault_pos _, hpos, hleaves.timed⟩

theorem Usage.step_eq_some {op : Operation} :
    s.step op = some s' ↔ s.clock ≤ op.now ∧ s.operate op = s' := by
  rw [Usage.step, Option.ite_none_right_eq_some, Option.some.injEq]

theorem kept_of_reaches {maxBindings ttl : ℤ}
    (h : Reaches Usage.step (fun _ _ => True) (Usage.start maxBindings ttl) s) : Kept s := by
  refine h.invariant Kept ⟨Nat.zero_le _, limitOrDefault_pos _, ttlOrDefault_pos _, one_pos, ?_⟩ ?_
  · intro key b hb
    cases hb
  · intro s op t hs _ hstep
    obtain ⟨hnow, rfl⟩ := Usage.step_eq_some.mp hstep
    exact (leaves_operate hs hnow).2

/-- Keys of two flows to one server. -/
def flowKey (port : ℕ) : Key := ⟨0x0A000001#32, 0xC0000201#32, 17, port, 53⟩

end Translation

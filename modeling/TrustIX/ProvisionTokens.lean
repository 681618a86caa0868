/-
# Provision tokens

A provision token hands out its script once.  The daemon keeps the tokens in memory and in a file
that it replaces by renaming; a call that consumes a token first persists that the token is used.
All calls hold `provisionMu`, but a write consists of several steps, and the daemon or the machine
may stop between any two of them: the machine then finds the file as it was at the last successful
synchronisation of the directory, or as one of the later renames left it.

* `delivered_once` : over a whole run, whatever fails and wherever it crashes, each token is
  delivered at most once, as it was stored, and by a clock that had not reached its expiry.
-/
import TrustIX.GoText
import TrustIX.KeyedTable
import TrustIX.Runs

namespace ProvisionTokens

open Runs

/-! ## Records -/

/-- `ixProvisionTokenRecord`, as far as tokens are decided by it. -/
structure TokenRecord where
  token : String
  expiresAt : ℤ
  usedAt : Option ℤ
  script : String
  deriving DecidableEq

abbrev Tokens := Table String TokenRecord

/-- `pruneIXProvisionTokens`. -/
def prune (tokens : Tokens) (now : ℤ) : Tokens :=
  tokens.update fun _ record => if now < record.expiresAt then some record else none

/-- The order of the records in the file. -/
def before (a b : TokenRecord) : Bool :=
  if a.expiresAt = b.expiresAt then decide (a.token ≤ b.token) else decide (a.expiresAt < b.expiresAt)

/-- The file that `persistIXProvisionTokensLocked` writes; it looks at the clock for every
record. -/
def fileContents (tokens : Tokens) (clock : String → ℤ) : List TokenRecord :=
  ((tokens.entries.map fun e => e.2).filter fun record =>
    clock record.token < record.expiresAt).mergeSort before

/-- `loadIXProvisionTokensLocked` on a file that is there. -/
def loadFile (tokens : Tokens) (file : List TokenRecord) : Tokens :=
  tokens.write ((file.filter fun record => GoText.trimSpace record.token ≠ "").map
    fun record => (record.token, record))

/-! ## Calls -/

inductive Call where
  | store (record : TokenRecord)
  | delete (token : String)
  | consume (token : String)

/-- What a call returns: a consumed record with the clock by which it was found valid. -/
abbrev Answer := Except String (Option (TokenRecord × ℤ))

def unavailable (reason : String) : Answer :=
  .error ("IX provision token is unavailable: " ++ reason)

/-- The tokens that a call wants to persist and what it then returns, unless it returns at once. -/
def Call.plan (tokens : Tokens) (now : ℤ) : Call → Except Answer (Tokens × Answer)
  | .store record => .ok ((prune tokens now).insert record.token record, .ok none)
  | .delete token => .ok (tokens.erase (GoText.trimSpace token), .ok none)
  | .consume token =>
    let token := GoText.trimSpace token
    let next := prune tokens now
    match next.lookup token with
    | none => .ok (next, unavailable "provision token is not found or has expired")
    | some record =>
      if record.usedAt.isSome then .error (unavailable "provision token was already used")
      else if record.expiresAt ≤ now then
        .ok (next.erase token, unavailable "provision token has expired")
      else
        .ok (next.insert token { record with usedAt := some now, script := "" },
          .ok (some (record, now)))

/-- A call that persists: the tokens it writes, what it returns in the end, and whether the file
has been renamed. -/
structure Writing where
  next : Tokens
  answer : Answer
  renamed : Bool

/-- The daemon, its file, and what else a crash may find in its place; what was stored and what
was delivered so far. -/
structure State where
  tokens : Tokens
  loaded : Bool
  file : Option (List TokenRecord)
  older : List (Option (List TokenRecord))
  writing : Option Writing
  stored : List TokenRecord
  delivered : List (TokenRecord × ℤ)

def State.empty : State := ⟨∅, false, none, [], none, [], []⟩

/-- What a successful call adds to the deliveries. -/
def delivery : Answer → List (TokenRecord × ℤ)
  | .ok (some delivered) => [delivered]
  | _ => []

/-- The tokens after `loadIXProvisionTokensLocked`. -/
def State.load (s : State) (persistent : Bool) : Tokens :=
  if s.loaded || !persistent then s.tokens
  else
    match s.file with
    | none => s.tokens
    | some file => loadFile s.tokens file

inductive Event where
  /-- A call gets the lock; the file may be unreadable, if it has to be read. -/
  | call (call : Call) (readable : Bool) (now : ℤ)
  /-- The write fails before the rename. -/
  | writeFails
  | rename (clock : String → ℤ)
  /-- The directory is synchronised, or that fails. -/
  | syncDirectory (ok : Bool)
  /-- The daemon stops, or the machine does and finds one of the possible files. -/
  | crash (found : Option ℕ)

/-- The text of a token that a consumer has to give. -/
def Call.missingToken : Call → Bool
  | .consume token => GoText.trimSpace token = ""
  | _ => false

/-- The records that a call gives to the store. -/
def Call.stores : Call → List TokenRecord
  | .store record => [record]
  | _ => []

/-- A call on loaded tokens up to its write; without a store path that is all of it. -/
def State.proceed (persistent : Bool) (s : State) (call : Call) (now : ℤ) : State :=
  match call.plan s.tokens now with
  | .error _ => s
  | .ok (next, answer) =>
    if persistent then { s with writing := some ⟨next, answer, false⟩ }
    else { s with tokens := next, delivered := s.delivered ++ delivery answer }

def State.begin (persistent : Bool) (s : State) (call : Call) (readable : Bool) (now : ℤ) : State :=
  let s := { s with stored := s.stored ++ call.stores }
  if call.missingToken || (!s.loaded && persistent && !readable) then s
  else State.proceed persistent { s with tokens := s.load persistent, loaded := true } call now

/-- The steps; `persistent` says whether there is a store path. -/
def step (persistent : Bool) (s : State) : Event → Option State
  | .call call readable now =>
    match s.writing with
    | none => some (s.begin persistent call readable now)
    | some _ => none
  | .writeFails =>
    match s.writing with
    | some ⟨_, _, false⟩ => some { s with writing := none }
    | _ => none
  | .rename clock =>
    match s.writing with
    | some ⟨next, answer, false⟩ =>
      some { s with
        file := some (fileContents next clock)
        older := s.file :: s.older
        writing := some ⟨next, answer, true⟩ }
    | _ => none
  | .syncDirectory ok =>
    match s.writing with
    | some ⟨next, answer, true⟩ =>
      if ok then some { s with
        tokens := next, older := [], writing := none
        delivered := s.delivered ++ delivery answer }
      else some { s with tokens := next, writing := none }
    | _ => none
  | .crash none => some { s with tokens := ∅, loaded := false, writing := none }
  | .crash (some found) =>
    (s.file :: s.older)[found]?.map fun file =>
      { s with tokens := ∅, loaded := false, writing := none, file := file, older := [] }

/-- No token is stored twice. -/
def StoredOnce (s : State) : Event → Prop
  | .call call _ _ => ∀ record ∈ call.stores, record.token ∉ s.stored.map TokenRecord.token
  | _ => True

instance (s : State) : DecidablePred (StoredOnce s)
  | .call call _ _ =>
    inferInstanceAs (Decidable (∀ record ∈ call.stores,
      record.token ∉ s.stored.map TokenRecord.token))
  | .writeFails | .rename _ | .syncDirectory _ | .crash _ => .isTrue trivial

/-! ## What calls write -/

/-- The record is in the table. -/
def Has (tokens : Tokens) (record : TokenRecord) : Prop := ∃ key, tokens.lookup key = some record

/-- Every record is under its own token. -/
def Keyed (tokens : Tokens) : Prop := ∀ key record, tokens.lookup key = some record → record.token = key

variable {tokens next : Tokens} {record r : TokenRecord} {now : ℤ}

variable {key : String}

theorem lookup_prune (h : (prune tokens now).lookup key = some record) :
    tokens.lookup key = some record ∧ now < record.expiresAt := by
  rw [prune, Table.lookup_update] at h
  obtain ⟨old, hold, hnew⟩ := Option.bind_eq_some_iff.mp h
  split_ifs at hnew with hlt
  cases hnew
  exact ⟨hold, hlt⟩

theorem Keyed.prune (h : Keyed tokens) : Keyed (prune tokens now) := fun key record hrecord =>
  h key record (lookup_prune hrecord).1

theorem Has.of_prune (h : Has (prune tokens now) record) : Has tokens record := by
  obtain ⟨key, hkey⟩ := h
  exact ⟨key, (lookup_prune hkey).1⟩

theorem Keyed.insert {token : String} (h : Keyed tokens) (htoken : record.token = token) :
    Keyed (AList.insert token record tokens) := by
  intro key r hr
  rw [Table.lookup_insert_eq] at hr
  split_ifs at hr with hkey
  · rw [← Option.some.inj hr, htoken, hkey]
  · exact h key r hr

theorem Keyed.erase (h : Keyed tokens) (token : String) : Keyed (tokens.erase token) := by
  intro key r hr
  rw [Table.lookup_erase_eq] at hr
  split_ifs at hr
  exact h key r hr

theorem Has.of_insert (h : Has (AList.insert key record tokens) r) :
    r = record ∨ ∃ other, other ≠ key ∧ tokens.lookup other = some r := by
  obtain ⟨other, hother⟩ := h
  rw [Table.lookup_insert_eq] at hother
  split_ifs at hother with hkey
  · exact .inl (Option.some.inj hother).symm
  · exact .inr ⟨other, hkey, hother⟩

theorem Has.of_erase {token : String} (h : Has (AList.erase token tokens) r) : Has tokens r := by
  obtain ⟨key, hkey⟩ := h
  rw [Table.lookup_erase_eq] at hkey
  split_ifs at hkey
  exact ⟨key, hkey⟩

/-- What a call persists, and what it may deliver afterwards. -/
structure Planned (tokens : Tokens) (call : Call) (next : Tokens) (answer : Answer) : Prop where
  keyed : Keyed next
  /-- Records are old ones, the one that is stored, or the one that is marked as used. -/
  records : ∀ r, Has next r → Has tokens r ∨ r ∈ call.stores ∨ r.usedAt ≠ none
  /-- What is delivered was there, unused and not expired, and is used in what is persisted. -/
  delivers : ∀ d ∈ delivery answer, Has tokens d.1 ∧ d.1.usedAt = none ∧ d.2 < d.1.expiresAt ∧
    ∀ r, Has next r → r.token = d.1.token → r.usedAt ≠ none

variable {call : Call}

variable {answer : Answer}

theorem plan_spec (hkeyed : Keyed tokens)
    (h : call.plan tokens now = .ok (next, answer)) : Planned tokens call next answer := by
  cases call with
  | store record =>
    cases h
    refine ⟨hkeyed.prune.insert rfl, fun r hr => ?_, nofun⟩
    rcases hr.of_insert with rfl | ⟨other, -, hother⟩
    · exact .inr (.inl (List.mem_singleton.mpr rfl))
    · exact .inl (Has.of_prune ⟨other, hother⟩)
  | delete token =>
    cases h
    exact ⟨hkeyed.erase _, fun r hr => .inl hr.of_erase, nofun⟩
  | consume token =>
    simp only [Call.plan] at h
    split at h
    · cases h
      exact ⟨hkeyed.prune, fun r hr => .inl hr.of_prune, nofun⟩
    · rename_i record hrecord
      split_ifs at h with hused hexpired
      · cases h
        exact ⟨hkeyed.prune.erase _, fun r hr => .inl hr.of_erase.of_prune, nofun⟩
      · cases h
        obtain ⟨hold, -⟩ := lookup_prune hrecord
        have htoken := hkeyed _ _ hold
        refine ⟨?_, fun r hr => ?_, fun d hd => ?_⟩
        · exact hkeyed.prune.insert htoken
        · rcases hr.of_insert with rfl | ⟨other, -, hother⟩
          · exact .inr (.inr nofun)
          · exact .inl (Has.of_prune ⟨other, hother⟩)
        · obtain rfl := List.mem_singleton.mp hd
          refine ⟨⟨_, hold⟩, by simpa using hused, not_le.mp hexpired, fun r hr hsame => ?_⟩
          rcases hr.of_insert with rfl | ⟨other, hne, hother⟩
          · nofun
          · -- another record has another token
            have := hkeyed.prune _ _ hother
            exact absurd (this.symm.trans (hsame.trans htoken)) hne

theorem mem_fileContents {clock : String → ℤ} (h : r ∈ fileContents tokens clock) : Has tokens r := by
  unfold fileContents at h
  rw [List.mem_mergeSort] at h
  obtain ⟨⟨key, record⟩, hmem, rfl⟩ := List.mem_map.mp (List.mem_filter.mp h).1
  exact ⟨key, AList.mem_lookup_iff.mpr hmem⟩

theorem lookup_loadFile {file : List TokenRecord} (h : (loadFile tokens file).lookup key = some r) :
    tokens.lookup key = some r ∨ (r ∈ file ∧ r.token = key) := by
  unfold loadFile at h
  generalize hentries : (file.filter fun record => GoText.trimSpace record.token ≠ "").map
    (fun record => (record.token, record)) = entries at h
  have hsource : ∀ e ∈ entries, e.2 ∈ file ∧ e.2.token = e.1 := by
    intro e he
    rw [← hentries] at he
    obtain ⟨record, hrecord, rfl⟩ := List.mem_map.mp he
    exact ⟨(List.mem_filter.mp hrecord).1, rfl⟩
  clear hentries
  induction entries generalizing tokens with
  | nil => exact .inl h
  | cons e entries ih =>
    rcases ih h fun e' he' => hsource e' (List.mem_cons_of_mem _ he') with hold | hfile
    · rw [Table.lookup_insert_eq] at hold
      split_ifs at hold with hkey
      · cases hold
        obtain ⟨hmem, htoken⟩ := hsource e List.mem_cons_self
        exact .inr ⟨hmem, htoken.trans hkey.symm⟩
      · exact .inl hold
    · exact .inr hfile

/-! ## The invariant -/

namespace State

/-- The record is in memory, in a file that may be found, or about to be written. -/
def Holds (s : State) (r : TokenRecord) : Prop :=
  Has s.tokens r ∨ (∃ file ∈ s.file :: s.older, r ∈ file.getD []) ∨ ∃ w ∈ s.writing, Has w.next r

/-- The tokens that were delivered. -/
def spentTokens (s : State) : List String := s.delivered.map fun d => d.1.token

structure Safe (s : State) : Prop where
  keyed : Keyed s.tokens
  keyedNext : ∀ w ∈ s.writing, Keyed w.next
  origin : ∀ r, s.Holds r → r.usedAt = none → r ∈ s.stored
  spent : ∀ r, s.Holds r → r.token ∈ s.spentTokens → r.usedAt ≠ none
  valid : ∀ d ∈ s.delivered, d.1 ∈ s.stored ∧ d.2 < d.1.expiresAt
  once : s.spentTokens.Nodup
  /-- What is about to be delivered has not been, and is marked as used in what is written. -/
  pending : ∀ w ∈ s.writing, ∀ d ∈ delivery w.answer, d.1 ∈ s.stored ∧ d.2 < d.1.expiresAt ∧
    d.1.token ∉ s.spentTokens ∧ ∀ r, Has w.next r → r.token = d.1.token → r.usedAt ≠ none
  renamed : ∀ w ∈ s.writing, w.renamed = true → ∃ clock, s.file = some (fileContents w.next clock)

variable {s t : State}

/-- Steps that bring no new record, and do not deliver. -/
theorem Safe.of_fewer (h : s.Safe) (hkeyed : Keyed t.tokens) (hstored : t.stored = s.stored)
    (hdelivered : t.delivered = s.delivered) (hholds : ∀ r, t.Holds r → s.Holds r)
    (hwriting : ∀ w ∈ t.writing, ∃ w' ∈ s.writing, w.next = w'.next ∧ w.answer = w'.answer ∧
      (w.renamed = true → ∃ clock, t.file = some (fileContents w.next clock))) : t.Safe := by
  have hspent : t.spentTokens = s.spentTokens := by rw [spentTokens, hdelivered, spentTokens]
  refine ⟨hkeyed, fun w hw => ?_, fun r hr hused => ?_, fun r hr hmem => ?_, fun d hd => ?_, ?_,
    fun w hw d hd => ?_, fun w hw hrenamed => ?_⟩
  · obtain ⟨w', hw', hnext, -⟩ := hwriting w hw
    exact hnext ▸ h.keyedNext w' hw'
  · exact hstored ▸ h.origin r (hholds r hr) hused
  · exact h.spent r (hholds r hr) (hspent ▸ hmem)
  · rw [hstored]
    exact h.valid d (hdelivered ▸ hd)
  · exact hspent ▸ h.once
  · obtain ⟨w', hw', hnext, hanswer, -⟩ := hwriting w hw
    rw [hstored, hspent, hnext]
    exact h.pending w' hw' d (hanswer ▸ hd)
  · obtain ⟨-, -, -, -, hclock⟩ := hwriting w hw
    exact hclock hrenamed

/-- More records may have been given to the store. -/
theorem Safe.store (h : s.Safe) (records : List TokenRecord) :
    Safe { s with stored := s.stored ++ records } where
  keyed := h.keyed
  keyedNext := h.keyedNext
  origin r hr hused := List.mem_append_left _ (h.origin r hr hused)
  spent := h.spent
  valid d hd := ⟨List.mem_append_left _ (h.valid d hd).1, (h.valid d hd).2⟩
  once := h.once
  pending w hw d hd := ⟨List.mem_append_left _ (h.pending w hw d hd).1, (h.pending w hw d hd).2⟩
  renamed := h.renamed

/-- A file that is loaded was there. -/
theorem Safe.load (h : s.Safe) (hwriting : s.writing = none) (persistent : Bool) :
    Safe { s with tokens := s.load persistent, loaded := true } := by
  have hload : ∀ key r, (s.load persistent).lookup key = some r →
      s.tokens.lookup key = some r ∨ (r.token = key ∧ ∃ file ∈ s.file :: s.older, r ∈ file.getD []) := by
    intro key r hr
    unfold State.load at hr
    split_ifs at hr
    · exact .inl hr
    · cases hfile : s.file with
      | none =>
        rw [hfile] at hr
        exact .inl hr
      | some file =>
        rw [hfile] at hr
        rcases lookup_loadFile hr with hold | ⟨hmem, hkey⟩
        · exact .inl hold
        · exact .inr ⟨hkey, some file, List.mem_cons_self, hmem⟩
  refine h.of_fewer (fun key r hr => ?_) rfl rfl (fun r hr => ?_)
    fun w hw => nomatch hwriting ▸ hw
  · rcases hload key r hr with hold | ⟨hkey, -⟩
    · exact h.keyed key r hold
    · exact hkey
  · rcases hr with ⟨key, hkey⟩ | hfile | hnext
    · rcases hload key r hkey with hold | ⟨-, hfile⟩
      · exact .inl ⟨key, hold⟩
      · exact .inr (.inl hfile)
    · exact .inr (.inl hfile)
    · exact .inr (.inr hnext)

/-- What may be written and delivered, as far as it depends on the records and the deliveries. -/
structure Due (s : State) (next : Tokens) (answer : Answer) : Prop where
  keyed : Keyed next
  origin : ∀ r, Has next r → r.usedAt = none → r ∈ s.stored
  spent : ∀ r, Has next r → r.token ∈ s.spentTokens → r.usedAt ≠ none
  pending : ∀ d ∈ delivery answer, d.1 ∈ s.stored ∧ d.2 < d.1.expiresAt ∧
    d.1.token ∉ s.spentTokens ∧ ∀ r, Has next r → r.token = d.1.token → r.usedAt ≠ none

theorem Safe.due (h : s.Safe) {w : Writing} (hw : w ∈ s.writing) : Due s w.next w.answer where
  keyed := h.keyedNext w hw
  origin r hr := h.origin r (.inr (.inr ⟨w, hw, hr⟩))
  spent r hr := h.spent r (.inr (.inr ⟨w, hw, hr⟩))
  pending := h.pending w hw

/-- A call plans nothing else if the records that it stores are new. -/
theorem Safe.due_of_planned (h : s.Safe) (hplan : Planned s.tokens call next answer)
    (hnew : ∀ r ∈ call.stores, r ∈ s.stored ∧ r.token ∉ s.spentTokens) : Due s next answer where
  keyed := hplan.keyed
  origin r hr hused := by
    rcases hplan.records r hr with hold | hstored | hne
    · exact h.origin r (.inl hold) hused
    · exact (hnew r hstored).1
    · exact absurd hused hne
  spent r hr hspent := by
    rcases hplan.records r hr with hold | hstored | hne
    · exact h.spent r (.inl hold) hspent
    · exact absurd hspent (hnew r hstored).2
    · exact hne
  pending d hd := by
    obtain ⟨hhas, hunused, hvalid, hmarked⟩ := hplan.delivers d hd
    exact ⟨h.origin d.1 (.inl hhas) hunused, hvalid,
      fun hspent => h.spent d.1 (.inl hhas) hspent hunused, hmarked⟩

/-- A write begins. -/
theorem Safe.write (h : s.Safe) (hdue : Due s next answer) : Safe { s with writing := some ⟨next, answer, false⟩ } := by
  have hholds : ∀ r, Holds { s with writing := some ⟨next, answer, false⟩ } r →
      s.Holds r ∨ Has next r := by
    rintro r (hr | hr | ⟨w, hw, hr⟩)
    · exact .inl (.inl hr)
    · exact .inl (.inr (.inl hr))
    · cases hw
      exact .inr hr
  refine ⟨h.keyed, ?_, fun r hr hused => ?_, fun r hr hspent => ?_, h.valid, h.once, ?_, ?_⟩
  · rintro w ⟨⟩
    exact hdue.keyed
  · exact (hholds r hr).elim (fun hr => h.origin r hr hused) fun hr => hdue.origin r hr hused
  · exact (hholds r hr).elim (fun hr => h.spent r hr hspent) fun hr => hdue.spent r hr hspent
  · rintro w ⟨⟩
    exact hdue.pending
  · rintro w ⟨⟩
    nofun

/-- **A delivery** leaves only records that are marked as used. -/
theorem Safe.deliver (h : s.Safe) (hdue : Due s next answer)
    (htokens : t.tokens = next) (hstored : t.stored = s.stored) (hwriting : t.writing = none)
    (hdelivered : t.delivered = s.delivered ++ delivery answer)
    (hfiles : ∀ file ∈ t.file :: t.older, ∀ r ∈ file.getD [], Has next r) : t.Safe := by
  have hholds : ∀ r, t.Holds r → Has next r := by
    rintro r (hr | ⟨file, hfile, hr⟩ | ⟨w, hw, -⟩)
    · exact htokens ▸ hr
    · exact hfiles file hfile r hr
    · rw [hwriting] at hw
      cases hw
  have hspent : t.spentTokens = s.spentTokens ++ (delivery answer).map fun d => d.1.token := by
    rw [spentTokens, hdelivered, List.map_append, spentTokens]
  have hnone : ∀ w, w ∉ t.writing := by
    rw [hwriting]
    nofun
  refine ⟨htokens ▸ hdue.keyed, fun w hw => absurd hw (hnone w), fun r hr hused => ?_,
    fun r hr hmem => ?_, fun d hd => ?_, ?_, fun w hw => absurd hw (hnone w),
    fun w hw => absurd hw (hnone w)⟩
  · rw [hstored]
    exact hdue.origin r (hholds r hr) hused
  · rw [hspent, List.mem_append] at hmem
    rcases hmem with hold | hnew
    · exact hdue.spent r (hholds r hr) hold
    · obtain ⟨d, hd, htoken⟩ := List.mem_map.mp hnew
      exact (hdue.pending d hd).2.2.2 r (hholds r hr) htoken.symm
  · rw [hdelivered, List.mem_append] at hd
    rw [hstored]
    rcases hd with hold | hnew
    · exact h.valid d hold
    · exact ⟨(hdue.pending d hnew).1, (hdue.pending d hnew).2.1⟩
  · rw [hspent, List.nodup_append]
    refine ⟨h.once, ?_, ?_⟩
    · -- one call delivers one record at most
      rcases answer with err | delivered | delivered
      all_goals simp [delivery]
    · rintro a ha b hb rfl
      obtain ⟨d, hd, rfl⟩ := List.mem_map.mp hb
      exact (hdue.pending d hd).2.2.1 ha

end State

/-! ## Steps -/

open State

variable {s t : State} {persistent : Bool}

/-- Without a store path there is no file. -/
def Unfiled (persistent : Bool) (s : State) : Prop :=
  persistent = false → s.file = none ∧ s.older = []

theorem safe_proceed (h : s.Safe) (hfiled : Unfiled persistent s) (hwriting : s.writing = none)
    (hnew : ∀ r ∈ call.stores, r ∈ s.stored ∧ r.token ∉ s.spentTokens) :
    (s.proceed persistent call now).Safe := by
  unfold State.proceed
  split
  · exact h
  · rename_i next answer hplan
    have hdue := h.due_of_planned (plan_spec h.keyed hplan) hnew
    split_ifs with hpersistent
    · exact h.write hdue
    · refine h.deliver hdue rfl rfl hwriting rfl ?_
      obtain ⟨hfile, holder⟩ := hfiled (by simpa using hpersistent)
      intro file hmem r hr
      rw [show file = none by simpa [hfile, holder] using hmem] at hr
      cases hr

theorem safe_begin {readable : Bool} (h : s.Safe) (hfiled : Unfiled persistent s)
    (hwriting : s.writing = none)
    (hnew : ∀ record ∈ call.stores, record.token ∉ s.stored.map TokenRecord.token) :
    (s.begin persistent call readable now).Safe := by
  have hstore := h.store call.stores
  unfold State.begin
  dsimp only
  split_ifs
  · exact hstore
  · refine safe_proceed (hstore.load hwriting persistent) hfiled hwriting fun r hr =>
      ⟨List.mem_append_right _ hr, fun hspent => hnew r hr ?_⟩
    obtain ⟨d, hd, htoken⟩ := List.mem_map.mp hspent
    exact List.mem_map.mpr ⟨d.1, (h.valid d hd).1, htoken⟩

theorem safe_rename {w : Writing} {clock : String → ℤ} (h : s.Safe) (hw : s.writing = some w) :
    State.Safe { s with
      file := some (fileContents w.next clock)
      older := s.file :: s.older
      writing := some { w with renamed := true } } := by
  refine h.of_fewer h.keyed rfl rfl ?_ ?_
  · rintro r (hr | ⟨file, hfile, hr⟩ | ⟨w', hw', hr⟩)
    · exact .inl hr
    · rcases List.mem_cons.mp hfile with rfl | hold
      · exact .inr (.inr ⟨w, hw, mem_fileContents hr⟩)
      · exact .inr (.inl ⟨file, hold, hr⟩)
    · cases hw'
      exact .inr (.inr ⟨w, hw, hr⟩)
  · rintro w' ⟨⟩
    exact ⟨w, hw, rfl, rfl, fun _ => ⟨clock, rfl⟩⟩

theorem safe_step {event : Event} (h : s.Safe) (hfiled : Unfiled persistent s)
    (hok : StoredOnce s event) (hstep : step persistent s event = some t) : t.Safe := by
  cases event with
  | call call readable now =>
    simp only [step] at hstep
    split at hstep
    · rename_i hwriting
      cases hstep
      exact safe_begin h hfiled hwriting hok
    · cases hstep
  | writeFails =>
    simp only [step] at hstep
    split at hstep
    · cases hstep
      refine h.of_fewer h.keyed rfl rfl ?_ nofun
      rintro r (hr | hr | ⟨w, hw, -⟩)
      · exact .inl hr
      · exact .inr (.inl hr)
      · cases hw
    · cases hstep
  | rename clock =>
    simp only [step] at hstep
    split at hstep
    · rename_i next answer hwriting
      cases hstep
      exact safe_rename h hwriting
    · cases hstep
  | syncDirectory ok =>
    simp only [step] at hstep
    split at hstep
    · rename_i next answer hwriting
      have hdue : Due s next answer := h.due hwriting
      split_ifs at hstep
      · cases hstep
        refine h.deliver hdue rfl rfl rfl rfl ?_
        obtain ⟨clock, hclock⟩ := h.renamed _ hwriting rfl
        intro file hmem r hr
        obtain rfl := List.mem_singleton.mp hmem
        rw [hclock] at hr
        exact mem_fileContents hr
      · cases hstep
        refine h.of_fewer hdue.keyed rfl rfl ?_ nofun
        rintro r (hr | hr | ⟨w, hw, -⟩)
        · exact .inr (.inr ⟨_, hwriting, hr⟩)
        · exact .inr (.inl hr)
        · cases hw
    · cases hstep
  | crash found =>
    cases found with
    | none =>
      cases hstep
      refine h.of_fewer nofun rfl rfl ?_ nofun
      rintro r (⟨key, hkey⟩ | hr | ⟨w, hw, -⟩)
      · cases hkey
      · exact .inr (.inl hr)
      · cases hw
    | some found =>
      obtain ⟨kept, hkept, rfl⟩ := Option.map_eq_some_iff.mp hstep
      refine h.of_fewer nofun rfl rfl ?_ nofun
      rintro r (⟨key, hkey⟩ | ⟨other, hother, hr⟩ | ⟨w, hw, -⟩)
      · cases hkey
      · rw [List.mem_singleton.mp hother] at hr
        exact .inr (.inl ⟨kept, List.mem_of_getElem? hkept, hr⟩)
      · cases hw

/-- Only a write makes a file, and without a store path there is none. -/
structure Filed (persistent : Bool) (s : State) : Prop where
  unfiled : Unfiled persistent s
  writing : persistent = false → s.writing = none

theorem Filed.proceed (h : Filed false s) : Filed false (s.proceed false call now) := by
  unfold State.proceed
  split
  · exact h
  · exact ⟨h.unfiled, h.writing⟩

theorem filed_step {event : Event} (h : Filed persistent s)
    (hstep : step persistent s event = some t) : Filed persistent t := by
  cases persistent with
  | true => exact ⟨nofun, nofun⟩
  | false =>
    obtain ⟨hfile, holder⟩ := h.unfiled rfl
    have hwriting := h.writing rfl
    cases event with
    | call call readable now =>
      simp only [step, hwriting] at hstep
      cases hstep
      unfold State.begin
      dsimp only
      split_ifs
      · exact ⟨h.unfiled, h.writing⟩
      · exact Filed.proceed ⟨h.unfiled, h.writing⟩
    | writeFails =>
      simp only [step, hwriting] at hstep
      cases hstep
    | rename clock =>
      simp only [step, hwriting] at hstep
      cases hstep
    | syncDirectory ok =>
      simp only [step, hwriting] at hstep
      cases hstep
    | crash found =>
      cases found with
      | none =>
        cases hstep
        exact ⟨fun _ => ⟨hfile, holder⟩, fun _ => rfl⟩
      | some found =>
        obtain ⟨kept, hkept, rfl⟩ := Option.map_eq_some_iff.mp hstep
        rw [hfile, holder] at hkept
        have hnone : kept = none := List.mem_singleton.mp (List.mem_of_getElem? hkept)
        exact ⟨fun _ => ⟨hnone, rfl⟩, fun _ => rfl⟩

theorem safe_empty : State.empty.Safe := by
  have hnone : ∀ r, ¬ State.empty.Holds r := by
    rintro r (⟨key, hkey⟩ | ⟨file, hfile, hr⟩ | ⟨w, hw, -⟩)
    · cases hkey
    · rw [List.mem_singleton.mp hfile] at hr
      cases hr
    · cases hw
  exact ⟨nofun, nofun, fun r hr => absurd hr (hnone r), fun r hr => absurd hr (hnone r), nofun,
    List.nodup_nil, nofun, nofun⟩

/-- **Each token is delivered once at most**, in every run in which no token is stored twice:
whatever writes fail, before or after the rename, and wherever the daemon or the machine stops.
What is delivered is a record as it was stored, before its expiry by the clock of the call. -/
theorem delivered_once (persistent : Bool) (s : State)
    (hrun : Reaches (step persistent) StoredOnce State.empty s) :
    (s.delivered.map fun d => d.1.token).Nodup ∧
      ∀ d ∈ s.delivered, d.1 ∈ s.stored ∧ d.2 < d.1.expiresAt := by
  have hinv : s.Safe ∧ Filed persistent s :=
    hrun.invariant (fun s => s.Safe ∧ Filed persistent s)
      ⟨safe_empty, fun _ => ⟨rfl, rfl⟩, fun _ => rfl⟩
      fun _ _ _ h hok hstep => ⟨safe_step h.1 h.2.unfiled hok hstep, filed_step h.2 hstep⟩
  exact ⟨hinv.1.once, hinv.1.valid⟩

/-! ## A run -/

def setupToken : TokenRecord := ⟨"setup", 100, none, "install"⟩

/-- A token is stored; the first call that consumes it renames the file but cannot synchronise the
directory; the machine stops and finds the file from before; the second call gets the script, and
after another crash a third one does not. -/
def deliveryAfterCrash : List Event :=
  [.call (.store setupToken) true 1, .rename fun _ => 1, .syncDirectory true,
    .call (.consume "setup") true 2, .rename fun _ => 2, .syncDirectory false, .crash (some 1),
    .call (.consume " setup") true 3, .rename fun _ => 3, .syncDirectory true, .crash none,
    .call (.consume "setup") true 4]

theorem delivered_once_after_crash :
    ∃ s, Reaches (step true) StoredOnce State.empty s ∧ s.delivered = [(setupToken, 3)] ∧
      (s.delivered.map fun d => d.1.token).Nodup := by
  have hrun : (replay (step true) StoredOnce State.empty deliveryAfterCrash).any
      (fun s => decide (s.delivered = [(setupToken, 3)])) = true := by decide +kernel
  obtain ⟨s, hs, hdelivered⟩ := (Option.any_eq_true _ _).mp hrun
  have hreach := reaches_of_replay hs
  exact ⟨s, hreach, of_decide_eq_true hdelivered, (delivered_once true s hreach).1⟩

end ProvisionTokens

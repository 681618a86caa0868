/-
# Concurrent senders of one session

Goroutines that call `SendPacket` and `SendPackets` on one session, step by step: `SendPacket`
reserves its number before it waits for `sendMu`, `SendPackets` after it; then the records are
sealed and written, and each write may fail.  The numbers are tickets drawn from `sendSeq`.

* `nonces_unique` : no nonce is used twice, and the directions have different keys and IVs;
* `concurrent_senders` : what is written within the reach of the replay window is handed out
  once, with everything a call that returned nil has sent;
* `late_number_lost` : a number that waits for `sendMu` too long is rejected.
-/
import TrustIX.Runs
import TrustIX.SecureDelivery
import TrustIX.Tickets

namespace SecureTransport

open SecureHandshake Fallible SlidingWindow ReplayWindow Runs Tickets

/-! ## The machine -/

/-- A frame and the number reserved for it. -/
structure Numbered where
  seq : ℕ
  frame : Frame

def Numbered.record (item : Numbered) : Record := item.frame.record item.seq

/-- Where a goroutine is. -/
inductive Phase where
  | idle
  /-- `SendPacket` has its number and waits for `sendMu`. -/
  | reserved (call seq : ℕ) (pkt : Bytes)
  /-- `SendPackets` waits for `sendMu`. -/
  | queued (call : ℕ) (pkts : List Bytes)
  /-- `SendPackets` has `sendMu` and no numbers yet. -/
  | locked (call : ℕ) (pkts : List Bytes)
  /-- With `sendMu`: the records that are to be sealed, and those that are to be written. -/
  | sending (call : ℕ) (pkts : List Bytes) (unsealed unwritten : List Numbered)

/-- The session, who holds `sendMu`, the goroutines, and what has happened so far: how many calls
were started and numbers reserved, the records sealed, the records written by which call, and the
calls that returned nil. -/
structure Senders (ι : Type) where
  session : Session
  holder : Option ι
  phase : ι → Phase
  started : ℕ
  taken : ℕ
  sealings : List Record
  written : List (ℕ × Numbered)
  completed : List (ℕ × List Bytes)

def Senders.start {ι : Type} (session : Session) : Senders ι where
  session := session
  holder := none
  phase := fun _ => .idle
  started := 0
  taken := 0
  sealings := []
  written := []
  completed := []

inductive SendEvent (ι : Type) where
  | sendPacket (i : ι) (pkt : Bytes)
  | sendPackets (i : ι) (pkts : List Bytes)
  | lock (i : ι)
  | reserve (i : ι)
  | sealNext (i : ι)
  | write (i : ι)
  | finish (i : ι)
  /-- The inner session gives an error. -/
  | fail (i : ι)

/-- The frames with the numbers from `baseSeq` on. -/
def numbered (baseSeq : ℕ) (frames : List Frame) : List Numbered :=
  frames.zipIdx.map fun (frame, i) => ⟨(baseSeq + i) % 2 ^ 64, frame⟩

variable {inner : Inner} {session : Session}

section Machine

variable {ι : Type} [DecidableEq ι]

/-- The goroutine `i` goes on. -/
def Senders.goto (s : Senders ι) (i : ι) (phase : Phase) : Senders ι :=
  { s with phase := Function.update s.phase i phase }

def senderStep (inner : Inner) (s : Senders ι) : SendEvent ι → Option (Senders ι)
  | .sendPacket i pkt =>
    match s.phase i with
    | .idle =>
      let (session, seq) := reserve s.session 1
      some { s.goto i (.reserved s.started seq pkt) with
        session := session
        started := s.started + 1
        taken := s.taken + 1 }
    | _ => none
  | .sendPackets i pkts =>
    match s.phase i with
    | .idle =>
      if pkts = [] then
        some { s with
          started := s.started + 1
          completed := s.completed ++ [(s.started, [])] }
      else some { s.goto i (.queued s.started pkts) with started := s.started + 1 }
    | _ => none
  | .lock i =>
    if s.holder.isSome then none
    else
      match s.phase i with
      | .reserved call seq pkt =>
        some { s.goto i (.sending call [pkt] [⟨seq, .single pkt⟩] []) with holder := some i }
      | .queued call pkts => some { s.goto i (.locked call pkts) with holder := some i }
      | _ => none
  | .reserve i =>
    match s.phase i with
    | .locked call pkts =>
      let frames := framesOf inner s.session pkts
      let (session, baseSeq) := reserve s.session frames.length
      some { s.goto i (.sending call pkts (numbered baseSeq frames) []) with
        session := session
        taken := s.taken + frames.length }
    | _ => none
  | .sealNext i =>
    match s.phase i with
    | .sending call pkts (next :: rest) unwritten =>
      some { s.goto i (.sending call pkts rest (unwritten ++ [next])) with
        sealings := s.sealings ++ [next.record] }
    | _ => none
  | .write i =>
    match s.phase i with
    | .sending call pkts unsealed (next :: rest) =>
      some { s.goto i (.sending call pkts unsealed rest) with
        written := s.written ++ [(call, next)] }
    | _ => none
  | .finish i =>
    match s.phase i with
    | .sending call pkts [] [] =>
      some { s.goto i .idle with
        holder := none
        completed := s.completed ++ [(call, pkts)] }
    | _ => none
  | .fail i =>
    match s.phase i with
    | .sending _ _ _ _ => some { s.goto i .idle with holder := none }
    | _ => none

/-! ## What a step can do -/

/-- The steps, by the phase they are taken in. -/
inductive Move (inner : Inner) (s : Senders ι) : SendEvent ι → Senders ι → Prop
  | sendPacket {i : ι} {pkt : Bytes} (hidle : s.phase i = .idle) :
      Move inner s (.sendPacket i pkt)
        { s.goto i (.reserved s.started (reserve s.session 1).2 pkt) with
          session := (reserve s.session 1).1
          started := s.started + 1
          taken := s.taken + 1 }
  | nothing {i : ι} (hidle : s.phase i = .idle) :
      Move inner s (.sendPackets i [])
        { s with
          started := s.started + 1
          completed := s.completed ++ [(s.started, [])] }
  | sendPackets {i : ι} {pkts : List Bytes} (hidle : s.phase i = .idle) :
      Move inner s (.sendPackets i pkts)
        { s.goto i (.queued s.started pkts) with started := s.started + 1 }
  | lockReserved {i : ι} {call seq : ℕ} {pkt : Bytes} (hphase : s.phase i = .reserved call seq pkt) :
      Move inner s (.lock i)
        { s.goto i (.sending call [pkt] [⟨seq, .single pkt⟩] []) with holder := some i }
  | lockQueued {i : ι} {call : ℕ} {pkts : List Bytes} (hphase : s.phase i = .queued call pkts) :
      Move inner s (.lock i) { s.goto i (.locked call pkts) with holder := some i }
  | reserve {i : ι} {call : ℕ} {pkts : List Bytes} (hphase : s.phase i = .locked call pkts) :
      Move inner s (.reserve i)
        { s.goto i (.sending call pkts
            (numbered (reserve s.session (framesOf inner s.session pkts).length).2
              (framesOf inner s.session pkts)) []) with
          session := (reserve s.session (framesOf inner s.session pkts).length).1
          taken := s.taken + (framesOf inner s.session pkts).length }
  | sealNext {i : ι} {call : ℕ} {pkts : List Bytes} {next : Numbered} {rest unwritten : List Numbered}
      (hphase : s.phase i = .sending call pkts (next :: rest) unwritten) :
      Move inner s (.sealNext i)
        { s.goto i (.sending call pkts rest (unwritten ++ [next])) with
          sealings := s.sealings ++ [next.record] }
  | write {i : ι} {call : ℕ} {pkts : List Bytes} {next : Numbered} {unsealed rest : List Numbered}
      (hphase : s.phase i = .sending call pkts unsealed (next :: rest)) :
      Move inner s (.write i)
        { s.goto i (.sending call pkts unsealed rest) with
          written := s.written ++ [(call, next)] }
  | finish {i : ι} {call : ℕ} {pkts : List Bytes} (hphase : s.phase i = .sending call pkts [] []) :
      Move inner s (.finish i)
        { s.goto i .idle with
          holder := none
          completed := s.completed ++ [(call, pkts)] }
  | fail {i : ι} {call : ℕ} {pkts : List Bytes} {unsealed unwritten : List Numbered}
      (hphase : s.phase i = .sending call pkts unsealed unwritten) :
      Move inner s (.fail i) { s.goto i .idle with holder := none }

theorem move_of_step {s s' : Senders ι} {event : SendEvent ι}
    (h : senderStep inner s event = some s') : Move inner s event s' := by
  cases event with
  | sendPackets i pkts =>
    simp only [senderStep] at h
    split at h
    · rename_i hidle
      split_ifs at h with hnil
      · subst hnil
        cases h
        exact .nothing hidle
      · cases h
        exact .sendPackets hidle
    · cases h
  | lock i =>
    simp only [senderStep] at h
    split_ifs at h with hheld
    split at h <;> cases h
    · rename_i hphase
      exact .lockReserved hphase
    · rename_i hphase
      exact .lockQueued hphase
  | _ =>
    -- the phase of the goroutine is the one that the event needs
    simp only [senderStep] at h
    split at h <;> cases h
    constructor
    assumption

/-! ## Numbers -/

theorem frames_numbered (baseSeq : ℕ) (frames : List Frame) :
    (numbered baseSeq frames).map Numbered.frame = frames := by
  rw [numbered, List.map_map]
  exact List.zipIdx_map_fst 0 frames

theorem seqs_numbered {last : ℕ} {frames : List Frame} (h : last + frames.length < 2 ^ 64) :
    (numbered ((last + 1) % 2 ^ 64) frames).map Numbered.seq =
      List.range' (last + 1) frames.length := by
  have hgeneral : ∀ (frames : List Frame) (i : ℕ), last + i + frames.length < 2 ^ 64 →
      ((frames.zipIdx i).map fun (frame, i) =>
        (⟨((last + 1) % 2 ^ 64 + i) % 2 ^ 64, frame⟩ : Numbered)).map Numbered.seq =
          List.range' (last + 1 + i) frames.length := by
    intro frames
    induction frames with
    | nil => intro i _; rfl
    | cons frame rest ih =>
      intro i hlt
      rw [List.length_cons] at hlt
      have hseq : ((last + 1) % 2 ^ 64 + i) % 2 ^ 64 = last + 1 + i := by
        rw [Nat.mod_add_mod, Nat.mod_eq_of_lt (by omega)]
      rw [List.zipIdx_cons, List.map_cons, List.map_cons, ih (i + 1) (by omega),
        List.length_cons, List.range'_succ]
      exact congrArg (· :: _) hseq
  exact hgeneral frames 0 h

/-- The numbers a goroutine has reserved and not sealed. -/
def Phase.unsealedSeqs : Phase → List ℕ
  | .reserved _ seq _ => [seq]
  | .sending _ _ unsealed _ => unsealed.map Numbered.seq
  | _ => []

/-- The numbers a goroutine has reserved and not written. -/
def Phase.unwrittenSeqs : Phase → List ℕ
  | .reserved _ seq _ => [seq]
  | .sending _ _ unsealed unwritten => (unwritten ++ unsealed).map Numbered.seq
  | _ => []

/-- As long as the counter has not run over, the numbers are tickets, for sealing and for
writing. -/
structure Ticketed (s : Senders ι) : Prop where
  sendSeq : s.session.sendSeq = s.taken
  sealing : Distributed (s.sealings.map Record.seq) (Phase.unsealedSeqs ∘ s.phase) s.taken
  writing : Distributed (s.written.map fun w => w.2.seq) (Phase.unwrittenSeqs ∘ s.phase) s.taken

theorem Numbered.record_seq (item : Numbered) : item.record.seq = item.seq := by
  obtain ⟨seq, frame⟩ := item
  cases frame with
  | single packet => rfl
  | batch packets => rfl

omit [DecidableEq ι] in
theorem ticketed_start (h : session.sendSeq = 0) : Ticketed (Senders.start session : Senders ι) :=
  ⟨h, distributed_start, distributed_start⟩

theorem Ticketed.move {s s' : Senders ι} {event : SendEvent ι} (h : Ticketed s)
    (hmove : Move inner s event s') (hlt : s'.taken < 2 ^ 64) : Ticketed s' := by
  obtain ⟨hseq, hseal, hwrite⟩ := h
  -- a goroutine that goes on with a part of its numbers
  have hkeep : ∀ (i : ι) (phase : Phase),
      phase.unsealedSeqs.Sublist ((Phase.unsealedSeqs ∘ s.phase) i) →
      phase.unwrittenSeqs.Sublist ((Phase.unwrittenSeqs ∘ s.phase) i) →
      Distributed (s.sealings.map Record.seq)
          (Phase.unsealedSeqs ∘ Function.update s.phase i phase) s.taken ∧
        Distributed (s.written.map fun w => w.2.seq)
          (Phase.unwrittenSeqs ∘ Function.update s.phase i phase) s.taken := by
    intro i phase hsealed hwritten
    rw [Function.comp_update, Function.comp_update]
    exact ⟨hseal.discard hsealed, hwrite.discard hwritten⟩
  -- a goroutine that draws numbers
  have hdraw : ∀ (i : ι) (phase : Phase) (count : ℕ), (s.phase i).unsealedSeqs = [] →
      (s.phase i).unwrittenSeqs = [] →
      phase.unsealedSeqs = List.range' (s.taken + 1) count →
      phase.unwrittenSeqs = List.range' (s.taken + 1) count →
      Distributed (s.sealings.map Record.seq)
          (Phase.unsealedSeqs ∘ Function.update s.phase i phase) (s.taken + count) ∧
        Distributed (s.written.map fun w => w.2.seq)
          (Phase.unwrittenSeqs ∘ Function.update s.phase i phase) (s.taken + count) := by
    intro i phase count hnone hnone' hsealed hwritten
    rw [Function.comp_update, Function.comp_update, hsealed, hwritten]
    exact ⟨hseal.draw hnone count, hwrite.draw hnone' count⟩
  cases hmove with
  | @sendPacket i pkt hidle =>
    change s.taken + 1 < 2 ^ 64 at hlt
    have hreserve := reserve_of_lt (show s.session.sendSeq + 1 < 2 ^ 64 by omega)
    have hnumber : (reserve s.session 1).2 = s.taken + 1 := by
      rw [hreserve, hseq]
      exact Nat.mod_eq_of_lt hlt
    have hone : [(reserve s.session 1).2] = List.range' (s.taken + 1) 1 := by
      rw [hnumber]
      rfl
    obtain ⟨hsealing, hwriting⟩ :=
      hdraw i (.reserved s.started (reserve s.session 1).2 pkt) 1 (by rw [hidle]; rfl)
        (by rw [hidle]; rfl) hone hone
    refine ⟨?_, hsealing, hwriting⟩
    rw [hreserve]
    exact congrArg (· + 1) hseq
  | nothing hidle => exact ⟨hseq, hseal, hwrite⟩
  | @sendPackets i pkts hidle =>
    obtain ⟨hsealing, hwriting⟩ :=
      hkeep i (.queued s.started pkts) (List.nil_sublist _) (List.nil_sublist _)
    exact ⟨hseq, hsealing, hwriting⟩
  | @lockReserved i call seq pkt hphase =>
    obtain ⟨hsealing, hwriting⟩ := hkeep i (.sending call [pkt] [⟨seq, .single pkt⟩] [])
      (by rw [Function.comp_apply, hphase]; exact List.Sublist.refl _)
      (by rw [Function.comp_apply, hphase]; exact List.Sublist.refl _)
    exact ⟨hseq, hsealing, hwriting⟩
  | @lockQueued i call pkts hphase =>
    obtain ⟨hsealing, hwriting⟩ :=
      hkeep i (.locked call pkts) (List.nil_sublist _) (List.nil_sublist _)
    exact ⟨hseq, hsealing, hwriting⟩
  | @reserve i call pkts hphase =>
    have hsum : s.session.sendSeq + (framesOf inner s.session pkts).length < 2 ^ 64 := by
      rwa [hseq]
    have hreserve := reserve_of_lt hsum
    have hnumbers := seqs_numbered hsum
    rw [hseq] at hnumbers
    have hbase : (reserve s.session (framesOf inner s.session pkts).length).2 =
        (s.taken + 1) % 2 ^ 64 := by
      rw [hreserve, hseq]
    obtain ⟨hsealing, hwriting⟩ := hdraw i
      (.sending call pkts
        (numbered (reserve s.session (framesOf inner s.session pkts).length).2
          (framesOf inner s.session pkts)) [])
      (framesOf inner s.session pkts).length (by rw [hphase]; rfl) (by rw [hphase]; rfl)
      (by rw [hbase]; exact hnumbers) (by rw [hbase]; exact hnumbers)
    refine ⟨?_, hsealing, hwriting⟩
    rw [hreserve]
    exact congrArg (· + (framesOf inner s.session pkts).length) hseq
  | @sealNext i call pkts next rest unwritten hphase =>
    refine ⟨hseq, ?_, ?_⟩
    · have hused := hseal.use (i := i) (t := next.seq)
        (show (Phase.unsealedSeqs ∘ s.phase) i = next.seq :: rest.map Numbered.seq by
          rw [Function.comp_apply, hphase]; rfl)
      change Distributed ((s.sealings ++ [next.record]).map Record.seq)
        (Phase.unsealedSeqs ∘ Function.update s.phase i _) s.taken
      rw [List.map_append, List.map_singleton, next.record_seq, Function.comp_update]
      exact hused
    · -- a sealed record waits to be written in the place it had
      refine (hkeep i (.sending call pkts rest (unwritten ++ [next])) ?_ ?_).2
      · rw [Function.comp_apply, hphase]
        exact List.sublist_cons_self _ _
      · rw [Function.comp_apply, hphase]
        change ((unwritten ++ [next] ++ rest).map Numbered.seq).Sublist
          ((unwritten ++ next :: rest).map Numbered.seq)
        rw [List.append_assoc, List.singleton_append]
  | @write i call pkts next unsealed rest hphase =>
    refine ⟨hseq, ?_, ?_⟩
    · refine (hkeep i (.sending call pkts unsealed rest) ?_ ?_).1
      · rw [Function.comp_apply, hphase]
        exact List.Sublist.refl _
      · rw [Function.comp_apply, hphase]
        exact List.sublist_cons_self _ _
    · have hused := hwrite.use (i := i) (t := next.seq)
        (show (Phase.unwrittenSeqs ∘ s.phase) i = next.seq :: (rest ++ unsealed).map Numbered.seq by
          rw [Function.comp_apply, hphase]; rfl)
      change Distributed ((s.written ++ [(call, next)]).map fun w => w.2.seq)
        (Phase.unwrittenSeqs ∘ Function.update s.phase i _) s.taken
      rw [List.map_append, List.map_singleton, Function.comp_update]
      exact hused
  | @finish i call pkts hphase =>
    obtain ⟨hsealing, hwriting⟩ := hkeep i .idle (List.nil_sublist _) (List.nil_sublist _)
    exact ⟨hseq, hsealing, hwriting⟩
  | @fail i call pkts unsealed unwritten hphase =>
    obtain ⟨hsealing, hwriting⟩ := hkeep i .idle (List.nil_sublist _) (List.nil_sublist _)
    exact ⟨hseq, hsealing, hwriting⟩

/-- Numbers are only ever taken. -/
theorem Move.taken_le {s s' : Senders ι} {event : SendEvent ι}
    (h : Move inner s event s') : s.taken ≤ s'.taken := by
  cases h with
  | sendPacket => exact Nat.le_add_right _ _
  | reserve => exact Nat.le_add_right _ _
  | _ => exact le_refl _

/-- The numbers are tickets in every run that has not used up the counter. -/
theorem ticketed_reaches {ok : Senders ι → SendEvent ι → Prop} {state : Senders ι}
    (hstart : session.sendSeq = 0) (h : Reaches (senderStep inner) ok (Senders.start session) state)
    (hlt : state.taken < 2 ^ 64) : Ticketed state := by
  refine h.invariant (fun s => s.taken < 2 ^ 64 → Ticketed s) ?_ ?_ hlt
  · exact fun _ => ticketed_start hstart
  · intro s event next ih _ hstep hlt
    have hmove := move_of_step hstep
    exact (ih (lt_of_le_of_lt hmove.taken_le hlt)).move hmove hlt

end Machine

/-! ## Nonces and keys -/

/-- Two windows of key material that are read at different places differ.  This is what an
injective key derivation gives: the bytes at different places are different outputs. -/
def Separates (material : Bytes) : Prop :=
  ∀ a b n, a ≠ b → nonceLen ≤ n → a + n ≤ material.length → b + n ≤ material.length →
    (material.drop a).take n ≠ (material.drop b).take n

variable {crypto : Crypto}

theorem length_hkdfBlocks (hhmac : ∀ key message, (crypto.hmac key message).length = 32)
    (prk info : Bytes) (blocks counter : ℕ) (previous : Bytes) :
    (hkdfBlocks crypto prk info blocks counter previous).length = 32 * blocks := by
  induction blocks generalizing counter previous with
  | zero => rfl
  | succ blocks ih =>
    rw [hkdfBlocks, List.length_append, hhmac, ih]
    omega

theorem length_hkdfExpand (hhmac : ∀ key message, (crypto.hmac key message).length = 32)
    (prk info : Bytes) (length : ℕ) : (hkdfExpand crypto prk info length).length = length := by
  rw [hkdfExpand, List.length_take, length_hkdfBlocks hhmac]
  omega

variable {material : Bytes}

theorem length_deriveTLSExporterKeyMaterial {handshake : Handshake} {length : ℕ}
    (h : deriveTLSExporterKeyMaterial crypto inner handshake length = .ok material) :
    material.length = length := by
  unfold deriveTLSExporterKeyMaterial at h
  split at h
  · cases h
  · split at h
    · cases h
    · split_ifs at h with hlength
      injection h with h
      rw [← h]
      exact not_not.mp hlength

/-- Key material has the length that is asked for, from either source. -/
theorem length_deriveSessionKeyMaterial {secret : Bytes} {handshake : Handshake} {options : Options}
    (hhmac : ∀ key message, (crypto.hmac key message).length = 32)
    (h : deriveSessionKeyMaterial crypto inner secret handshake options = .ok material) :
    material.length = materialLen handshake.suite := by
  have hown : (deriveKeyMaterial crypto secret handshake (materialLen handshake.suite)).length =
      materialLen handshake.suite := length_hkdfExpand hhmac _ _ _
  unfold deriveSessionKeyMaterial at h
  dsimp only at h
  split_ifs at h
  · exact length_deriveTLSExporterKeyMaterial h
  · injection h with h
    rw [← h]
    exact hown
  · split at h
    · rename_i hexported
      injection h with h
      rw [← h]
      exact length_deriveTLSExporterKeyMaterial hexported
    · injection h with h
      rw [← h]
      exact hown

/-- The two directions read their keys and IVs at different places. -/
theorem directionKeys_ne {suite : Suite} (h : Separates material)
    (hlength : material.length = materialLen suite) :
    (directionKeys suite material).clientKey ≠ (directionKeys suite material).serverKey ∧
      (directionKeys suite material).clientIV ≠ (directionKeys suite material).serverIV := by
  have hkey : nonceLen ≤ keyLen suite := by
    cases suite with
    | aes256GCMX25519 => decide
    | aes128GCMX25519 => decide
    | chaCha20Poly1305X25519 => decide
  have hpos : 0 < nonceLen := by decide
  unfold materialLen at hlength
  constructor
  · exact h 0 (keyLen suite) (keyLen suite) (by omega) hkey (by omega) (by omega)
  · have hlast : (directionKeys suite material).serverIV =
        (material.drop (keyLen suite * 2 + nonceLen)).take nonceLen := by
      refine (List.take_of_length_le ?_).symm
      change (material.drop (keyLen suite * 2 + nonceLen)).length ≤ nonceLen
      rw [List.length_drop]
      omega
    rw [hlast]
    exact h (keyLen suite * 2) (keyLen suite * 2 + nonceLen) nonceLen (by omega) le_rfl (by omega)
      (by omega)

theorem sends_ne_peer {keys : DirectionKeys} (hkey : keys.clientKey ≠ keys.serverKey)
    (hiv : keys.clientIV ≠ keys.serverIV) (role : Side) :
    (keys.sends role).1 ≠ (keys.sends (peerSide role)).1 ∧
      (keys.sends role).2 ≠ (keys.sends (peerSide role)).2 := by
  cases role with
  | client => exact ⟨hkey, hiv⟩
  | server => exact ⟨hkey.symm, hiv.symm⟩

/-- **Nonces.**  In every run of the senders of a new session that takes fewer than 2^64 numbers,
failed sends included, no nonce is used twice; and the keys and IVs of its two directions come
from the handshake and differ. -/
theorem nonces_unique {ι : Type} [DecidableEq ι] {crypto : Crypto} {inner : Inner} {role : Side}
    {privateKey : Bytes} {handshake : Handshake} {options : Options} {session : Session}
    (hnew : newSession crypto inner role privateKey handshake options = .ok session)
    (hhmac : ∀ key message, (crypto.hmac key message).length = 32)
    (hseparates : ∀ secret material,
      deriveSessionKeyMaterial crypto inner secret handshake options = .ok material →
        Separates material)
    {state : Senders ι}
    (hreach : Reaches (senderStep inner) (fun _ _ => True) (Senders.start session) state)
    (hlt : state.taken < 2 ^ 64) :
    (state.sealings.map fun record => dataNonce session.sendIV record.seq).Nodup ∧
      (session.sendEncrypted = true ∨ session.recvEncrypted = true → ∃ material,
        Keyed crypto inner role privateKey handshake options session material ∧
        ((directionKeys handshake.suite material).sends role).1 ≠
          ((directionKeys handshake.suite material).sends (peerSide role)).1 ∧
        ((directionKeys handshake.suite material).sends role).2 ≠
          ((directionKeys handshake.suite material).sends (peerSide role)).2) := by
  obtain ⟨hfresh, hkeyed⟩ := newSession_eq_ok hnew
  constructor
  · obtain ⟨-, hseal, -⟩ := ticketed_reaches hfresh.sendSeq hreach hlt
    have hnonces : state.sealings.map (fun record => dataNonce session.sendIV record.seq) =
        (state.sealings.map Record.seq).map (dataNonce session.sendIV) := by
      rw [List.map_map]
      rfl
    rw [hnonces]
    refine hseal.used_nodup.map_on fun a ha b hb heq => ?_
    exact dataNonce_injective (lt_of_le_of_lt (hseal.used_le a ha).2 hlt)
      (lt_of_le_of_lt (hseal.used_le b hb).2 hlt) heq
  · intro hencrypted
    obtain ⟨material, hkeys⟩ := hkeyed hencrypted
    obtain ⟨secret, -, hmaterial⟩ := hkeys.material_eq
    obtain ⟨hkey, hiv⟩ := directionKeys_ne (hseparates secret material hmaterial)
      (length_deriveSessionKeyMaterial hhmac hmaterial)
    exact ⟨material, hkeys, sends_ne_peer hkey hiv role⟩

/-- Material without a repeated byte. -/
theorem separates_of_nodup (h : material.Nodup) : Separates material := by
  intro a b n hne hn ha hb heq
  have hpos : 0 < n := lt_of_lt_of_le (by decide) hn
  have hfirst := congrArg (fun bytes => bytes[0]?) heq
  simp only [List.getElem?_take_of_lt hpos, List.getElem?_drop, Nat.add_zero] at hfirst
  rw [List.getElem?_eq_getElem (by omega), List.getElem?_eq_getElem (by omega)] at hfirst
  exact hne ((List.Nodup.getElem_inj_iff h).mp (Option.some.inj hfirst))

/-- A key derivation whose block `c` is the bytes from `32 * c` on. -/
def countingCrypto : Crypto :=
  { plainCrypto with
    hmac := fun _ message =>
      (List.range 32).map fun i => UInt8.ofNat (32 * (message.getLastD 0).toNat + i) }

theorem countingCrypto_material (secret : Bytes) :
    deriveSessionKeyMaterial countingCrypto batchInner secret plainHandshake ⟨7, none, none⟩ =
      .ok ((List.range 88).map fun i => UInt8.ofNat (32 + i)) := by
  have hblocks : ∀ prk info blocks counter previous,
      hkdfBlocks countingCrypto prk info blocks counter previous =
        hkdfBlocks countingCrypto [] info blocks counter previous := by
    intro prk info blocks
    induction blocks with
    | zero => exact fun _ _ => rfl
    | succ blocks ih =>
      intro counter previous
      exact congrArg (countingCrypto.hmac [] (previous ++ info ++ [UInt8.ofNat counter]) ++ ·)
        (ih _ _)
  have hsource : requestedKeySource ⟨7, none, none⟩ = "auto" := rfl
  have hown : ∀ secret, deriveKeyMaterial countingCrypto secret plainHandshake 88 =
      (List.range 88).map fun i => UInt8.ofNat (32 + i) := by
    intro secret
    rw [deriveKeyMaterial, hkdfExpand, hblocks]
    decide
  unfold deriveSessionKeyMaterial
  exact congrArg Except.ok (hown secret)

/-- The client of `plainHandshake` with the keys of `countingCrypto`. -/
def countingClient : Session :=
  { plainSession .client 7 with
    sendIV := (List.range 12).map fun i => UInt8.ofNat (96 + i)
    recvIV := (List.range 12).map fun i => UInt8.ofNat (108 + i) }

theorem newSession_counting :
    newSession countingCrypto batchInner .client [] plainHandshake ⟨7, none, none⟩ =
      .ok countingClient := by
  have hepoch : sessionEpoch countingCrypto plainHandshake ⟨7, none, none⟩ = 7 :=
    if_neg fun h => Bool.false_ne_true h.2
  unfold newSession blankSession
  refine seq_eq_ok.mpr ⟨rfl, bind_eq_ok.mpr ⟨[], rfl, ?_⟩⟩
  exact bind_eq_ok.mpr ⟨_, countingCrypto_material [], rfl⟩

/-- Two goroutines: the second seals its record before the first, which has the smaller number. -/
theorem nonces_unique_two_senders :
    ∃ state : Senders Bool,
      Reaches (senderStep batchInner) (fun _ _ => True) (Senders.start countingClient) state ∧
      state.sealings.map Record.seq = [2, 1] ∧
      (state.sealings.map fun record => dataNonce countingClient.sendIV record.seq).Nodup := by
  have hreach := reaches_of_replay (show replay (senderStep batchInner) (fun _ _ => True)
    (Senders.start countingClient) [.sendPacket false [5], .sendPacket true [6], .lock true,
      .sealNext true, .fail true, .lock false, .sealNext false] = some _ from rfl)
  have hseparates : ∀ secret material, deriveSessionKeyMaterial countingCrypto batchInner secret
      plainHandshake ⟨7, none, none⟩ = .ok material → Separates material := by
    intro secret material hmaterial
    rw [countingCrypto_material] at hmaterial
    injection hmaterial with hmaterial
    rw [← hmaterial]
    exact separates_of_nodup (by decide +kernel)
  have hhmac : ∀ key message, (countingCrypto.hmac key message).length = 32 := by
    intro key message
    exact List.length_map _
  exact ⟨_, hreach, rfl,
    (nonces_unique newSession_counting hhmac hseparates hreach (show 2 < 2 ^ 64 by decide)).1⟩

/-! ## The packets of a call -/

/-- The packets that call `call` has written. -/
def writtenBy (written : List (ℕ × Numbered)) (call : ℕ) : List Bytes :=
  (written.filter (·.1 = call)).flatMap fun w => w.2.frame.packets

/-- A call in progress: its packets and those that are not written yet. -/
structure Account where
  call : ℕ
  pkts : List Bytes
  rest : List Bytes

def Phase.account : Phase → Option Account
  | .idle => none
  | .reserved call _ pkt => some ⟨call, [pkt], [pkt]⟩
  | .queued call pkts => some ⟨call, pkts, pkts⟩
  | .locked call pkts => some ⟨call, pkts, pkts⟩
  | .sending call pkts unsealed unwritten =>
    some ⟨call, pkts, (unwritten ++ unsealed).flatMap fun item => item.frame.packets⟩

/-- Every call has written its packets up to those that are left. -/
structure Accounted {ι : Type} (written : List (ℕ × Numbered)) (completed : List (ℕ × List Bytes))
    (started : ℕ) (account : ι → Option Account) : Prop where
  written_lt : ∀ w ∈ written, w.1 < started
  open_lt : ∀ i, ∀ a ∈ account i, a.call < started
  open_eq : ∀ i, ∀ a ∈ account i, writtenBy written a.call ++ a.rest = a.pkts
  open_ne : ∀ i j, i ≠ j → ∀ a ∈ account i, ∀ b ∈ account j, a.call ≠ b.call
  done_lt : ∀ c ∈ completed, c.1 < started
  done_eq : ∀ c ∈ completed, writtenBy written c.1 = c.2
  done_ne : ∀ c ∈ completed, ∀ i, ∀ a ∈ account i, a.call ≠ c.1

variable {pkts : List Bytes}

section Accounts

variable {ι : Type} [DecidableEq ι] {written : List (ℕ × Numbered)}
  {completed : List (ℕ × List Bytes)} {started : ℕ} {account : ι → Option Account}

theorem writtenBy_of_lt (h : ∀ w ∈ written, w.1 < started) : writtenBy written started = [] := by
  have hnone : written.filter (·.1 = started) = [] := by
    refine List.filter_eq_nil_iff.mpr fun w hw heq => ?_
    have := h w hw
    have := of_decide_eq_true heq
    omega
  rw [writtenBy, hnone]
  rfl

theorem writtenBy_append (call : ℕ) (item : Numbered) (c : ℕ) :
    writtenBy (written ++ [(call, item)]) c =
      writtenBy written c ++ (if call = c then item.frame.packets else []) := by
  unfold writtenBy
  congr 1
  by_cases hcall : call = c
  · simp [hcall]
  · simp [hcall]

theorem mem_update_account {i j : ι} {new : Option Account} {a : Account}
    (h : a ∈ Function.update account i new j) : (j = i ∧ a ∈ new) ∨ (j ≠ i ∧ a ∈ account j) := by
  rcases eq_or_ne j i with rfl | hne
  · rw [Function.update_self] at h
    exact Or.inl ⟨rfl, h⟩
  · rw [Function.update_of_ne hne] at h
    exact Or.inr ⟨hne, h⟩

/-- A new call. -/
theorem Accounted.begin (h : Accounted written completed started account) (i : ι)
    (pkts : List Bytes) :
    Accounted written completed (started + 1)
      (Function.update account i (some ⟨started, pkts, pkts⟩)) := by
  have hnone := writtenBy_of_lt h.written_lt
  refine ⟨?_, ?_, ?_, ?_, ?_, h.done_eq, ?_⟩
  · exact fun w hw => Nat.lt_succ_of_lt (h.written_lt w hw)
  · intro j a ha
    rcases mem_update_account ha with ⟨-, hnew⟩ | ⟨-, hold⟩
    · cases hnew
      exact Nat.lt_succ_self started
    · exact Nat.lt_succ_of_lt (h.open_lt j a hold)
  · intro j a ha
    rcases mem_update_account ha with ⟨-, hnew⟩ | ⟨-, hold⟩
    · cases hnew
      rw [hnone]
      rfl
    · exact h.open_eq j a hold
  · intro j k hne a ha b hb heq
    rcases mem_update_account ha with ⟨rfl, hnew⟩ | ⟨-, hold⟩
    · cases hnew
      rcases mem_update_account hb with ⟨rfl, -⟩ | ⟨-, hold'⟩
      · exact hne rfl
      · exact absurd heq.symm (Nat.ne_of_lt (h.open_lt k b hold'))
    · rcases mem_update_account hb with ⟨rfl, hnew⟩ | ⟨-, hold'⟩
      · cases hnew
        exact absurd heq (Nat.ne_of_lt (h.open_lt j a hold))
      · exact h.open_ne j k hne a hold b hold' heq
  · exact fun c hc => Nat.lt_succ_of_lt (h.done_lt c hc)
  · intro c hc j a ha heq
    rcases mem_update_account ha with ⟨-, hnew⟩ | ⟨-, hold⟩
    · cases hnew
      exact absurd heq.symm (Nat.ne_of_lt (h.done_lt c hc))
    · exact h.done_ne c hc j a hold heq

/-- A call that ends, with or without an error. -/
theorem Accounted.close (h : Accounted written completed started account) (i : ι) :
    Accounted written completed started (Function.update account i none) := by
  have hold : ∀ j, ∀ a ∈ Function.update account i none j, a ∈ account j := by
    intro j a ha
    rcases mem_update_account ha with ⟨-, hnew⟩ | ⟨-, hold⟩
    · cases hnew
    · exact hold
  exact ⟨h.written_lt, fun j a ha => h.open_lt j a (hold j a ha),
    fun j a ha => h.open_eq j a (hold j a ha),
    fun j k hne a ha b hb => h.open_ne j k hne a (hold j a ha) b (hold k b hb), h.done_lt, h.done_eq,
    fun c hc j a ha => h.done_ne c hc j a (hold j a ha)⟩

/-- A call that returns nil has written all its packets. -/
theorem Accounted.complete (h : Accounted written completed started account) {i : ι} {call : ℕ}
    (hi : account i = some ⟨call, pkts, []⟩) :
    Accounted written (completed ++ [(call, pkts)]) started (Function.update account i none) := by
  have hclosed := h.close i
  have hmine := h.open_eq i _ hi
  rw [List.append_nil] at hmine
  refine ⟨h.written_lt, hclosed.open_lt, hclosed.open_eq, hclosed.open_ne, ?_, ?_, ?_⟩
  · exact List.forall_mem_append.mpr ⟨h.done_lt, List.forall_mem_singleton.mpr (h.open_lt i _ hi)⟩
  · exact List.forall_mem_append.mpr ⟨h.done_eq, List.forall_mem_singleton.mpr hmine⟩
  · refine List.forall_mem_append.mpr ⟨hclosed.done_ne, List.forall_mem_singleton.mpr fun j a ha => ?_⟩
    rcases mem_update_account ha with ⟨-, hnew⟩ | ⟨hne, hold⟩
    · cases hnew
    · exact h.open_ne j i hne a hold _ hi

omit [DecidableEq ι] in
/-- `SendPackets` without packets. -/
theorem Accounted.nothing (h : Accounted written completed started account) :
    Accounted written (completed ++ [(started, [])]) (started + 1) account := by
  refine ⟨?_, ?_, h.open_eq, h.open_ne, ?_, ?_, ?_⟩
  · exact fun w hw => Nat.lt_succ_of_lt (h.written_lt w hw)
  · exact fun i a ha => Nat.lt_succ_of_lt (h.open_lt i a ha)
  · exact List.forall_mem_append.mpr ⟨fun c hc => Nat.lt_succ_of_lt (h.done_lt c hc),
      List.forall_mem_singleton.mpr (Nat.lt_succ_self started)⟩
  · exact List.forall_mem_append.mpr ⟨h.done_eq, List.forall_mem_singleton.mpr (writtenBy_of_lt h.written_lt)⟩
  · exact List.forall_mem_append.mpr ⟨h.done_ne, List.forall_mem_singleton.mpr fun i a ha => Nat.ne_of_lt (h.open_lt i a ha)⟩

/-- **One record is written**, by the call it belongs to. -/
theorem Accounted.write (h : Accounted written completed started account) {i : ι} {call : ℕ}
    {pkts rest : List Bytes} {item : Numbered}
    (hi : account i = some ⟨call, pkts, item.frame.packets ++ rest⟩) :
    Accounted (written ++ [(call, item)]) completed started
      (Function.update account i (some ⟨call, pkts, rest⟩)) := by
  have hother : ∀ c, call ≠ c → writtenBy (written ++ [(call, item)]) c = writtenBy written c := by
    intro c hne
    rw [writtenBy_append, if_neg hne, List.append_nil]
  have hlt : call < started := h.open_lt i _ hi
  have hothers : ∀ j, j ≠ i → ∀ a ∈ account j, a.call ≠ call :=
    fun j hne a ha => h.open_ne j i hne a ha _ hi
  have hdone : ∀ c ∈ completed, call ≠ c.1 := fun c hc => h.done_ne c hc i _ hi
  refine ⟨?_, ?_, ?_, ?_, h.done_lt, ?_, ?_⟩
  · exact List.forall_mem_append.mpr ⟨h.written_lt, List.forall_mem_singleton.mpr hlt⟩
  · intro j a ha
    rcases mem_update_account ha with ⟨-, hnew⟩ | ⟨-, hold⟩
    · cases hnew
      exact hlt
    · exact h.open_lt j a hold
  · intro j a ha
    rcases mem_update_account ha with ⟨-, hnew⟩ | ⟨hne, hold⟩
    · cases hnew
      rw [writtenBy_append, if_pos rfl, List.append_assoc]
      exact h.open_eq i _ hi
    · rw [hother a.call (hothers j hne a hold).symm]
      exact h.open_eq j a hold
  · intro j k hne a ha b hb
    rcases mem_update_account ha with ⟨rfl, hnew⟩ | ⟨hne', hold⟩
    · cases hnew
      rcases mem_update_account hb with ⟨rfl, -⟩ | ⟨hne', hold'⟩
      · exact absurd rfl hne
      · exact (hothers k hne' b hold').symm
    · rcases mem_update_account hb with ⟨rfl, hnew⟩ | ⟨-, hold'⟩
      · cases hnew
        exact hothers j hne' a hold
      · exact h.open_ne j k hne a hold b hold'
  · intro c hc
    rw [hother c.1 (hdone c hc)]
    exact h.done_eq c hc
  · intro c hc j a ha
    rcases mem_update_account ha with ⟨-, hnew⟩ | ⟨-, hold⟩
    · cases hnew
      exact hdone c hc
    · exact h.done_ne c hc j a hold

end Accounts

/-! ## What is written -/

section Written

variable {ι : Type} [DecidableEq ι]

/-- The records a goroutine has still to write. -/
def Phase.items : Phase → List Numbered
  | .sending _ _ unsealed unwritten => unwritten ++ unsealed
  | _ => []

/-- The session apart from its counter, the calls, and the form of the records. -/
structure Orderly (session : Session) (s : Senders ι) : Prop where
  static : s.session = { session with sendSeq := s.session.sendSeq }
  accounted : Accounted s.written s.completed s.started (Phase.account ∘ s.phase)
  items_fit : ∀ i, ∀ item ∈ (s.phase i).items, item.frame.Fits session.batchRecords
  written_fit : ∀ w ∈ s.written, w.2.frame.Fits session.batchRecords

omit [DecidableEq ι] in
theorem orderly_start (session : Session) : Orderly session (Senders.start session : Senders ι) where
  static := rfl
  accounted := ⟨nofun, fun _ => nofun, fun _ => nofun, fun _ _ _ => nofun, nofun, nofun, nofun⟩
  items_fit := fun _ => nofun
  written_fit := nofun

theorem reserve_static (session : Session) (count : ℕ) :
    (reserve session count).1 = { session with sendSeq := (reserve session count).1.sendSeq } :=
  rfl

theorem Orderly.move {s s' : Senders ι} {event : SendEvent ι} (h : Orderly session s)
    (hmove : Move inner s event s') : Orderly session s' := by
  obtain ⟨hstatic, hacc, hitems, hwritten⟩ := h
  -- a goroutine that goes on with records that fit
  have hfit : ∀ (i : ι) (phase : Phase),
      (∀ item ∈ phase.items, item.frame.Fits session.batchRecords) →
      ∀ j, ∀ item ∈ (Function.update s.phase i phase j).items,
        item.frame.Fits session.batchRecords := by
    intro i phase hphase j item hitem
    rcases eq_or_ne j i with rfl | hne
    · rw [Function.update_self] at hitem
      exact hphase item hitem
    · rw [Function.update_of_ne hne] at hitem
      exact hitems j item hitem
  have hupdate : ∀ {written completed started} (i : ι) (phase : Phase),
      Accounted written completed started
        (Function.update (Phase.account ∘ s.phase) i phase.account) →
      Accounted written completed started (Phase.account ∘ Function.update s.phase i phase) := by
    intro written completed started i phase hupdated
    rwa [Function.comp_update]
  -- a goroutine that goes on with the same call
  have hsame : ∀ (i : ι) (phase : Phase), phase.account = (s.phase i).account →
      Accounted s.written s.completed s.started
        (Phase.account ∘ Function.update s.phase i phase) := by
    intro i phase hphase
    refine hupdate i phase ?_
    rw [hphase]
    exact (Function.update_eq_self i (Phase.account ∘ s.phase)).symm ▸ hacc
  have hnone : ∀ item ∈ ([] : List Numbered), item.frame.Fits session.batchRecords := nofun
  have hmine : ∀ i phase, s.phase i = phase →
      ∀ item ∈ phase.items, item.frame.Fits session.batchRecords := by
    rintro i phase rfl
    exact hitems i
  cases hmove with
  | @sendPacket i pkt hidle =>
    refine ⟨?_, hupdate i _ (hacc.begin i [pkt]), hfit i _ hnone, hwritten⟩
    rw [reserve_static, hstatic]
  | nothing hidle => exact ⟨hstatic, hacc.nothing, hitems, hwritten⟩
  | @sendPackets i pkts hidle =>
    exact ⟨hstatic, hupdate i _ (hacc.begin i pkts), hfit i _ hnone, hwritten⟩
  | @lockReserved i call seq pkt hphase =>
    refine ⟨hstatic, hsame i _ ?_, hfit i _ ?_, hwritten⟩
    · rw [hphase]
      rfl
    · intro item hitem
      rw [List.mem_singleton.mp hitem]
      trivial
  | @lockQueued i call pkts hphase =>
    refine ⟨hstatic, hsame i _ ?_, hfit i _ hnone, hwritten⟩
    rw [hphase]
    rfl
  | @reserve i call pkts hphase =>
    have hframes := frames_numbered
      (reserve s.session (framesOf inner s.session pkts).length).2 (framesOf inner s.session pkts)
    refine ⟨?_, hsame i _ ?_, hfit i _ ?_, hwritten⟩
    · rw [reserve_static, hstatic]
    · have hpackets := packets_framesOf inner s.session pkts
      rw [← hframes, List.flatMap_map] at hpackets
      rw [hphase]
      exact congrArg (fun rest => some (Account.mk call pkts rest)) hpackets
    · intro item hitem
      have hbatch : s.session.batchRecords = session.batchRecords := by rw [hstatic]
      rw [← hbatch]
      refine fits_framesOf inner s.session pkts item.frame ?_
      rw [← hframes]
      exact List.mem_map_of_mem hitem
  | @sealNext i call pkts next rest unwritten hphase =>
    have hmove : unwritten ++ [next] ++ rest = unwritten ++ next :: rest := by
      rw [List.append_assoc, List.singleton_append]
    refine ⟨hstatic, hsame i _ ?_, hfit i _ ?_, hwritten⟩
    · rw [hphase, Phase.account, Phase.account, hmove]
    · rw [Phase.items, hmove]
      exact hmine i _ hphase
  | @write i call pkts next unsealed rest hphase =>
    have hfits := hmine i _ hphase
    refine ⟨hstatic, hupdate i _ (hacc.write ?_), hfit i _ ?_, ?_⟩
    · rw [Function.comp_apply, hphase]
      rfl
    · exact fun item hitem => hfits item (List.mem_cons_of_mem _ hitem)
    · exact List.forall_mem_append.mpr ⟨hwritten, List.forall_mem_singleton.mpr (hfits next List.mem_cons_self)⟩
  | @finish i call pkts hphase =>
    refine ⟨hstatic, hupdate i _ (hacc.complete ?_), hfit i _ hnone, hwritten⟩
    rw [Function.comp_apply, hphase]
    rfl
  | @fail i call pkts unsealed unwritten hphase =>
    exact ⟨hstatic, hupdate i _ (hacc.close i), hfit i _ hnone, hwritten⟩

/-! ## Within the window -/

/-- The number of the record a goroutine writes next. -/
def Phase.nextSeq : Phase → Option ℕ
  | .sending _ _ _ (next :: _) => some next.seq
  | _ => none

/-- No record is written whose number lies a window's size below one already written. -/
def WritesInWindow (s : Senders ι) : SendEvent ι → Prop
  | .write i => ∀ seq ∈ (s.phase i).nextSeq,
      highest (s.written.map fun w => w.2.seq) < seq + defaultReplayWindowSize
  | _ => True

instance (s : Senders ι) (event : SendEvent ι) : Decidable (WritesInWindow s event) :=
  match event with
  | .write i => inferInstanceAs (Decidable (∀ seq ∈ (s.phase i).nextSeq,
      highest (s.written.map fun w => w.2.seq) < seq + defaultReplayWindowSize))
  | .sendPacket _ _ | .sendPackets _ _ | .lock _ | .reserve _ | .sealNext _ | .finish _
  | .fail _ => .isTrue trivial

def pieceOf (w : ℕ × Numbered) : Piece := ⟨some w.2.seq, w.2.frame.packets⟩

/-- The window takes every record written so far. -/
def TakesAll (written : List (ℕ × Numbered)) : Prop :=
  deliver defaultReplayWindowSize [] (written.map pieceOf) =
    (written.flatMap fun w => w.2.frame.packets, written.map fun w => w.2.seq)

theorem TakesAll.write {written : List (ℕ × Numbered)} {w : ℕ × Numbered} (h : TakesAll written)
    (hadmits : Admits defaultReplayWindowSize (written.map fun w => w.2.seq) w.2.seq) :
    TakesAll (written ++ [w]) := by
  unfold TakesAll at h ⊢
  rw [List.map_append, deliver_append, h]
  simp only [List.map_cons, List.map_nil, pieceOf, deliver, if_pos hadmits, List.append_nil,
    List.flatMap_append, List.flatMap_cons, List.flatMap_nil, List.map_append]

/-- **One step** within the window. -/
theorem TakesAll.move {s s' : Senders ι} {event : SendEvent ι} (h : TakesAll s.written)
    (htickets : Ticketed s) (hwindow : WritesInWindow s event)
    (hmove : Move inner s event s') : TakesAll s'.written := by
  cases hmove with
  | @write i call pkts next unsealed rest hphase =>
    refine TakesAll.write h ?_
    have hheld : next.seq ∈ (Phase.unwrittenSeqs ∘ s.phase) i := by
      rw [Function.comp_apply, hphase]
      exact List.mem_cons_self
    have hclose := hwindow next.seq (by rw [hphase]; rfl)
    have hpos := (htickets.writing.held_le i next.seq hheld).1
    refine ⟨Nat.ne_of_gt hpos, htickets.writing.held_used i next.seq hheld, ?_⟩
    dsimp only
    omega
  | _ => exact h

/-- The records written so far, on the wire. -/
def Senders.wires (s : Senders ι) (session : Session) (aead : AEAD) : List Bytes :=
  s.written.map fun w => session.sealWith aead w.2.record

omit [DecidableEq ι] in
/-- The other end opens every record that is written. -/
theorem piecesOf_wires (recvInner : Inner) {receiver : Session} {aead : AEAD}
    (hpaired : Paired session receiver aead) {written : List (ℕ × Numbered)}
    (hfits : ∀ w ∈ written, w.2.frame.Fits session.batchRecords)
    (hseqs : ∀ w ∈ written, w.2.seq < 2 ^ 64) :
    piecesOf recvInner receiver (written.map fun w => session.sealWith aead w.2.record) =
        written.map pieceOf ∧
      ∀ wire ∈ written.map fun w => session.sealWith aead w.2.record, Decodes receiver wire := by
  have hinspect : ∀ w ∈ written, inspect recvInner receiver (session.sealWith aead w.2.record) =
      .ok (some (pieceOf w)) ∧ Decodes receiver (session.sealWith aead w.2.record) :=
    fun w hw => inspect_sealWith recvInner hpaired (hfits w hw) (hseqs w hw)
  constructor
  · rw [piecesOf, List.filterMap_map, ← List.filterMap_eq_map]
    refine List.filterMap_congr fun w hw => ?_
    rw [Function.comp_apply, (hinspect w hw).1]
    rfl
  · intro wire hwire
    obtain ⟨w, hw, rfl⟩ := List.mem_map.mp hwire
    exact (hinspect w hw).2

/-- What a new receiver hands out is decided by the pieces of what is written. -/
theorem handsOut_wires (recvInner : Inner) {ok : Senders ι → SendEvent ι → Prop}
    {receiver : Session} {aead : AEAD} (hpaired : Paired session receiver aead)
    (hsend : session.sendSeq = 0)
    (hreplay : receiver.replay = newReplayWindow defaultReplayWindowSize)
    (hpending : receiver.recvPending = []) {state : Senders ι}
    (hreach : Reaches (senderStep inner) ok (Senders.start session) state)
    (hlt : state.taken < 2 ^ 64) :
    HandsOut recvInner receiver (state.wires session aead)
      (deliver defaultReplayWindowSize [] (state.written.map pieceOf)).1 := by
  have horderly : Orderly session state := by
    refine hreach.invariant (Orderly session) (orderly_start session) ?_
    exact fun s event next ih _ hstep => ih.move (move_of_step hstep)
  have htickets := ticketed_reaches hsend hreach hlt
  obtain ⟨hpieces, hdecodes⟩ := piecesOf_wires recvInner hpaired
    horderly.written_fit fun w hw =>
      lt_of_le_of_lt (htickets.writing.used_le _ (List.mem_map_of_mem hw)).2 hlt
  have htracks : Tracks (normalizeReplayWindowSize defaultReplayWindowSize) receiver.replay [] := by
    rw [hreplay]
    exact tracks_newReplayWindow defaultReplayWindowSize
  have hout : HandsOut recvInner receiver (state.wires session aead)
      (receiver.recvPending ++ (deliver defaultReplayWindowSize [] (piecesOf recvInner receiver
        (state.written.map fun w => session.sealWith aead w.2.record))).1) :=
    handsOut_todo ⟨rfl, htracks⟩ hdecodes
  rwa [hpending, List.nil_append, hpieces] at hout

/-- **Concurrent senders.**  In every run in which no record is written a window's size late, a
new receiver hands out the packets of every record written, once and in the order of the writes,
and a call that returned nil has written its packets, each once and in their order. -/
theorem concurrent_senders {inner recvInner : Inner} {session receiver : Session} {aead : AEAD}
    (hpaired : Paired session receiver aead) (hsend : session.sendSeq = 0)
    (hreplay : receiver.replay = newReplayWindow defaultReplayWindowSize)
    (hpending : receiver.recvPending = []) {state : Senders ι}
    (hreach : Reaches (senderStep inner) WritesInWindow (Senders.start session) state)
    (hlt : state.taken < 2 ^ 64) :
    HandsOut recvInner receiver (state.wires session aead)
        (state.written.flatMap fun w => w.2.frame.packets) ∧
      ∀ c ∈ state.completed, writtenBy state.written c.1 = c.2 := by
  have htakes : TakesAll state.written := by
    refine hreach.invariant (fun s => s.taken < 2 ^ 64 → Ticketed s ∧ TakesAll s.written) ?_ ?_ hlt
      |>.2
    · exact fun _ => ⟨ticketed_start hsend, rfl⟩
    · intro s event next ih hwindow hstep hlt
      have hmove := move_of_step hstep
      obtain ⟨htickets, htakes⟩ := ih (lt_of_le_of_lt hmove.taken_le hlt)
      exact ⟨htickets.move hmove hlt, htakes.move htickets hwindow hmove⟩
  have horderly : Orderly session state := by
    refine hreach.invariant (Orderly session) (orderly_start session) ?_
    exact fun s event next ih _ hstep => ih.move (move_of_step hstep)
  have hout := handsOut_wires recvInner hpaired hsend hreplay hpending hreach hlt
  rw [htakes] at hout
  exact ⟨hout, horderly.accounted.done_eq⟩

/-! ## A number that waits too long -/

/-- A goroutine that holds `sendMu` can seal and write all its records and return nil. -/
theorem sends_all (inner : Inner) {s : Senders ι} {i : ι} {call : ℕ} {unsealed : List Numbered}
    (h : s.phase i = .sending call pkts unsealed []) :
    ∃ s', Reaches (senderStep inner) (fun _ _ => True) s s' ∧ s'.holder = none ∧
      (∀ j, j ≠ i → s'.phase j = s.phase j) ∧ s'.taken = s.taken ∧
      s'.written = s.written ++ unsealed.map (call, ·) ∧
      s'.completed = s.completed ++ [(call, pkts)] := by
  induction unsealed generalizing s with
  | nil =>
    have hstep : senderStep inner s (.finish i) = some { s.goto i .idle with
        holder := none
        completed := s.completed ++ [(call, pkts)] } := by
      simp [senderStep, h]
    refine ⟨_, .tail .refl trivial hstep, rfl, ?_, rfl, (List.append_nil _).symm, rfl⟩
    exact fun j hne => Function.update_of_ne hne _ _
  | cons next rest ih =>
    have hseal : senderStep inner s (.sealNext i) = some
        { s.goto i (.sending call pkts rest [next]) with
          sealings := s.sealings ++ [next.record] } := by
      simp [senderStep, h]
    have hsealed : Reaches (senderStep inner) (fun _ _ => True) s _ := .tail .refl trivial hseal
    have hwrite : senderStep inner { s.goto i (.sending call pkts rest [next]) with
          sealings := s.sealings ++ [next.record] } (.write i) = some
        { s.goto i (.sending call pkts rest []) with
          sealings := s.sealings ++ [next.record]
          written := s.written ++ [(call, next)] } := by
      simp [senderStep, Senders.goto]
    obtain ⟨s', hreach, hholder, hothers, htaken, hwritten, hcompleted⟩ :=
      ih (s := { s.goto i (.sending call pkts rest []) with
          sealings := s.sealings ++ [next.record]
          written := s.written ++ [(call, next)] }) (Function.update_self _ _ _)
    refine ⟨s', (Reaches.tail hsealed trivial hwrite).trans hreach, hholder, ?_, htaken, ?_,
      hcompleted⟩
    · intro j hne
      rw [hothers j hne]
      exact Function.update_of_ne hne _ _
    · rw [hwritten, List.append_assoc]
      rfl

end Written

theorem paired_plain : Paired (plainSession .client 7) (plainSession .server 7) plainAEAD where
  sendEncrypted := rfl
  userspace := rfl
  sendAEAD := rfl
  recvEncrypted := rfl
  recvAEAD := rfl
  iv := rfl
  suite := rfl
  epoch := rfl
  epoch_lt := by decide
  batchRecords := rfl
  correct := correct_plainAEAD

/-- Two goroutines that overtake each other once. -/
theorem concurrent_senders_overtaken :
    ∃ state : Senders Bool,
      Reaches (senderStep batchInner) WritesInWindow (Senders.start (plainSession .client 7)) state ∧
      state.written.map (fun w => w.2.seq) = [2, 1] ∧ state.completed = [(1, [[6]]), (0, [[5]])] ∧
      HandsOut batchInner (plainSession .server 7) (state.wires (plainSession .client 7) plainAEAD)
        [[6], [5]] := by
  have hreach := reaches_of_replay (show replay (senderStep batchInner) WritesInWindow
    (Senders.start (plainSession .client 7)) [.sendPacket false [5], .sendPacket true [6],
      .lock true, .sealNext true, .write true, .finish true, .lock false, .sealNext false,
      .write false, .finish false] = some _ from rfl)
  exact ⟨_, hreach, rfl, rfl, (concurrent_senders paired_plain rfl rfl rfl hreach
    (show 2 < 2 ^ 64 by decide)).1⟩

/-- The run: `SendPacket` reserves number 1, then `SendPackets` sends as many packets as the
window is large, and only then `SendPacket` gets `sendMu`. -/
theorem late_run (hlength : pkts.length = defaultReplayWindowSize) :
    ∃ state : Senders Bool,
      Reaches (senderStep batchInner) (fun _ _ => True)
        (Senders.start (plainSession .client 7)) state ∧
      state.taken < 2 ^ 64 ∧ state.completed = [(1, pkts), (0, [[9]])] ∧
      state.written = (numbered ((1 + 1) % 2 ^ 64) (pkts.map .single)).map (1, ·) ++
        [(0, Numbered.mk 1 (.single [9]))] := by
  have hframes : framesOf batchInner { plainSession .client 7 with sendSeq := 1 } pkts =
      pkts.map .single := if_neg fun h => Bool.false_ne_true h.1
  have hne : pkts ≠ [] := by
    intro hnil
    rw [hnil] at hlength
    cases hlength
  have hreserve : reserve { plainSession .client 7 with sendSeq := 1 } (pkts.map Frame.single).length =
      ({ plainSession .client 7 with sendSeq := 1 + (pkts.map Frame.single).length },
        (1 + 1) % 2 ^ 64) := by
    refine reserve_of_lt ?_
    rw [List.length_map, hlength]
    decide
  -- up to the numbers of `SendPackets`
  obtain ⟨first, hfirst, hphase, hwaits, htaken, hwritten, hcompleted⟩ :
      ∃ s : Senders Bool, Reaches (senderStep batchInner) (fun _ _ => True)
          (Senders.start (plainSession .client 7)) s ∧
        s.phase true = .sending 1 pkts (numbered ((1 + 1) % 2 ^ 64) (pkts.map .single)) [] ∧
        s.phase false = .reserved 0 1 [9] ∧ s.taken = 1 + pkts.length ∧ s.written = [] ∧
        s.completed = [] := by
    obtain ⟨pkt, rest, rfl⟩ := List.exists_cons_of_ne_nil hne
    refine ⟨_, reaches_of_replay (show replay (senderStep batchInner) (fun _ _ => True)
      (Senders.start (plainSession .client 7)) [.sendPacket false [9],
        .sendPackets true (pkt :: rest), .lock true, .reserve true] = some _ from rfl),
      ?_, rfl, ?_, rfl, rfl⟩
    · change Phase.sending 1 (pkt :: rest)
        (numbered (reserve { plainSession .client 7 with sendSeq := 1 }
          (framesOf batchInner { plainSession .client 7 with sendSeq := 1 } (pkt :: rest)).length).2
          (framesOf batchInner { plainSession .client 7 with sendSeq := 1 } (pkt :: rest))) [] = _
      rw [hframes, hreserve]
    · change 1 + (framesOf batchInner { plainSession .client 7 with sendSeq := 1 }
        (pkt :: rest)).length = _
      rw [hframes, List.length_map]
  obtain ⟨second, hsecond, hfree, hothers, htaken₂, hwritten₂, hcompleted₂⟩ :=
    sends_all batchInner hphase
  have hlate : second.phase false = .reserved 0 1 [9] := (hothers false (by decide)).trans hwaits
  have hlock : senderStep batchInner second (.lock false) = some
      { second.goto false (.sending 0 [[9]] [⟨1, .single [9]⟩] []) with holder := some false } := by
    simp [senderStep, hfree, hlate]
  obtain ⟨last, hlast, -, -, htaken₃, hwritten₃, hcompleted₃⟩ :=
    sends_all batchInner (s := { second.goto false (.sending 0 [[9]] [⟨1, .single [9]⟩] []) with
      holder := some false }) (Function.update_self _ _ _)
  refine ⟨last, (Reaches.tail (hfirst.trans hsecond) trivial hlock).trans hlast, ?_, ?_, ?_⟩
  · rw [htaken₃]
    change second.taken < 2 ^ 64
    rw [htaken₂, htaken, hlength]
    decide
  · rw [hcompleted₃]
    change second.completed ++ _ = _
    rw [hcompleted₂, hcompleted]
    rfl
  · rw [hwritten₃]
    change second.written ++ _ = _
    rw [hwritten₂, hwritten]
    rfl

/-- A receiver with a full window above number 1 takes everything but that record. -/
theorem deliver_late (hlength : pkts.length = defaultReplayWindowSize) :
    (deliver defaultReplayWindowSize []
      (((numbered ((1 + 1) % 2 ^ 64) (pkts.map .single)).map (1, ·) ++
        [(0, Numbered.mk 1 (.single [9]))]).map pieceOf)).1 = pkts := by
  have hframes := frames_numbered ((1 + 1) % 2 ^ 64) (pkts.map .single)
  have hseqs := seqs_numbered (show 1 + (pkts.map Frame.single).length < 2 ^ 64 by
    rw [List.length_map, hlength]
    decide)
  rw [List.length_map, hlength] at hseqs
  generalize numbered ((1 + 1) % 2 ^ 64) (pkts.map .single) = items at hseqs hframes ⊢
  have hpieces : ((items.map (1, ·)).map pieceOf).filterMap Piece.seq =
      List.range' (1 + 1) defaultReplayWindowSize := by
    rw [← hseqs, List.map_map, List.filterMap_map]
    exact congrFun List.filterMap_eq_map items
  have hpackets : ((items.map (1, ·)).map pieceOf).flatMap Piece.packets = pkts := by
    rw [List.map_map, List.flatMap_map]
    have hflat : items.flatMap (fun item => item.frame.packets) =
        (items.map Numbered.frame).flatMap Frame.packets := (List.flatMap_map _ _ _).symm
    change items.flatMap (fun item => item.frame.packets) = pkts
    rw [hflat, hframes, List.flatMap_map]
    exact List.flatMap_singleton' pkts
  have hhighest : defaultReplayWindowSize + 1 ≤
      highest ([] ++ List.range' (1 + 1) defaultReplayWindowSize) := by
    refine le_highest (List.mem_range'_1.mpr ?_)
    decide
  have hlate : ¬ Admits defaultReplayWindowSize
      ([] ++ List.range' (1 + 1) defaultReplayWindowSize) 1 := by
    rintro ⟨-, -, hwindow⟩
    omega
  rw [List.map_append, deliver_append, deliver_inOrder (Nat.zero_le 1) hpieces, hpackets]
  simp only [List.map_cons, List.map_nil, pieceOf, deliver, if_neg hlate, List.append_nil]

/-- **A number that waits too long.**  `SendPacket` returns nil, and its packet is never handed
out: 65536 records with larger numbers were written before it. -/
theorem late_number_lost :
    Paired (plainSession .client 7) (plainSession .server 7) plainAEAD ∧
      ∃ state : Senders Bool,
        Reaches (senderStep batchInner) (fun _ _ => True)
          (Senders.start (plainSession .client 7)) state ∧
        (0, [[9]]) ∈ state.completed ∧
        HandsOut batchInner (plainSession .server 7)
          (state.wires (plainSession .client 7) plainAEAD) (List.replicate 65536 [5]) := by
  have hlength : (List.replicate 65536 ([5] : Bytes)).length = defaultReplayWindowSize :=
    List.length_replicate
  obtain ⟨state, hreach, hlt, hcompleted, hwritten⟩ := late_run hlength
  have hout := handsOut_wires batchInner paired_plain rfl rfl rfl hreach hlt
  rw [hwritten, deliver_late hlength] at hout
  refine ⟨paired_plain, state, hreach, ?_, hout⟩
  rw [hcompleted]
  exact List.mem_cons_of_mem _ List.mem_cons_self

end SecureTransport

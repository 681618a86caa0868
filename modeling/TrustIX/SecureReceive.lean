/-
# Single and batch receive of the secure transport

Both ways to receive look at a packet of the inner session in the same way (`inspect`): it is
an error, it is skipped, or it holds packets, with the number of their record if there is
one.  What the packets of a list of wire packets should be, given the numbers accepted so
far, is `deliver`.

* `advances_recvPacket` : a `RecvPacket` call takes some wire packets and hands out what
  `deliver` says;
* `recvPacketsWithRelease_spec` : so does a batch call, unless it fails;
* `batch_receive_agrees_iff` : when the two ways hand out the same packets.
-/
import TrustIX.SecureSession

namespace SecureTransport

open SecureHandshake Fallible SlidingWindow ReplayWindow InPlaceFilter

/-! ## What a wire packet holds -/

/-- The packets of one wire packet, and the number of the record they were sealed in. -/
structure Piece where
  seq : Option ℕ
  packets : List Bytes

def inspect (inner : Inner) (session : Session) (wire : Bytes) :
    Except RecvError (Option Piece) :=
  if isResetPacket wire then .error .sessionReset
  else do
    let handled ← handleDuplicateHandshake inner session wire
    if handled = true then .ok none
    else if session.recvEncrypted = false then .ok (some ⟨none, [wire]⟩)
    else if session.cryptoOffloaded = true ∧ shouldOpenUserspaceEncryptedFallback wire = false then
      .ok (some ⟨none, [wire]⟩)
    else do
      let record ← openEncryptedPacketNoReplay session wire
      let appended ← appendRecord [] record
      .ok (some ⟨some record.seq, appended.1⟩)

/-- The pieces of the wire packets that hold some. -/
def piecesOf (inner : Inner) (session : Session) (wires : List Bytes) : List Piece :=
  wires.filterMap fun wire => (inspect inner session wire).toOption.join

/-- A record that opens as a batch can be unpacked, as every record that the peer sealed. -/
def Decodes (session : Session) (wire : Bytes) : Prop :=
  ∀ record, openEncryptedPacketNoReplay session wire = .ok record →
    ∃ appended, appendRecord [] record = .ok appended

theorem piecesOf_append (inner : Inner) (session : Session) (front back : List Bytes) :
    piecesOf inner session (front ++ back) =
      piecesOf inner session front ++ piecesOf inner session back :=
  List.filterMap_append

variable {wire : Bytes}

theorem piecesOf_cons_ok {inner : Inner} {session : Session} {piece : Option Piece}
    (h : inspect inner session wire = .ok piece) (wires : List Bytes) :
    piecesOf inner session (wire :: wires) = piece.toList ++ piecesOf inner session wires := by
  have hjoin : (inspect inner session wire).toOption.join = piece := by
    rw [h]
    rfl
  cases piece with
  | none => exact List.filterMap_cons_none hjoin
  | some piece => exact List.filterMap_cons_some hjoin

variable {err : RecvError}

theorem piecesOf_cons_error {inner : Inner} {session : Session}
    (h : inspect inner session wire = .error err) (wires : List Bytes) :
    piecesOf inner session (wire :: wires) = piecesOf inner session wires := by
  refine List.filterMap_cons_none ?_
  rw [h]
  rfl

theorem length_splitSizes (sizes : List ℕ) (bytes : Bytes) :
    (splitSizes sizes bytes).length = sizes.length := by
  induction sizes generalizing bytes with
  | nil => rfl
  | cons size sizes ih => rw [splitSizes, List.length_cons, ih, List.length_cons]

theorem appendSecureBatchRecordPackets_dst (dst : List Bytes) (plaintext : Bytes) :
    appendSecureBatchRecordPackets dst plaintext =
      (appendSecureBatchRecordPackets [] plaintext).map fun appended =>
        (dst ++ appended.1, appended.2) := by
  unfold appendSecureBatchRecordPackets
  simp only [map_bind]
  rfl

/-- The packets of a record do not depend on those before them, and they are counted. -/
theorem appendRecord_dst (dst : List Bytes) (record : Record) :
    appendRecord dst record =
      (appendRecord [] record).map fun appended => (dst ++ appended.1, appended.2) := by
  unfold appendRecord
  split_ifs
  · exact appendSecureBatchRecordPackets_dst dst record.plaintext
  · rfl

variable {packets : List Bytes}

variable {count : ℕ}

theorem appendSecureBatchRecordPackets_count {plaintext : Bytes}
    (h : appendSecureBatchRecordPackets [] plaintext = .ok (packets, count)) :
    packets.length = count ∧ 0 < count := by
  obtain ⟨-, h⟩ := seq_eq_ok.mp h
  obtain ⟨hcount, h⟩ := seq_eq_ok.mp h
  obtain ⟨-, h⟩ := seq_eq_ok.mp h
  obtain ⟨payloadEnd, -, h⟩ := bind_eq_ok.mp h
  obtain ⟨-, h⟩ := seq_eq_ok.mp h
  rw [rejectIf_eq_ok] at hcount
  injection h with h
  injection h with hpackets hnumber
  rw [← hpackets, ← hnumber, List.nil_append, length_splitSizes, List.length_map, List.length_range]
  exact ⟨rfl, by omega⟩

theorem appendRecord_count {record : Record}
    (h : appendRecord [] record = .ok (packets, count)) : packets.length = count ∧ 0 < count := by
  unfold appendRecord at h
  split_ifs at h
  · exact appendSecureBatchRecordPackets_count h
  · injection h with h
    injection h with hpackets hnumber
    rw [← hpackets, ← hnumber]
    exact ⟨rfl, Nat.one_pos⟩

/-! ## What should be handed out -/

/-- The packets of the pieces whose numbers a window of size `n` admits, one after the other,
and the numbers accepted after them. -/
def deliver (n : ℕ) : (accepted : List ℕ) → List Piece → List Bytes × List ℕ
  | accepted, [] => ([], accepted)
  | accepted, ⟨none, packets⟩ :: rest =>
    let (later, accepted) := deliver n accepted rest
    (packets ++ later, accepted)
  | accepted, ⟨some seq, packets⟩ :: rest =>
    if Admits n accepted seq then
      let (later, accepted) := deliver n (accepted ++ [seq]) rest
      (packets ++ later, accepted)
    else deliver n accepted rest

theorem deliver_append (n : ℕ) (accepted : List ℕ) (front back : List Piece) :
    deliver n accepted (front ++ back) =
      ((deliver n accepted front).1 ++ (deliver n (deliver n accepted front).2 back).1,
        (deliver n (deliver n accepted front).2 back).2) := by
  induction front generalizing accepted with
  | nil => rfl
  | cons piece rest ih =>
    obtain ⟨seq, packets⟩ := piece
    cases seq with
    | none =>
      rw [List.cons_append]
      simp [deliver, ih]
    | some seq =>
      rw [List.cons_append]
      simp only [deliver]
      split_ifs
      · simp [ih]
      · rw [ih]

variable {pieces : List Piece}

/-- Where nothing is handed out, nothing was accepted. -/
theorem deliver_snd_of_nil {n : ℕ} {accepted : List ℕ}
    (hne : ∀ piece ∈ pieces, piece.packets ≠ []) (h : (deliver n accepted pieces).1 = []) :
    (deliver n accepted pieces).2 = accepted := by
  induction pieces with
  | nil => rfl
  | cons piece rest ih =>
    obtain ⟨seq, packets⟩ := piece
    have hpackets := hne _ List.mem_cons_self
    have hrest := fun piece hmem => hne piece (List.mem_cons_of_mem _ hmem)
    cases seq with
    | none => exact absurd (List.append_eq_nil_iff.mp h).1 hpackets
    | some seq =>
      simp only [deliver] at h ⊢
      split_ifs at h ⊢ with hadmits
      · exact absurd (List.append_eq_nil_iff.mp h).1 hpackets
      · exact ih hrest h

/-- Numbers that are all different and not among `accepted`. -/
def AllNew (accepted seqs : List ℕ) : Prop := seqs.Nodup ∧ ∀ seq ∈ seqs, seq ∉ accepted

theorem AllNew.append {accepted front back : List ℕ} (hfront : AllNew accepted front)
    (hback : AllNew (accepted ++ front) back) : AllNew accepted (front ++ back) := by
  refine ⟨List.nodup_append.mpr ⟨hfront.1, hback.1, ?_⟩, ?_⟩
  · intro a ha b hb hab
    exact hback.2 b hb (List.mem_append_right _ (hab ▸ ha))
  · exact List.forall_mem_append.mpr ⟨hfront.2, fun seq hseq hold =>
      hback.2 seq hseq (List.mem_append_left _ hold)⟩

/-- **No record twice**: the packets handed out are those of some of the pieces, whose numbers
are new and all different. -/
theorem deliver_picks (n : ℕ) (accepted : List ℕ) (pieces : List Piece) :
    ∃ picked : List Piece, picked.Sublist pieces ∧
      (deliver n accepted pieces).1 = picked.flatMap Piece.packets ∧
      (deliver n accepted pieces).2 = accepted ++ picked.filterMap Piece.seq ∧
      AllNew accepted (picked.filterMap Piece.seq) := by
  induction pieces generalizing accepted with
  | nil => exact ⟨[], .slnil, rfl, (List.append_nil _).symm, List.nodup_nil, by simp⟩
  | cons piece rest ih =>
    obtain ⟨seq, packets⟩ := piece
    cases seq with
    | none =>
      obtain ⟨picked, hsub, hpackets, haccepted, hnew⟩ := ih accepted
      refine ⟨⟨none, packets⟩ :: picked, hsub.cons_cons _, ?_, haccepted, hnew⟩
      simp [deliver, hpackets]
    | some seq =>
      by_cases hadmits : Admits n accepted seq
      · obtain ⟨picked, hsub, hpackets, haccepted, hnew⟩ := ih (accepted ++ [seq])
        have hfirst : AllNew accepted [seq] :=
          ⟨List.nodup_singleton _, fun a ha => List.mem_singleton.mp ha ▸ hadmits.2.1⟩
        refine ⟨⟨some seq, packets⟩ :: picked, hsub.cons_cons _, ?_, ?_, hfirst.append hnew⟩
        · simp only [deliver, if_pos hadmits, hpackets, List.flatMap_cons]
        · simp only [deliver, if_pos hadmits, haccepted, List.append_assoc]
          rfl
      · obtain ⟨picked, hsub, hpackets, haccepted, hnew⟩ := ih accepted
        refine ⟨picked, hsub.cons _, ?_, ?_, hnew⟩
        · simp only [deliver, if_neg hadmits, hpackets]
        · simp only [deliver, if_neg hadmits, haccepted]

/-! ## The slices of a batch call -/

/-- A piece at the end of the slices. -/
def BatchOpen.push (opened : BatchOpen) (piece : Piece) : BatchOpen :=
  match piece.seq with
  | none => { opened with dst := opened.dst ++ piece.packets }
  | some seq =>
    { dst := opened.dst ++ piece.packets
      seqs := opened.seqs ++ [seq]
      seqIndexes := opened.seqIndexes ++ [opened.dst.length]
      seqCounts := opened.seqCounts ++ [piece.packets.length] }

theorem openBatchStep_eq (inner : Inner) (session : Session) (opened : BatchOpen) (wire : Bytes) :
    openBatchStep inner session opened wire =
      (inspect inner session wire).map fun piece => piece.elim opened opened.push := by
  unfold openBatchStep inspect
  by_cases hreset : isResetPacket wire = true
  · rw [if_pos hreset, if_pos hreset]
    rfl
  · rw [if_neg hreset, if_neg hreset]
    cases handleDuplicateHandshake inner session wire with
    | error err => rfl
    | ok handled =>
      rw [ok_bind, ok_bind]
      split_ifs
      · rfl
      · rfl
      · rfl
      · cases openEncryptedPacketNoReplay session wire with
        | error err => rfl
        | ok record =>
          rw [ok_bind, ok_bind, appendRecord_dst]
          cases happend : appendRecord [] record with
          | error err => rfl
          | ok appended =>
            obtain ⟨hcount, -⟩ := appendRecord_count happend
            show Except.ok _ = Except.ok _
            rw [← hcount]
            rfl

/-- A group that fails holds a wire packet that fails. -/
theorem exists_of_mapM_eq_error {inner : Inner} {session : Session} {wires : List Bytes}
    (h : wires.mapM (inspect inner session) = .error err) :
    ∃ wire ∈ wires, inspect inner session wire = .error err := by
  induction wires with
  | nil => cases h
  | cons wire rest ih =>
    rw [List.mapM_cons] at h
    rcases bind_eq_error.mp h with hwire | ⟨piece, -, hrest⟩
    · exact ⟨wire, List.mem_cons_self, hwire⟩
    · rcases bind_eq_error.mp hrest with hrest | ⟨pieces, -, hpure⟩
      · obtain ⟨wire', hmem, hinspect⟩ := ih hrest
        exact ⟨wire', List.mem_cons_of_mem _ hmem, hinspect⟩
      · cases hpure

theorem foldlM_openBatchStep (inner : Inner) (session : Session) (wires : List Bytes)
    (opened : BatchOpen) :
    wires.foldlM (openBatchStep inner session) opened =
      (wires.mapM (inspect inner session)).map fun _ =>
        (piecesOf inner session wires).foldl BatchOpen.push opened := by
  induction wires generalizing opened with
  | nil => rfl
  | cons wire rest ih =>
    rw [List.foldlM_cons, openBatchStep_eq, List.mapM_cons]
    cases hinspect : inspect inner session wire with
    | error err => rfl
    | ok piece =>
      rw [piecesOf_cons_ok hinspect, ok_bind]
      show rest.foldlM (openBatchStep inner session) (piece.elim opened opened.push) = _
      rw [ih]
      cases hrest : rest.mapM (inspect inner session) with
      | error err => rfl
      | ok pieces =>
        cases piece with
        | none => rfl
        | some piece => rfl

/-- Where the packets of the numbered pieces lie, from an offset on. -/
def recordSpans : (offset : ℕ) → List Piece → List (ℕ × ℕ)
  | _, [] => []
  | offset, ⟨none, packets⟩ :: rest => recordSpans (offset + packets.length) rest
  | offset, ⟨some _, packets⟩ :: rest =>
    (offset, packets.length) :: recordSpans (offset + packets.length) rest

theorem foldl_push (pieces : List Piece) (opened : BatchOpen) :
    pieces.foldl BatchOpen.push opened =
      { dst := opened.dst ++ pieces.flatMap Piece.packets
        seqs := opened.seqs ++ pieces.filterMap Piece.seq
        seqIndexes := opened.seqIndexes ++ (recordSpans opened.dst.length pieces).map Prod.fst
        seqCounts := opened.seqCounts ++ (recordSpans opened.dst.length pieces).map Prod.snd } := by
  induction pieces generalizing opened with
  | nil => simp [recordSpans]
  | cons piece rest ih =>
    obtain ⟨seq, packets⟩ := piece
    rw [List.foldl_cons, ih]
    cases seq with
    | none => simp [BatchOpen.push, recordSpans]
    | some seq => simp [BatchOpen.push, recordSpans]

theorem length_recordSpans (offset : ℕ) (pieces : List Piece) :
    (recordSpans offset pieces).length = (pieces.filterMap Piece.seq).length := by
  induction pieces generalizing offset with
  | nil => rfl
  | cons piece rest ih =>
    obtain ⟨seq, packets⟩ := piece
    cases seq with
    | none => exact ih _
    | some seq => exact congrArg (· + 1) (ih _)

/-- The packets left when each numbered piece has a verdict. -/
def keep : List Piece → List Bool → List Bytes
  | [], _ => []
  | ⟨none, packets⟩ :: rest, verdicts => packets ++ keep rest verdicts
  | ⟨some _, packets⟩ :: rest, verdicts =>
    (if verdicts.headD false then packets else []) ++ keep rest verdicts.tail

variable {verdicts : List Bool}

theorem keep_of_all
    (hlength : verdicts.length = (pieces.filterMap Piece.seq).length)
    (hall : verdicts.all id = true) : keep pieces verdicts = pieces.flatMap Piece.packets := by
  induction pieces generalizing verdicts with
  | nil => rfl
  | cons piece rest ih =>
    obtain ⟨seq, packets⟩ := piece
    cases seq with
    | none =>
      show packets ++ keep rest verdicts = packets ++ rest.flatMap Piece.packets
      rw [ih hlength hall]
    | some seq =>
      cases verdicts with
      | nil => exact absurd hlength (by simp)
      | cons verdict verdicts =>
        rw [List.all_cons, Bool.and_eq_true] at hall
        have hverdict : verdict = true := hall.1
        show (if verdict then packets else []) ++ keep rest verdicts = _
        rw [hverdict, if_pos rfl, ih (Nat.succ.inj hlength) hall.2]
        rfl

/-- One record of the filter: the packets before it are kept, its own by its verdict. -/
theorem filterStep_eq {original front gap back out : List Bytes} {c : Cursor Bytes}
    (hat : c.At original out) (hread : c.read = front.length)
    (horiginal : original = front ++ (gap ++ (packets ++ back))) (verdict : Bool) :
    ∃ c', filterStep c ((front.length + gap.length, packets.length), verdict) = .ok c' ∧
      c'.At original (out ++ (gap ++ if verdict then packets else [])) ∧
      c'.read = front.length + gap.length + packets.length := by
  have htotal : original.length = front.length + gap.length + packets.length + back.length := by
    rw [horiginal]
    simp only [List.length_append]
    omega
  have hguard : ¬ (front.length + gap.length < c.read ∨
      c.items.length < front.length + gap.length ∨
      c.items.length - (front.length + gap.length) < packets.length) := by
    rw [hat.length]
    omega
  have hgap : (original.drop c.read).take (front.length + gap.length - c.read) = gap := by
    rw [hread, horiginal, List.drop_left, Nat.add_sub_cancel_left, List.take_left]
  have hpackets : (original.drop (front.length + gap.length)).take packets.length = packets := by
    rw [horiginal, ← List.drop_drop, List.drop_left, List.drop_left, List.take_left]
  obtain ⟨hcopied, hstart⟩ := hat.copyUntil (front.length + gap.length) (by omega) (by omega)
  rw [hgap] at hcopied
  cases verdict with
  | true =>
    obtain ⟨hend, hreadEnd⟩ := hcopied.copyUntil
      (front.length + gap.length + packets.length) (by omega) (by omega)
    rw [hstart, Nat.add_sub_cancel_left, hpackets, List.append_assoc] at hend
    exact ⟨_, if_neg hguard, hend, hreadEnd⟩
  | false =>
    obtain ⟨hend, hreadEnd⟩ := hcopied.skipUntil
      (front.length + gap.length + packets.length) (by omega) (by omega)
    refine ⟨_, if_neg hguard, ?_, hreadEnd⟩
    rw [if_neg Bool.false_ne_true, List.append_nil]
    exact hend

/-- The loop of the filter, in the middle of its work: `front` is read, `gap` holds packets
that are to be kept and are not copied yet. -/
theorem foldlM_filterStep {original : List Bytes} (pieces : List Piece) (front gap : List Bytes)
    {out : List Bytes} {c : Cursor Bytes} (hat : c.At original out)
    (hread : c.read = front.length)
    (horiginal : original = front ++ (gap ++ pieces.flatMap Piece.packets))
    (hlength : verdicts.length = (pieces.filterMap Piece.seq).length) :
    ∃ c' out', ((recordSpans (front.length + gap.length) pieces).zip verdicts).foldlM filterStep c =
        .ok c' ∧ c'.At original out' ∧
      out' ++ original.drop c'.read = out ++ (gap ++ keep pieces verdicts) := by
  induction pieces generalizing front gap out c verdicts with
  | nil =>
    refine ⟨c, out, rfl, hat, ?_⟩
    rw [hread, horiginal, List.drop_left]
    rfl
  | cons piece rest ih =>
    obtain ⟨seq, packets⟩ := piece
    rw [List.flatMap_cons] at horiginal
    cases seq with
    | none =>
      -- packets without a number wait for the next record
      obtain ⟨c', out', hfold, hat', hout⟩ := ih front (gap ++ packets) hat hread
        (by rw [horiginal, List.append_assoc]) hlength
      refine ⟨c', out', ?_, hat', ?_⟩
      · rw [List.length_append, ← Nat.add_assoc] at hfold
        exact hfold
      · rw [hout, keep, List.append_assoc]
    | some seq =>
      cases verdicts with
      | nil => exact absurd hlength (by simp)
      | cons verdict verdicts =>
        obtain ⟨c₁, hstep, hat₁, hread₁⟩ := filterStep_eq hat hread horiginal verdict
        obtain ⟨c', out', hfold, hat', hout⟩ := ih (front ++ (gap ++ packets)) [] hat₁
          (by rw [hread₁, List.length_append, List.length_append, Nat.add_assoc])
          (by rw [horiginal]; simp) (Nat.succ.inj hlength)
        refine ⟨c', out', ?_, hat', ?_⟩
        · rw [recordSpans, List.zip_cons_cons, List.foldlM_cons, hstep, ok_bind]
          simpa only [List.length_append, List.length_nil, Nat.add_zero, Nat.add_assoc]
            using hfold
        · rw [hout, List.append_assoc, List.append_assoc]
          rfl

/-- **The in-place filter** keeps the packets of the accepted records, and all others. -/
theorem filterReplayRejectedBatch_eq
    (hlength : verdicts.length = (pieces.filterMap Piece.seq).length) :
    filterReplayRejectedBatch (pieces.flatMap Piece.packets) 0
        ((recordSpans 0 pieces).map Prod.fst) ((recordSpans 0 pieces).map Prod.snd) verdicts =
      keep pieces verdicts := by
  have hspans : (recordSpans 0 pieces).length = verdicts.length := by
    rw [length_recordSpans, hlength]
  unfold filterReplayRejectedBatch
  rw [List.length_map, List.length_map, hspans]
  split_ifs with hnone hall
  · have hnil : verdicts = [] := by
      rw [← List.length_eq_zero_iff]
      omega
    rw [keep_of_all hlength (by rw [hnil]; rfl)]
  · exact (keep_of_all hlength hall).symm
  · obtain ⟨c', out', hfold, hat', hout⟩ := foldlM_filterStep pieces [] []
      (Cursor.at_start (pieces.flatMap Piece.packets) (Nat.zero_le _)) rfl rfl hlength
    rw [List.zip_map', List.map_id'']
    · simp only [List.length_nil, Nat.add_zero] at hfold
      rw [hfold]
      obtain ⟨hend, -⟩ := hat'.copyUntil (pieces.flatMap Piece.packets).length
        hat'.read_le le_rfl
      show ((c'.copyUntil c'.items.length).items.take (c'.copyUntil c'.items.length).write) = _
      rw [hat'.length, hend.kept, List.take_of_length_le (by rw [List.length_drop]), hout]
      rfl
    · intro span
      rfl

/-! ## A group of wire packets -/

/-- The verdicts of the window leave what should be handed out. -/
theorem keep_runTrace {n : ℕ} {window : Window} {accepted : List ℕ} (h : Tracks n window accepted)
    (pieces : List Piece) :
    keep pieces ((runTrace replayWindowAcceptLocked window (pieces.filterMap Piece.seq)).1.map
        (·.2)) = (deliver n accepted pieces).1 ∧
      Tracks n (runTrace replayWindowAcceptLocked window (pieces.filterMap Piece.seq)).2
        (deliver n accepted pieces).2 := by
  induction pieces generalizing window accepted with
  | nil => exact ⟨rfl, h⟩
  | cons piece rest ih =>
    obtain ⟨seq, packets⟩ := piece
    cases seq with
    | none =>
      obtain ⟨hkeep, htracks⟩ := ih h
      exact ⟨congrArg (packets ++ ·) hkeep, htracks⟩
    | some seq =>
      obtain ⟨hverdict, hnext⟩ := simulates_acceptLocked n window accepted seq h
      show (if (replayWindowAcceptLocked window seq).1 then packets else []) ++
          keep rest ((runTrace replayWindowAcceptLocked (replayWindowAcceptLocked window seq).2
            (rest.filterMap Piece.seq)).1.map (·.2)) = _ ∧
        Tracks n (runTrace replayWindowAcceptLocked (replayWindowAcceptLocked window seq).2
            (rest.filterMap Piece.seq)).2 _
      by_cases hadmits : Admits n accepted seq
      · rw [hverdict.mpr hadmits] at hnext ⊢
        obtain ⟨hkeep, htracks⟩ := ih hnext
        simp only [deliver, if_pos hadmits]
        exact ⟨congrArg (packets ++ ·) hkeep, htracks⟩
      · have hreject : (replayWindowAcceptLocked window seq).1 = false :=
          Bool.eq_false_iff.mpr fun hok => hadmits (hverdict.mp hok)
        rw [hreject, acceptedOf_singleton, if_neg Bool.false_ne_true, List.append_nil] at hnext
        rw [hreject]
        obtain ⟨hkeep, htracks⟩ := ih hnext
        simp only [deliver, if_neg hadmits]
        exact ⟨hkeep, htracks⟩

section Batch

variable {m : ℕ} {inner : Inner} {session : Session} {accepted : List ℕ} {wires : List Bytes}

/-- **A group without an error.** -/
theorem openReceivedPacketBatch_ok
    (h : Tracks (normalizeReplayWindowSize m) session.replay accepted) {items : List (Option Piece)}
    (hwires : wires.mapM (inspect inner session) = .ok items) :
    ∃ replay, openReceivedPacketBatch inner session [] wires =
        (.ok (deliver (normalizeReplayWindowSize m) accepted (piecesOf inner session wires)).1,
          { session with replay := replay }) ∧
      Tracks (normalizeReplayWindowSize m) replay
        (deliver (normalizeReplayWindowSize m) accepted (piecesOf inner session wires)).2 := by
  unfold openReceivedPacketBatch
  rw [foldlM_openBatchStep, hwires]
  simp only [Except.map, foldl_push, List.nil_append, List.length_nil]
  generalize piecesOf inner session wires = pieces
  by_cases hnone : (pieces.filterMap Piece.seq).length = 0
  · obtain ⟨hkeep, htracks⟩ := keep_runTrace h pieces
    rw [List.length_eq_zero_iff] at hnone
    rw [hnone] at hkeep htracks ⊢
    have hall : keep pieces [] = pieces.flatMap Piece.packets :=
      keep_of_all (by rw [hnone]; rfl) rfl
    refine ⟨session.replay, ?_, htracks⟩
    rw [← hkeep]
    exact congrArg (fun packets => (Except.ok packets, session)) hall.symm
  · obtain ⟨hkeep, htracks⟩ := keep_runTrace h.ensureLocked pieces
    have hne : pieces.filterMap Piece.seq ≠ [] := fun hnil => hnone (by rw [hnil]; rfl)
    rw [if_neg hnone, acceptBatchResults_eq _ _ _ hne]
    refine ⟨_, ?_, htracks⟩
    rw [filterReplayRejectedBatch_eq (by rw [List.length_map, length_runTrace]), hkeep]

/-- **A group with an error** is dropped as a whole. -/
theorem openReceivedPacketBatch_error
    (hwires : wires.mapM (inspect inner session) = .error err) :
    openReceivedPacketBatch inner session [] wires = (.error err, session) := by
  unfold openReceivedPacketBatch
  rw [foldlM_openBatchStep, hwires]
  rfl

end Batch

/-! ## Calls -/

/-- A session that differs from `base` by what it has received, with the numbers it has
accepted. -/
structure Holding (m : ℕ) (base : Session) (accepted : List ℕ) (session : Session) : Prop where
  static : session = { base with replay := session.replay, recvPending := session.recvPending }
  tracks : Tracks (normalizeReplayWindowSize m) session.replay accepted

def Received.handed : Received → List Bytes
  | .packets list => list
  | .failed _ => []
  | .waiting => []

/-- A call reads some wire packets; what it hands out and leaves to wait is what waited before
and what should come out of those.  A call without a packet leaves none to wait, and a call
that fails met an error. -/
def Advances (m : ℕ) (inner : Inner) (base : Session) (accepted : List ℕ) (session : Session)
    (queue : List Bytes) (result : Received × Session × List Bytes) : Prop :=
  ∃ read, queue = read ++ result.2.2 ∧
    Holding m base
      (deliver (normalizeReplayWindowSize m) accepted (piecesOf inner base read)).2 result.2.1 ∧
    result.1.handed ++ result.2.1.recvPending = session.recvPending ++
      (deliver (normalizeReplayWindowSize m) accepted (piecesOf inner base read)).1 ∧
    (result.1.handed = [] → result.2.1.recvPending = []) ∧
    ∀ err, result.1 = .failed err → ∃ wire ∈ queue, inspect inner base wire = .error err

section Calls

variable {m : ℕ} {inner : Inner} {base session session' : Session} {accepted : List ℕ}
  {queue read : List Bytes} {result : Received × Session × List Bytes}

theorem Holding.inspect_eq (h : Holding m base accepted session) :
    inspect inner session = inspect inner base := by
  have hstatic := h.static
  generalize session.replay = replay, session.recvPending = pending at hstatic
  subst hstatic
  rfl

theorem Holding.piecesOf_eq (h : Holding m base accepted session) :
    piecesOf inner session = piecesOf inner base := by
  funext wires
  rw [piecesOf, h.inspect_eq]
  rfl

theorem Holding.decodes (h : Holding m base accepted session)
    (hdecodes : Decodes base wire) : Decodes session wire := by
  have hstatic := h.static
  generalize session.replay = replay, session.recvPending = pending at hstatic
  subst hstatic
  exact hdecodes

theorem Holding.with_replay (h : Holding m base accepted session) {replay : Window}
    {accepted' : List ℕ} (htracks : Tracks (normalizeReplayWindowSize m) replay accepted') :
    Holding m base accepted' { session with replay := replay } := by
  refine ⟨?_, htracks⟩
  conv_lhs => rw [h.static]

theorem Holding.with_recvPending (h : Holding m base accepted session) (pending : List Bytes) :
    Holding m base accepted { session with recvPending := pending } := by
  refine ⟨?_, h.tracks⟩
  conv_lhs => rw [h.static]

/-- Every piece holds a packet. -/
theorem packets_ne_nil_of_mem_piecesOf {wires : List Bytes} {piece : Piece}
    (h : piece ∈ piecesOf inner session wires) : piece.packets ≠ [] := by
  obtain ⟨wire, -, hjoin⟩ := List.mem_filterMap.mp h
  have hinspect : inspect inner session wire = .ok (some piece) := by
    rw [Option.join_eq_some_iff, toOption_eq_some] at hjoin
    exact hjoin
  unfold inspect at hinspect
  rw [guard_eq_ok, bind_eq_ok] at hinspect
  obtain ⟨-, handled, -, hinspect⟩ := hinspect
  split_ifs at hinspect
  · cases hinspect
  · cases hinspect
    exact List.cons_ne_nil _ _
  · cases hinspect
    exact List.cons_ne_nil _ _
  · obtain ⟨record, -, hinspect⟩ := bind_eq_ok.mp hinspect
    obtain ⟨⟨packets, count⟩, happend, hinspect⟩ := bind_eq_ok.mp hinspect
    cases hinspect
    obtain ⟨hlength, hcount⟩ := appendRecord_count happend
    exact List.ne_nil_of_length_pos (hlength ▸ hcount)

variable (read) in
/-- A stretch of wire packets from which nothing comes out, and then the rest of a call. -/
theorem Advances.after (hpending : session'.recvPending = session.recvPending)
    (hnil : (deliver (normalizeReplayWindowSize m) accepted (piecesOf inner base read)).1 = [])
    (h : Advances m inner base
      (deliver (normalizeReplayWindowSize m) accepted (piecesOf inner base read)).2 session' queue
      result) :
    Advances m inner base accepted session (read ++ queue) result := by
  obtain ⟨more, hqueue, hholding, hout, hnone, hfailed⟩ := h
  refine ⟨read ++ more, ?_, ?_, ?_, hnone, ?_⟩
  · rw [hqueue, List.append_assoc]
  · rw [piecesOf_append, deliver_append]
    exact hholding
  · rw [piecesOf_append, deliver_append, hnil, List.nil_append, hout, hpending]
  · intro err herr
    obtain ⟨wire, hwire, hinspect⟩ := hfailed err herr
    exact ⟨wire, List.mem_append_right _ hwire, hinspect⟩

/-- The packet that one wire packet gives to the caller. -/
def handedOut : Except RecvError (Option Bytes) → List Bytes
  | .ok packet => packet.toList
  | .error _ => []

/-- What `openReceivedRecordNoStats` makes of a wire packet. -/
def Opens (m : ℕ) (inner : Inner) (base : Session) (accepted : List ℕ) (wire : Bytes)
    (result : Except RecvError (Option Bytes) × Session) : Prop :=
  Holding m base
      (deliver (normalizeReplayWindowSize m) accepted (piecesOf inner base [wire])).2 result.2 ∧
    handedOut result.1 ++ result.2.recvPending =
      (deliver (normalizeReplayWindowSize m) accepted (piecesOf inner base [wire])).1 ∧
    (handedOut result.1 = [] → result.2.recvPending = []) ∧
    ∀ err, result.1 = .error err → err ≠ .replayDetected → inspect inner base wire = .error err

/-- A wire packet that holds nothing changes nothing. -/
theorem opens_of_no_piece (h : Holding m base accepted session)
    (hpending : session.recvPending = []) (hnone : piecesOf inner base [wire] = [])
    {outcome : Except RecvError (Option Bytes)} (hout : handedOut outcome = [])
    (herror : ∀ err, outcome = .error err → inspect inner base wire = .error err) :
    Opens m inner base accepted wire (outcome, session) := by
  unfold Opens
  rw [hnone]
  refine ⟨h, ?_, fun _ => hpending, fun err herr _ => herror err herr⟩
  rw [hout, hpending]
  rfl

/-- A record that was opened and can be unpacked. -/
theorem opens_acceptRecord (h : Holding m base accepted session)
    (hpending : session.recvPending = []) {record : Record}
    (hpiece : piecesOf inner base [wire] = [⟨some record.seq, packets⟩])
    (happend : appendRecord [] record = .ok (packets, count)) :
    Opens m inner base accepted wire (acceptRecord session record) := by
  obtain ⟨hverdict, htracks⟩ := h.tracks.accept record.seq
  unfold Opens acceptRecord
  rw [hpiece]
  rcases haccept : ReplayWindow.accept session.replay record.seq with ⟨verdict, replay⟩
  rw [haccept] at hverdict htracks
  by_cases hadmits : Admits (normalizeReplayWindowSize m) accepted record.seq
  · obtain rfl : verdict = true := hverdict.mpr hadmits
    have hheld := h.with_replay htracks
    simp only [deliver, if_pos hadmits, List.append_nil]
    unfold appendRecord at happend
    split_ifs at happend with hbatch
    · obtain ⟨hlength, hcount⟩ := appendSecureBatchRecordPackets_count happend
      obtain ⟨packet, rest, rfl⟩ := List.exists_cons_of_length_pos (hlength ▸ hcount)
      rw [if_neg (by simp), if_neg (by simp [hbatch]), happend]
      refine ⟨hheld.with_recvPending rest, rfl, fun hnone => absurd hnone (by simp [handedOut]), ?_⟩
      rintro err ⟨⟩
    · cases happend
      rw [if_neg (by simp), if_pos (Bool.eq_false_iff.mpr hbatch)]
      refine ⟨hheld, ?_, fun hnone => absurd hnone (by simp [handedOut]), by rintro err ⟨⟩⟩
      show [record.plaintext] ++ session.recvPending = [record.plaintext]
      rw [hpending, List.append_nil]
  · obtain rfl : verdict = false := Bool.eq_false_iff.mpr fun hok => hadmits (hverdict.mp hok)
    simp only [deliver, if_neg hadmits, if_true]
    rw [acceptedOf_singleton, if_neg Bool.false_ne_true, List.append_nil] at htracks
    refine ⟨h.with_replay htracks, hpending, fun _ => hpending, ?_⟩
    rintro err ⟨⟩ hne
    exact absurd rfl hne

variable (inner) in
/-- **One wire packet of the single path.** -/
theorem opens_openReceivedRecordNoStats (h : Holding m base accepted session)
    (hpending : session.recvPending = []) (hdecodes : Decodes base wire) :
    Opens m inner base accepted wire (openReceivedRecordNoStats inner session wire) := by
  have hbase : inspect inner base wire = inspect inner session wire := by rw [h.inspect_eq]
  have hfails : ∀ err, inspect inner session wire = .error err →
      Opens m inner base accepted wire (.error err, session) := by
    intro err herr
    refine opens_of_no_piece h hpending (piecesOf_cons_error (hbase.trans herr) []) rfl ?_
    rintro err' ⟨⟩
    exact hbase.trans herr
  have hplain : inspect inner session wire = .ok (some ⟨none, [wire]⟩) →
      Opens m inner base accepted wire (.ok (some wire), session) := by
    intro hinspect
    unfold Opens
    rw [piecesOf_cons_ok (hbase.trans hinspect)]
    refine ⟨h, ?_, fun hnone => absurd hnone (by simp [handedOut]), by rintro err ⟨⟩⟩
    rw [hpending]
    rfl
  unfold openReceivedRecordNoStats
  by_cases hreset : isResetPacket wire = true
  · rw [if_pos hreset]
    exact hfails _ (if_pos hreset)
  rw [if_neg hreset]
  cases hhandle : handleDuplicateHandshake inner session wire with
  | error err =>
    refine hfails err ?_
    rw [inspect, if_neg hreset, hhandle]
    rfl
  | ok handled =>
    have hinspect : inspect inner session wire = _ := if_neg hreset
    rw [hhandle, ok_bind] at hinspect
    cases handled with
    | true =>
      refine opens_of_no_piece h hpending ?_ rfl (by rintro err ⟨⟩)
      exact piecesOf_cons_ok (hbase.trans hinspect) []
    | false =>
      rw [if_neg Bool.false_ne_true] at hinspect
      show Opens m inner base accepted wire (if session.recvEncrypted = false then _ else _)
      split_ifs at hinspect ⊢ with hencrypted hoffloaded
      · exact hplain hinspect
      · exact hplain hinspect
      · cases hopen : openEncryptedPacketNoReplay session wire with
        | error err =>
          rw [hopen] at hinspect
          exact hfails err hinspect
        | ok record =>
          obtain ⟨⟨packets, count⟩, happend⟩ := h.decodes hdecodes record hopen
          rw [hopen, ok_bind, happend, ok_bind] at hinspect
          exact opens_acceptRecord h hpending (piecesOf_cons_ok (hbase.trans hinspect) []) happend

theorem advances_recvLoop (h : Holding m base accepted session) (hpending : session.recvPending = [])
    (hdecodes : ∀ wire ∈ queue, Decodes base wire) :
    Advances m inner base accepted session queue (recvLoop inner session queue) := by
  induction queue generalizing session accepted with
  | nil =>
    refine ⟨[], rfl, h, ?_, fun _ => hpending, by rintro err ⟨⟩⟩
    rw [hpending]
    exact hpending
  | cons wire rest ih =>
    obtain ⟨hheld, hout, hempty, herror⟩ :=
      opens_openReceivedRecordNoStats inner h hpending (hdecodes wire List.mem_cons_self)
    have hrest := fun w hw => hdecodes w (List.mem_cons_of_mem _ hw)
    rcases hopen : openReceivedRecordNoStats inner session wire with ⟨outcome, session'⟩
    rw [hopen] at hheld hout hempty herror
    have hskip : handedOut outcome = [] →
        Advances m inner base accepted session (wire :: rest) (recvLoop inner session' rest) := by
      intro hnone
      have hpending' := hempty hnone
      rw [hnone, hpending'] at hout
      exact Advances.after [wire] (hpending'.trans hpending.symm) hout.symm
        (ih hheld hpending' hrest)
    have hstop : ∀ received : Received, received.handed = handedOut outcome →
        (∀ err, received = .failed err → inspect inner base wire = .error err) →
        Advances m inner base accepted session (wire :: rest) (received, session', rest) := by
      intro received hreceived hfailed
      refine ⟨[wire], rfl, hheld, ?_, ?_, ?_⟩
      · rw [hreceived, hpending]
        exact hout
      · rw [hreceived]
        exact hempty
      · exact fun err herr => ⟨wire, List.mem_cons_self, hfailed err herr⟩
    have hfail : ∀ err, outcome = .error err → err ≠ .replayDetected →
        Advances m inner base accepted session (wire :: rest) (.failed err, session', rest) := by
      rintro err rfl hne
      refine hstop (.failed err) rfl ?_
      rintro err' ⟨⟩
      exact herror err rfl hne
    rw [recvLoop, hopen]
    cases outcome with
    | error err =>
      cases err with
      | replayDetected => exact hskip rfl
      | invalidPacket detail => exact hfail _ rfl (by simp)
      | sessionReset => exact hfail _ rfl (by simp)
      | resend detail => exact hfail _ rfl (by simp)
    | ok packet =>
      cases packet with
      | none => exact hskip rfl
      | some packet => exact hstop (.packets [packet]) rfl (by rintro err ⟨⟩)

variable (inner) in
/-- **A `RecvPacket` call** hands out what it should. -/
theorem advances_recvPacket (h : Holding m base accepted session)
    (hdecodes : ∀ wire ∈ queue, Decodes base wire) :
    Advances m inner base accepted session queue (recvPacket inner session queue) := by
  unfold recvPacket
  cases hpending : session.recvPending with
  | nil => exact advances_recvLoop h hpending hdecodes
  | cons packet rest =>
    refine ⟨[], rfl, h.with_recvPending rest, ?_, fun hnone => absurd hnone (List.cons_ne_nil _ _),
      by rintro err ⟨⟩⟩
    rw [hpending]
    exact (List.append_nil (packet :: rest)).symm

/-- A call that fails and leaves everything as it was, but for the packets it read. -/
def Drops (m : ℕ) (inner : Inner) (base : Session) (accepted : List ℕ) (session : Session)
    (queue : List Bytes) (result : Received × Session × List Bytes) : Prop :=
  (∃ err, result.1 = .failed err ∧ ∃ wire ∈ queue, inspect inner base wire = .error err) ∧
    (∃ read, queue = read ++ result.2.2) ∧ Holding m base accepted result.2.1 ∧
    session.recvPending = [] ∧ result.2.1.recvPending = []

theorem advances_limitReceivedBatch
    (h : Holding m base
      (deliver (normalizeReplayWindowSize m) accepted (piecesOf inner base read)).2 session)
    (hpending : session.recvPending = [])
    (hpackets : (deliver (normalizeReplayWindowSize m) accepted (piecesOf inner base read)).1 =
      packets) (max : ℤ) (queue : List Bytes) :
    Advances m inner base accepted session (read ++ queue)
      (.packets (limitReceivedBatch session packets max).1,
        (limitReceivedBatch session packets max).2, queue) := by
  unfold limitReceivedBatch
  split_ifs with hfits
  · refine ⟨read, rfl, h, ?_, fun _ => hpending, by rintro err ⟨⟩⟩
    rw [hpending, hpackets, List.nil_append]
    exact List.append_nil _
  · refine ⟨read, rfl, h.with_recvPending _, ?_, ?_, by rintro err ⟨⟩⟩
    · rw [hpending, hpackets, List.nil_append]
      exact List.take_append_drop _ _
    · intro hnone
      rcases List.take_eq_nil_iff.mp hnone with hzero | hnil
      · omega
      · show packets.drop max.toNat = []
        rw [hnil, List.drop_nil]

/-- **The loop of a batch call.** -/
theorem recvBatchLoop_spec (h : Holding m base accepted session)
    (hpending : session.recvPending = []) (max : ℤ) (reads : List ℕ) (queue : List Bytes) :
    Advances m inner base accepted session queue (recvBatchLoop inner max reads session queue) ∨
      Drops m inner base accepted session queue (recvBatchLoop inner max reads session queue) := by
  induction reads generalizing session accepted queue with
  | nil =>
    refine Or.inl ⟨[], rfl, h, ?_, fun _ => hpending, by rintro err ⟨⟩⟩
    rw [hpending]
    exact hpending
  | cons size reads ih =>
    have hsplit : queue = queue.take size ++ queue.drop size := (List.take_append_drop _ _).symm
    rw [recvBatchLoop]
    cases hgroup : (queue.take size).mapM (inspect inner session) with
    | error err =>
      rw [openReceivedPacketBatch_error hgroup]
      obtain ⟨wire, hwire, hinspect⟩ := exists_of_mapM_eq_error hgroup
      rw [h.inspect_eq] at hinspect
      exact Or.inr ⟨⟨err, rfl, wire, List.mem_of_mem_take hwire, hinspect⟩, ⟨_, hsplit⟩, h,
        hpending, hpending⟩
    | ok items =>
      obtain ⟨replay, hopened, htracks⟩ := openReceivedPacketBatch_ok h.tracks hgroup
      rw [hopened, h.piecesOf_eq]
      rw [h.piecesOf_eq] at htracks
      have hheld := h.with_replay htracks
      cases hout : (deliver (normalizeReplayWindowSize m) accepted
          (piecesOf inner base (queue.take size))).1 with
      | nil =>
        -- nothing came out of this group: the next one
        have hsame := deliver_snd_of_nil
          (fun piece hmem => packets_ne_nil_of_mem_piecesOf hmem) hout
        rcases ih hheld hpending (queue.drop size) with hnext | hnext
        · left
          nth_rewrite 1 [hsplit]
          exact Advances.after _ rfl hout hnext
        · obtain ⟨⟨err, hfailed, wire, hwire, hinspect⟩, ⟨read, hread⟩, hheld', -,
            hpending'⟩ := hnext
          rw [hsame] at hheld'
          refine Or.inr ⟨⟨err, hfailed, wire, List.mem_of_mem_drop hwire, hinspect⟩,
            ⟨queue.take size ++ read, ?_⟩, hheld', hpending, hpending'⟩
          rw [List.append_assoc, ← hread, ← hsplit]
      | cons packet rest =>
        have hlimit := advances_limitReceivedBatch hheld hpending hout max (queue.drop size)
        rw [← hsplit] at hlimit
        exact Or.inl hlimit

/-- **A batch call** hands out what it should, or fails and drops what it has read. -/
theorem recvPacketsWithRelease_spec (h : Holding m base accepted session)
    (hdecodes : ∀ wire ∈ queue, Decodes base wire) (max : ℤ) (reads : List ℕ) :
    Advances m inner base accepted session queue
        (recvPacketsWithRelease inner max reads session queue) ∨
      Drops m inner base accepted session queue
        (recvPacketsWithRelease inner max reads session queue) := by
  unfold recvPacketsWithRelease
  split_ifs with hpending hsmall hbatch
  · refine Or.inl ⟨[], rfl, h.with_recvPending _, ?_, ?_, by rintro err ⟨⟩⟩
    · exact (List.take_append_drop _ _).trans (List.append_nil _).symm
    · intro hnone
      rcases List.take_eq_nil_iff.mp hnone with hzero | hnil
      · split_ifs at hzero <;> omega
      · exact absurd hnil hpending
  · exact Or.inl (advances_recvPacket inner h hdecodes)
  · exact recvBatchLoop_spec h (not_not.mp hpending) max reads queue
  · exact Or.inl (advances_recvPacket inner h hdecodes)

end Calls

/-! ## Runs of calls -/

/-- `RecvPacket`, or `RecvPacketsWithRelease`; `RecvPackets` copies what the latter returns. -/
inductive RecvCall where
  | packet
  | packets (max : ℤ) (reads : List ℕ)

def RecvCall.run (inner : Inner) (session : Session) (queue : List Bytes) :
    RecvCall → Received × Session × List Bytes
  | .packet => recvPacket inner session queue
  | .packets max reads => recvPacketsWithRelease inner max reads session queue

/-- A session, what the inner session holds for it, and the packets handed out so far. -/
structure Receiver where
  session : Session
  queue : List Bytes
  handedOut : List Bytes

/-- A caller that goes on after errors. -/
def Receiver.call (inner : Inner) (receiver : Receiver) (call : RecvCall) : Receiver :=
  let (received, session, queue) := call.run inner receiver.session receiver.queue
  ⟨session, queue, receiver.handedOut ++ received.handed⟩

def receive (inner : Inner) (receiver : Receiver) (calls : List RecvCall) : Receiver :=
  calls.foldl (Receiver.call inner) receiver

theorem receive_snoc (inner : Inner) (receiver : Receiver) (calls : List RecvCall)
    (call : RecvCall) :
    receive inner receiver (calls ++ [call]) = (receive inner receiver calls).call inner call := by
  rw [receive, List.foldl_append]
  rfl

/-- What `RecvPacket` calls hand out in the end. -/
def HandsOut (inner : Inner) (session : Session) (wires packets : List Bytes) : Prop :=
  ∃ enough, ∀ count, enough ≤ count →
    (receive inner ⟨session, wires, []⟩ (List.replicate count .packet)).handedOut = packets

variable {receiver : Receiver}

section Runs

variable {m : ℕ} {inner : Inner} {base session : Session} {accepted : List ℕ}

/-- What is still to be handed out. -/
def todo (m : ℕ) (inner : Inner) (base : Session) (accepted : List ℕ) (receiver : Receiver) :
    List Bytes :=
  receiver.session.recvPending ++
    (deliver (normalizeReplayWindowSize m) accepted (piecesOf inner base receiver.queue)).1

/-- A call that does what it should moves packets from what is to be done to what is done. -/
theorem Advances.todo_eq {call : RecvCall}
    (h : Advances m inner base accepted receiver.session receiver.queue
      (call.run inner receiver.session receiver.queue)) :
    ∃ accepted', Holding m base accepted' (receiver.call inner call).session ∧
      (receiver.call inner call).handedOut ++
          todo m inner base accepted' (receiver.call inner call) =
        receiver.handedOut ++ todo m inner base accepted receiver := by
  obtain ⟨read, hqueue, hheld, hout, -⟩ := h
  have hpieces : piecesOf inner base receiver.queue =
      piecesOf inner base read ++ piecesOf inner base (receiver.call inner call).queue := by
    rw [← piecesOf_append]
    exact congrArg (piecesOf inner base) hqueue
  refine ⟨_, hheld, ?_⟩
  unfold todo
  rw [hpieces, deliver_append]
  show (receiver.handedOut ++ (call.run inner receiver.session receiver.queue).1.handed) ++
    ((call.run inner receiver.session receiver.queue).2.1.recvPending ++ _) = _
  rw [List.append_assoc, ← List.append_assoc (Received.handed _), hout, List.append_assoc]

theorem length_recvLoop_lt (wire : Bytes) (rest : List Bytes) (session : Session) :
    (recvLoop inner session (wire :: rest)).2.2.length < (wire :: rest).length := by
  induction rest generalizing wire session with
  | nil =>
    rw [recvLoop]
    split <;> simp [recvLoop]
  | cons next rest ih =>
    rw [recvLoop]
    split
    · exact (ih next _).trans (Nat.lt_succ_self _)
    · exact Nat.lt_succ_self _
    · exact (ih next _).trans (Nat.lt_succ_self _)
    · exact Nat.lt_succ_self _

theorem call_packet_of_done (hpending : receiver.session.recvPending = [])
    (hqueue : receiver.queue = []) : receiver.call inner .packet = receiver := by
  obtain ⟨session, queue, out⟩ := receiver
  dsimp only at hpending hqueue
  subst hqueue
  simp [Receiver.call, RecvCall.run, recvPacket, hpending, recvLoop, Received.handed]

variable (inner) in
/-- Every `RecvPacket` call hands out a packet or reads one, until there is none left. -/
theorem call_packet_progress (hleft : ¬ (receiver.session.recvPending = [] ∧ receiver.queue = [])) :
    (receiver.call inner .packet).queue.length + receiver.handedOut.length <
      receiver.queue.length + (receiver.call inner .packet).handedOut.length := by
  obtain ⟨session, queue, out⟩ := receiver
  cases hpending : session.recvPending with
  | nil =>
    have hrun : RecvCall.run inner session queue .packet = recvLoop inner session queue := by
      rw [RecvCall.run, recvPacket, hpending]
    simp only [Receiver.call, hrun, List.length_append]
    cases queue with
    | nil => exact absurd ⟨hpending, rfl⟩ hleft
    | cons wire rest =>
      exact Nat.add_lt_add_of_lt_of_le (length_recvLoop_lt wire rest session)
        (Nat.le_add_right _ _)
  | cons packet rest =>
    have hrun : RecvCall.run inner session queue .packet =
        (.packets [packet], { session with recvPending := rest }, queue) := by
      rw [RecvCall.run, recvPacket, hpending]
    rw [Receiver.call, hrun, List.length_append]
    exact Nat.add_lt_add_left (Nat.lt_succ_self _) _

/-- **`RecvPacket` calls** hand out everything there is, and then wait. -/
theorem receive_packets (receiver : Receiver) (h : Holding m base accepted receiver.session)
    (hdecodes : ∀ wire ∈ receiver.queue, Decodes base wire) :
    ∃ enough, ∀ count, enough ≤ count →
      (receive inner receiver (List.replicate count .packet)).handedOut =
        receiver.handedOut ++ todo m inner base accepted receiver := by
  induction hsize : (todo m inner base accepted receiver).length + receiver.queue.length
    using Nat.strong_induction_on generalizing receiver accepted with
  | _ size ih =>
    have hadvances : Advances m inner base accepted receiver.session receiver.queue
        (RecvCall.run inner receiver.session receiver.queue .packet) :=
      advances_recvPacket inner h hdecodes
    by_cases hdone : receiver.session.recvPending = [] ∧ receiver.queue = []
    · have hnone : todo m inner base accepted receiver = [] := by
        rw [todo, hdone.1, hdone.2]
        rfl
      refine ⟨0, fun count _ => ?_⟩
      rw [hnone, List.append_nil]
      induction count with
      | zero => rfl
      | succ count ihc =>
        show (receive inner (receiver.call inner .packet) _).handedOut = _
        rw [call_packet_of_done hdone.1 hdone.2]
        exact ihc (Nat.zero_le _)
    · obtain ⟨accepted', hheld, hsame⟩ := Advances.todo_eq hadvances
      have hless := call_packet_progress inner hdone
      have hlength := congrArg List.length hsame
      rw [List.length_append, List.length_append] at hlength
      have hsub : ∀ wire ∈ (receiver.call inner .packet).queue, Decodes base wire := by
        intro wire hwire
        obtain ⟨read, hqueue, -⟩ := hadvances
        refine hdecodes wire ?_
        rw [hqueue]
        exact List.mem_append_right _ hwire
      obtain ⟨enough, henough⟩ := ih _ (by omega) (receiver.call inner .packet) hheld hsub rfl
      refine ⟨enough + 1, fun count hcount => ?_⟩
      obtain ⟨more, rfl⟩ : ∃ more, count = more + 1 := ⟨count - 1, by omega⟩
      show (receive inner (receiver.call inner .packet) _).handedOut = _
      rw [henough more (by omega), hsame]

theorem handsOut_todo {wires : List Bytes} (h : Holding m base accepted session)
    (hdecodes : ∀ wire ∈ wires, Decodes base wire) :
    HandsOut inner session wires (session.recvPending ++
      (deliver (normalizeReplayWindowSize m) accepted (piecesOf inner base wires)).1) :=
  receive_packets ⟨session, wires, []⟩ h hdecodes

theorem HandsOut.unique {wires packets' : List Bytes} (h : HandsOut inner session wires packets)
    (h' : HandsOut inner session wires packets') : packets = packets' := by
  obtain ⟨enough, henough⟩ := h
  obtain ⟨enough', henough'⟩ := h'
  rw [← henough (max enough enough') (le_max_left _ _),
    ← henough' (max enough enough') (le_max_right _ _)]

end Runs

/-! ## Batch calls against `RecvPacket` -/

/-- The calls have handed out, or hold, what `RecvPacket` calls hand out of the same wire
packets. -/
def Agrees (inner : Inner) (session : Session) (wires : List Bytes) (calls : List RecvCall) : Prop :=
  ∀ read, wires = read ++ (receive inner ⟨session, wires, []⟩ calls).queue →
    HandsOut inner session read
      ((receive inner ⟨session, wires, []⟩ calls).handedOut ++
        (receive inner ⟨session, wires, []⟩ calls).session.recvPending)

/-- If the next call fails, then `RecvPacket` calls in its place would have handed out nothing
of what it has read. -/
def LosesNothing (inner : Inner) (receiver : Receiver) (call : RecvCall) : Prop :=
  (∃ err, (call.run inner receiver.session receiver.queue).1 = .failed err) →
    ∀ read, receiver.queue = read ++ (receiver.call inner call).queue →
      HandsOut inner receiver.session read []

section Agreement

variable {m : ℕ} {inner : Inner} {session : Session} {accepted : List ℕ} {wires : List Bytes}

/-- A receiver that is where `RecvPacket` calls would have brought it. -/
def InStep (m : ℕ) (inner : Inner) (session : Session) (accepted : List ℕ) (wires : List Bytes)
    (receiver : Receiver) : Prop :=
  ∃ read, wires = read ++ receiver.queue ∧
    Holding m session
      (deliver (normalizeReplayWindowSize m) accepted (piecesOf inner session read)).2
      receiver.session ∧
    receiver.handedOut ++ receiver.session.recvPending = session.recvPending ++
      (deliver (normalizeReplayWindowSize m) accepted (piecesOf inner session read)).1

variable (inner) in
theorem call_spec (hdecodes : ∀ wire ∈ wires, Decodes session wire) {accepted : List ℕ}
    (receiver : Receiver) (hheld : Holding m session accepted receiver.session)
    (hsub : ∀ wire ∈ receiver.queue, wire ∈ wires) (call : RecvCall) :
    Advances m inner session accepted receiver.session receiver.queue
        (call.run inner receiver.session receiver.queue) ∨
      Drops m inner session accepted receiver.session receiver.queue
        (call.run inner receiver.session receiver.queue) := by
  have hqueue := fun wire hwire => hdecodes wire (hsub wire hwire)
  cases call with
  | packet => exact Or.inl (advances_recvPacket inner hheld hqueue)
  | packets max reads => exact recvPacketsWithRelease_spec hheld hqueue max reads

theorem InStep.of_advances {call : RecvCall} {read : List Bytes}
    (hread : wires = read ++ receiver.queue)
    (hout : receiver.handedOut ++ receiver.session.recvPending = session.recvPending ++
      (deliver (normalizeReplayWindowSize m) accepted (piecesOf inner session read)).1)
    (h : Advances m inner session
      (deliver (normalizeReplayWindowSize m) accepted (piecesOf inner session read)).2
      receiver.session receiver.queue (call.run inner receiver.session receiver.queue)) :
    InStep m inner session accepted wires (receiver.call inner call) := by
  obtain ⟨more, hqueue, hheld, hmore, -⟩ := h
  refine ⟨read ++ more, ?_, ?_, ?_⟩
  · rw [hread, List.append_assoc]
    exact congrArg (read ++ ·) hqueue
  · rw [piecesOf_append, deliver_append]
    exact hheld
  · rw [piecesOf_append, deliver_append]
    show receiver.handedOut ++ (call.run inner receiver.session receiver.queue).1.handed ++
      (call.run inner receiver.session receiver.queue).2.1.recvPending = _
    rw [List.append_assoc, hmore, ← List.append_assoc, hout, List.append_assoc]

/-- A receiver in step agrees with `RecvPacket`. -/
theorem InStep.handsOut (hdecodes : ∀ wire ∈ wires, Decodes session wire)
    (htracks : Tracks (normalizeReplayWindowSize m) session.replay accepted)
    (h : InStep m inner session accepted wires receiver) {read : List Bytes}
    (hread : wires = read ++ receiver.queue) :
    HandsOut inner session read (receiver.handedOut ++ receiver.session.recvPending) := by
  obtain ⟨read', hread', -, hout⟩ := h
  obtain rfl : read = read' := List.append_cancel_right (hread.symm.trans hread')
  rw [hout]
  refine handsOut_todo ⟨rfl, htracks⟩ fun wire hwire => hdecodes wire ?_
  rw [hread]
  exact List.mem_append_left _ hwire

/-- **One more call.**  A receiver in step stays in step iff the call loses nothing, and iff it
agrees with `RecvPacket` afterwards. -/
theorem inStep_call (hdecodes : ∀ wire ∈ wires, Decodes session wire)
    (htracks : Tracks (normalizeReplayWindowSize m) session.replay accepted)
    (h : InStep m inner session accepted wires receiver) (call : RecvCall) :
    (LosesNothing inner receiver call →
      InStep m inner session accepted wires (receiver.call inner call)) ∧
    ((∀ read, wires = read ++ (receiver.call inner call).queue →
        HandsOut inner session read ((receiver.call inner call).handedOut ++
          (receiver.call inner call).session.recvPending)) →
      LosesNothing inner receiver call) := by
  obtain ⟨read, hread, hheld, hout⟩ := h
  have hsub : ∀ wire ∈ receiver.queue, wire ∈ wires := by
    intro wire hwire
    rw [hread]
    exact List.mem_append_right _ hwire
  -- what `RecvPacket` calls hand out from here
  have hsingle : ∀ more, receiver.queue = more ++ (receiver.call inner call).queue →
      HandsOut inner receiver.session more (receiver.session.recvPending ++
        (deliver (normalizeReplayWindowSize m)
          (deliver (normalizeReplayWindowSize m) accepted (piecesOf inner session read)).2
          (piecesOf inner session more)).1) := by
    intro more hmore
    refine handsOut_todo hheld fun wire hwire => hdecodes wire (hsub wire ?_)
    rw [hmore]
    exact List.mem_append_left _ hwire
  rcases call_spec inner hdecodes receiver hheld hsub call with hadvances | hdrops
  · refine ⟨fun _ => InStep.of_advances hread hout hadvances, ?_⟩
    rintro - ⟨err, hfailed⟩ more hmore
    obtain ⟨more', hmore', -, hnew, hnone, -⟩ := hadvances
    obtain rfl : more = more' := List.append_cancel_right (hmore.symm.trans hmore')
    have hempty : (call.run inner receiver.session receiver.queue).1.handed = [] := by
      rw [hfailed]
      rfl
    rw [hempty, hnone hempty, List.nil_append] at hnew
    have hmust := hsingle more hmore
    rw [← hnew] at hmust
    exact hmust
  · obtain ⟨⟨err, hfailed, -⟩, ⟨more, hmore⟩, hheld', hpending, hpending'⟩ := hdrops
    have hqueue : receiver.queue = more ++ (receiver.call inner call).queue := hmore
    have hsame : (receiver.call inner call).handedOut = receiver.handedOut := by
      show receiver.handedOut ++ (call.run inner receiver.session receiver.queue).1.handed = _
      rw [hfailed]
      exact List.append_nil _
    have hempty : (receiver.call inner call).session.recvPending = [] := hpending'
    have hmust := hsingle more hqueue
    rw [hpending, List.nil_append] at hmust
    constructor
    · intro hloses
      have hnil := (hloses ⟨err, hfailed⟩ more hqueue).unique hmust
      have hkept := deliver_snd_of_nil
        (fun piece hmem => packets_ne_nil_of_mem_piecesOf hmem) hnil.symm
      refine ⟨read ++ more, ?_, ?_, ?_⟩
      · rw [hread, hqueue, List.append_assoc]
      · rw [piecesOf_append, deliver_append, hkept]
        exact hheld'
      · rw [piecesOf_append, deliver_append, ← hnil, List.append_nil, hsame, hempty, ← hout,
          hpending]
    · rintro hagrees - more' hmore'
      obtain rfl : more' = more := List.append_cancel_right (hmore'.symm.trans hqueue)
      have hall := hagrees (read ++ more') (by rw [hread, hqueue, List.append_assoc])
      have hspec : HandsOut inner session (read ++ more') (session.recvPending ++
          (deliver (normalizeReplayWindowSize m) accepted
            (piecesOf inner session (read ++ more'))).1) :=
        handsOut_todo ⟨rfl, htracks⟩ fun wire hwire => hdecodes wire (by
          rw [hread, hqueue, ← List.append_assoc]
          exact List.mem_append_left _ hwire)
      have heq := hall.unique hspec
      rw [hsame, hempty, List.append_nil, piecesOf_append, deliver_append, ← List.append_assoc,
        ← hout, hpending, List.append_nil] at heq
      have hnil := List.self_eq_append_right.mp heq
      rw [hnil] at hmust
      exact hmust

/-- The packets handed out, and those that wait, are the packets of some of the pieces, whose
numbers are new and all different. -/
def Picks (m : ℕ) (inner : Inner) (session : Session) (accepted : List ℕ) (wires : List Bytes)
    (receiver : Receiver) : Prop :=
  ∃ (read : List Bytes) (picked : List Piece), wires = read ++ receiver.queue ∧
    picked.Sublist (piecesOf inner session read) ∧
    AllNew accepted (picked.filterMap Piece.seq) ∧
    Holding m session (accepted ++ picked.filterMap Piece.seq) receiver.session ∧
    receiver.handedOut ++ receiver.session.recvPending =
      session.recvPending ++ picked.flatMap Piece.packets

theorem Picks.call (hdecodes : ∀ wire ∈ wires, Decodes session wire)
    (h : Picks m inner session accepted wires receiver) (call : RecvCall) :
    Picks m inner session accepted wires (receiver.call inner call) := by
  obtain ⟨read, picked, hread, hsub, hnew, hheld, hout⟩ := h
  have hmem : ∀ wire ∈ receiver.queue, wire ∈ wires := by
    intro wire hwire
    rw [hread]
    exact List.mem_append_right _ hwire
  rcases call_spec inner hdecodes receiver hheld hmem call with hadvances | hdrops
  · obtain ⟨more, hmore, hheld', hhanded, -⟩ := hadvances
    obtain ⟨picked', hsub', hpackets, haccepted, hnew'⟩ := deliver_picks
      (normalizeReplayWindowSize m) (accepted ++ picked.filterMap Piece.seq)
      (piecesOf inner session more)
    rw [haccepted, List.append_assoc, ← List.filterMap_append] at hheld'
    refine ⟨read ++ more, picked ++ picked', ?_, ?_, ?_, hheld', ?_⟩
    · rw [hread, List.append_assoc]
      exact congrArg (read ++ ·) hmore
    · rw [piecesOf_append]
      exact hsub.append hsub'
    · rw [List.filterMap_append]
      exact hnew.append hnew'
    · show receiver.handedOut ++ (call.run inner receiver.session receiver.queue).1.handed ++
        (call.run inner receiver.session receiver.queue).2.1.recvPending = _
      rw [List.append_assoc, hhanded, ← List.append_assoc, hout, hpackets, List.append_assoc,
        List.flatMap_append]
  · obtain ⟨⟨err, hfailed, -⟩, ⟨more, hmore⟩, hheld', hpending, hpending'⟩ := hdrops
    refine ⟨read ++ more, picked, ?_, ?_, hnew, hheld', ?_⟩
    · rw [hread, List.append_assoc]
      exact congrArg (read ++ ·) hmore
    · rw [piecesOf_append]
      exact hsub.trans (List.sublist_append_left _ _)
    · show receiver.handedOut ++ (call.run inner receiver.session receiver.queue).1.handed ++
        (call.run inner receiver.session receiver.queue).2.1.recvPending = _
      rw [hfailed, hpending', ← hout, hpending, List.append_nil, List.append_nil]
      exact List.append_nil _

variable (inner) in
theorem picks_receive (hdecodes : ∀ wire ∈ wires, Decodes session wire)
    (htracks : Tracks (normalizeReplayWindowSize m) session.replay accepted)
    (calls : List RecvCall) :
    Picks m inner session accepted wires (receive inner ⟨session, wires, []⟩ calls) := by
  induction calls using List.reverseRecOn with
  | nil =>
    refine ⟨[], [], rfl, .slnil, ⟨List.nodup_nil, by simp⟩, ⟨rfl, ?_⟩, ?_⟩
    · rw [List.filterMap_nil, List.append_nil]
      exact htracks
    · exact (List.append_nil _).symm
  | append_singleton calls call ih =>
    rw [receive_snoc]
    exact ih.call hdecodes call

/-- In step after every prefix of the calls, as long as none of them loses a packet. -/
theorem inStep_receive (hdecodes : ∀ wire ∈ wires, Decodes session wire)
    (htracks : Tracks (normalizeReplayWindowSize m) session.replay accepted)
    {calls : List RecvCall}
    (hloses : ∀ done call, done ++ [call] <+: calls →
      LosesNothing inner (receive inner ⟨session, wires, []⟩ done) call) :
    InStep m inner session accepted wires (receive inner ⟨session, wires, []⟩ calls) := by
  induction calls using List.reverseRecOn with
  | nil => exact ⟨[], rfl, ⟨rfl, htracks⟩, (List.append_nil _).symm⟩
  | append_singleton calls call ih =>
    have hbefore := ih fun done next hdone =>
      hloses done next (hdone.trans (List.prefix_append _ _))
    rw [receive_snoc]
    exact (inStep_call hdecodes htracks hbefore call).1 (hloses calls call List.prefix_rfl)

/-- As long as the calls agree with `RecvPacket`, the receiver is in step and no call loses a
packet. -/
theorem losesNothing_of_agrees (hdecodes : ∀ wire ∈ wires, Decodes session wire)
    (htracks : Tracks (normalizeReplayWindowSize m) session.replay accepted)
    {calls : List RecvCall} (hagrees : ∀ done, done <+: calls → Agrees inner session wires done)
    {done : List RecvCall} {call : RecvCall} (hcall : done ++ [call] <+: calls) :
    LosesNothing inner (receive inner ⟨session, wires, []⟩ done) call ∧
      InStep m inner session accepted wires (receive inner ⟨session, wires, []⟩ done) := by
  induction done using List.reverseRecOn generalizing call with
  | nil =>
    have hstart : InStep m inner session accepted wires ⟨session, wires, []⟩ :=
      ⟨[], rfl, ⟨rfl, htracks⟩, (List.append_nil _).symm⟩
    exact ⟨(inStep_call hdecodes htracks hstart call).2 (hagrees [call] hcall), hstart⟩
  | append_singleton done last ih =>
    obtain ⟨hloses, hbefore⟩ := ih ((List.prefix_append _ _).trans hcall)
    have hnow := (inStep_call hdecodes htracks hbefore last).1 hloses
    rw [← receive_snoc] at hnow
    refine ⟨(inStep_call hdecodes htracks hnow call).2 ?_, hnow⟩
    have hnext := hagrees _ hcall
    unfold Agrees at hnext
    rw [receive_snoc] at hnext
    exact hnext

end Agreement

/-! ## A forged packet in a group -/

/-- A cipher that leaves its plaintext as it is. -/
def plainAEAD : AEAD where
  overhead := 0
  sealBytes := fun _ plaintext _ => plaintext
  openBytes := fun _ ciphertext _ => .ok ciphertext

def plainServer : Session := serverWith plainAEAD

/-- An inner session that reads batches. -/
def batchInner : Inner where
  builder := false
  batchReceive := true
  exportKeyingMaterial := none
  enableCryptoOffload := none
  resend := .ok ()

/-- A record of the client, and behind it a byte that is no record. -/
def recordAndForgery : List Bytes :=
  [sealRecord plainAEAD [] .aes256GCMX25519 7 ⟨1, 0, [5]⟩, [0]]

theorem decodes_recordAndForgery : ∀ wire ∈ recordAndForgery, Decodes plainServer wire := by
  have hrecord : openEncryptedPacketNoReplay plainServer
      (sealRecord plainAEAD [] .aes256GCMX25519 7 ⟨1, 0, [5]⟩) = .ok ⟨1, 0, [5]⟩ := by
    decide
  have hforged : openEncryptedPacketNoReplay plainServer [0] = .error (.invalidPacket "") := by
    decide
  intro wire hwire record hopen
  rcases List.mem_pair.mp hwire with rfl | rfl
  · cases hrecord.symm.trans hopen
    exact ⟨([[5]], 1), by decide⟩
  · cases hforged.symm.trans hopen

end SecureTransport

/-
# Delivery over a reliable inner session

Two sessions of one handshake and the inner session between them, from one side to the other:
what is sent is handed out, in order, packet by packet.  The packets on the way, the packets
that wait at the receiver and those handed out make up what was sent (`Flows`); every record
on the way has the next number, so that the replay window admits it.

* `paired_newSession` : the sessions of one handshake can open each other's records;
* `flows_step` : one call keeps the flow;
* `delivery` : every run hands out a prefix of what was sent, and all of it in the end.
-/
import TrustIX.SecureReceive

namespace SecureTransport

open SecureHandshake Fallible SlidingWindow ReplayWindow

/-! ## Two ends of one session -/

/-- `receiver` opens what `sender` seals. -/
structure Paired (sender receiver : Session) (aead : AEAD) : Prop where
  sendEncrypted : sender.sendEncrypted = true
  userspace : sender.cryptoOffloaded = false
  sendAEAD : sender.sendAEAD = some aead
  recvEncrypted : receiver.recvEncrypted = true
  recvAEAD : receiver.recvAEAD = some aead
  iv : receiver.recvIV = sender.sendIV
  suite : receiver.suite = sender.suite
  epoch : receiver.epoch = sender.epoch
  epoch_lt : receiver.epoch < 2 ^ 64
  batchRecords : receiver.batchRecords = sender.batchRecords
  correct : aead.Correct

/-- The two sides of a handshake with the same configuration: one epoch, one shared secret
and one source of key material. -/
structure SameConfiguration (crypto : Crypto) (handshake : Handshake) (role : Side)
    (sendInner recvInner : Inner) (sendKey recvKey : Bytes) (sendOptions recvOptions : Options) :
    Prop where
  epoch : sessionEpoch crypto handshake recvOptions = sessionEpoch crypto handshake sendOptions
  secret : crypto.ecdh recvKey (peerPublicKey (peerSide role) handshake) =
    crypto.ecdh sendKey (peerPublicKey role handshake)
  material : ∀ secret, deriveSessionKeyMaterial crypto recvInner secret handshake recvOptions =
    deriveSessionKeyMaterial crypto sendInner secret handshake sendOptions

theorem peerSide_peerSide (role : Side) : peerSide (peerSide role) = role := by
  cases role with
  | client => rfl
  | server => rfl

section Pairing

variable {crypto : Crypto} {handshake : Handshake} {role : Side} {sendInner recvInner : Inner}
  {sendKey recvKey : Bytes} {sendOptions recvOptions : Options} {sender receiver : Session}

/-- **The sessions of one handshake.** -/
theorem paired_newSession
    (hsender : newSession crypto sendInner role sendKey handshake sendOptions = .ok sender)
    (hreceiver : newSession crypto recvInner (peerSide role) recvKey handshake recvOptions =
      .ok receiver)
    (hsame : SameConfiguration crypto handshake role sendInner recvInner sendKey recvKey
      sendOptions recvOptions)
    (hcorrect : ∀ suite key aead, crypto.newAEAD suite key = .ok aead → aead.Correct)
    (hsend : sender.sendEncrypted = true) (huserspace : sender.cryptoOffloaded = false)
    (hrecv : receiver.recvEncrypted = true) : ∃ aead, Paired sender receiver aead := by
  obtain ⟨hfresh, hkeys⟩ := newSession_eq_ok hsender
  obtain ⟨hfresh', hkeys'⟩ := newSession_eq_ok hreceiver
  obtain ⟨material, ⟨secret, hsecret, hmaterial⟩, hsends, -⟩ := hkeys (Or.inl hsend)
  obtain ⟨material', ⟨secret', hsecret', hmaterial'⟩, -, hreceives⟩ := hkeys' (Or.inr hrecv)
  -- both sides end up with the same bytes
  rw [hsame.secret, hsecret] at hsecret'
  cases hsecret'
  rw [hsame.material, hmaterial] at hmaterial'
  cases hmaterial'
  obtain ⟨hiv, aead, haead, hnew⟩ := hsends hsend huserspace
  obtain ⟨hiv', aead', haead', hnew'⟩ := hreceives hrecv
  rw [peerSide_peerSide] at hiv' hnew'
  cases hnew.symm.trans hnew'
  have hlt : receiver.epoch < 2 ^ 64 := by
    rw [hfresh'.epoch]
    exact sessionEpoch_lt crypto handshake recvOptions
  exact ⟨aead, hsend, huserspace, haead, hrecv, haead', hiv'.trans hiv.symm,
    hfresh'.suite.trans hfresh.suite.symm,
    hfresh'.epoch.trans (hsame.epoch.trans hfresh.epoch.symm), hlt,
    hfresh'.batchRecords.trans hfresh.batchRecords.symm, hcorrect _ _ _ hnew⟩

end Pairing

/-! ## What the receiver sees of a record -/

section Records

variable {sender receiver : Session} {aead : AEAD} {inner : Inner}

theorem valid_record {batchRecords : Bool} {frame : Frame} (hfits : frame.Fits batchRecords)
    {seq : ℕ} (hseq : seq < 2 ^ 64) : (frame.record seq).Valid batchRecords := by
  cases frame with
  | single packet => exact ⟨Or.inl rfl, hseq⟩
  | batch packets => exact ⟨Or.inr ⟨rfl, hfits.2⟩, hseq⟩

theorem appendRecord_record {batchRecords : Bool} {frame : Frame} (hfits : frame.Fits batchRecords)
    (seq : ℕ) : ∃ count, appendRecord [] (frame.record seq) = .ok (frame.packets, count) := by
  have hsingle : isBatch 0 = false := by decide
  have hbatch : isBatch dataFlagBatch = true := by decide
  cases frame with
  | single packet =>
    refine ⟨1, if_neg ?_⟩
    exact Bool.eq_false_iff.mp hsingle
  | batch packets =>
    refine ⟨packets.length, (if_pos hbatch).trans ?_⟩
    exact appendSecureBatchRecordPackets_batchPlaintext [] hfits.1

/-- The first bytes of a record. -/
theorem take_sealRecord (aead : AEAD) (iv : Bytes) (suite : Suite) (epoch : ℕ) (record : Record) :
    (sealRecord aead iv suite epoch record).take 4 = dataMagic := by
  rfl

variable (inner receiver) in
theorem ne_handshake_of_take {wire : Bytes} (h : wire.take 4 = dataMagic) :
    isResetPacket wire = false ∧
      handleDuplicateHandshake inner receiver wire = .ok false ∧
      shouldOpenUserspaceEncryptedFallback wire = true := by
  have hmagic : wire.take 4 ≠ handshakeMagic := by
    rw [h]
    decide
  refine ⟨?_, if_pos (Or.inr (Or.inl hmagic)), ?_⟩
  · have hbeq : (wire.take 4 == handshakeMagic) = false := by simpa using hmagic
    unfold isResetPacket
    rw [hbeq, Bool.and_false, Bool.false_and, Bool.false_and]
  · have hlength : 4 ≤ wire.length := by
      have := congrArg List.length h
      rw [List.length_take] at this
      change min 4 wire.length = 4 at this
      omega
    unfold shouldOpenUserspaceEncryptedFallback
    rw [Bool.and_eq_true]
    exact ⟨decide_eq_true hlength, beq_iff_eq.mpr h⟩

variable (inner) in
/-- **A record on the wire** holds the packets it was sealed with, under its number. -/
theorem inspect_sealWith (h : Paired sender receiver aead) {frame : Frame}
    (hfits : frame.Fits sender.batchRecords) {seq : ℕ} (hseq : seq < 2 ^ 64) :
    inspect inner receiver (sender.sealWith aead (frame.record seq)) =
        .ok (some ⟨some seq, frame.packets⟩) ∧
      Decodes receiver (sender.sealWith aead (frame.record seq)) := by
  obtain ⟨hreset, hhandle, hopens⟩ := ne_handshake_of_take receiver inner
    (take_sealRecord aead sender.sendIV sender.suite sender.epoch (frame.record seq))
  have hopen : openEncryptedPacketNoReplay receiver
      (sender.sealWith aead (frame.record seq)) = .ok (frame.record seq) := by
    rw [Session.sealWith, ← h.iv, ← h.suite, ← h.epoch]
    refine openEncryptedPacketNoReplay_sealRecord h.recvAEAD h.correct h.epoch_lt ?_
    rw [h.batchRecords]
    exact valid_record hfits hseq
  obtain ⟨count, happend⟩ := appendRecord_record hfits seq
  have hnumber : (frame.record seq).seq = seq := by
    cases frame with
    | single packet => rfl
    | batch packets => rfl
  constructor
  · unfold inspect
    rw [Session.sealWith] at hopen ⊢
    rw [if_neg (by rw [hreset]; exact Bool.false_ne_true), hhandle, ok_bind,
      if_neg Bool.false_ne_true, if_neg (by rw [h.recvEncrypted]; exact Bool.false_ne_true.symm),
      if_neg (by rw [hopens]; exact fun hand => Bool.false_ne_true hand.2.symm), hopen, ok_bind,
      happend, ok_bind, hnumber]
  · intro record hrecord
    cases hopen.symm.trans hrecord
    exact ⟨_, happend⟩

variable (inner) in
/-- The pieces of records in the order of their numbers, and that every one is looked at without
an error. -/
theorem piecesOf_numberFrames (h : Paired sender receiver aead) {frames : List Frame}
    (hfits : ∀ frame ∈ frames, frame.Fits sender.batchRecords) {last : ℕ}
    (hlast : last + frames.length < 2 ^ 64) :
    let wires := (numberFrames last frames).map (sender.sealWith aead)
    (piecesOf inner receiver wires).filterMap Piece.seq = List.range' (last + 1) frames.length ∧
      (piecesOf inner receiver wires).flatMap Piece.packets = frames.flatMap Frame.packets ∧
      ∀ wire ∈ wires, (∃ piece, inspect inner receiver wire = .ok piece) ∧
        Decodes receiver wire := by
  induction frames generalizing last with
  | nil => exact ⟨rfl, rfl, fun wire hwire => absurd hwire List.not_mem_nil⟩
  | cons frame rest ih =>
    rw [List.length_cons] at hlast
    obtain ⟨hinspect, hdecodes⟩ := inspect_sealWith inner h (hfits frame List.mem_cons_self)
      (show last + 1 < 2 ^ 64 by omega)
    obtain ⟨hseqs, hpackets, hknown⟩ := ih (fun f hf => hfits f (List.mem_cons_of_mem _ hf))
      (show last + 1 + rest.length < 2 ^ 64 by omega)
    dsimp only
    rw [numberFrames, List.map_cons, piecesOf_cons_ok hinspect]
    refine ⟨congrArg ((last + 1) :: ·) hseqs, congrArg (frame.packets ++ ·) hpackets, ?_⟩
    exact List.forall_mem_cons.mpr ⟨⟨⟨_, hinspect⟩, hdecodes⟩, hknown⟩

end Records

/-- Numbers above all accepted ones, one after the other, are all admitted. -/
theorem deliver_inOrder {n : ℕ} {pieces : List Piece} {accepted : List ℕ} {last count : ℕ}
    (hhighest : highest accepted ≤ last)
    (hseqs : pieces.filterMap Piece.seq = List.range' (last + 1) count) :
    deliver n accepted pieces =
      (pieces.flatMap Piece.packets, accepted ++ List.range' (last + 1) count) := by
  induction pieces generalizing accepted last count with
  | nil =>
    rw [← hseqs]
    exact congrArg (([] : List Bytes), ·) (List.append_nil accepted).symm
  | cons piece rest ih =>
    obtain ⟨seq, packets⟩ := piece
    cases seq with
    | none => simp only [deliver, ih hhighest hseqs, List.flatMap_cons]
    | some seq =>
      cases count with
      | zero => exact absurd hseqs (by simp)
      | succ count =>
        obtain ⟨rfl, hrest⟩ := List.cons.inj hseqs
        have hadmits : Admits n accepted (last + 1) := by
          refine ⟨Nat.succ_ne_zero _, fun hmem => ?_, Or.inl (by omega)⟩
          have := le_highest hmem
          omega
        have hnext : highest (accepted ++ [last + 1]) ≤ last + 1 := by
          rw [highest_append_singleton]
          omega
        simp only [deliver, if_pos hadmits, ih hnext hrest, List.flatMap_cons,
          List.range'_succ, List.append_assoc]
        rfl

/-! ## The link -/

/-- Both ends, the inner session between them, and what was sent and handed out so far. -/
structure Link where
  sender : Session
  receiver : Session
  queue : List Bytes
  sent : List Bytes
  handedOut : List Bytes

inductive Event where
  | send (pkt : Bytes)
  | sendBatch (pkts : List Bytes)
  /-- The hello of the sender arrives once more. -/
  | retransmit
  | receive (call : RecvCall)

def Event.packets : Event → List Bytes
  | .send pkt => [pkt]
  | .sendBatch pkts => pkts
  | .retransmit => []
  | .receive _ => []

/-- The hello of the other side. -/
def peerHelloRaw (session : Session) : Bytes :=
  match session.role with
  | .server => session.clientHelloRaw
  | .client => session.serverHelloRaw

/-- Some wire packets written by the sender. -/
def Link.write (link : Link) (pkts : List Bytes) (written : Session × List Bytes) : Link :=
  { link with
    sender := written.1
    queue := link.queue ++ written.2
    sent := link.sent ++ pkts }

def linkStep (sendInner recvInner : Inner) (link : Link) : Event → Option Link
  | .send pkt => (sendPacket link.sender pkt).map (link.write [pkt])
  | .sendBatch pkts => (sendPackets sendInner link.sender pkts).map (link.write pkts)
  | .retransmit => some { link with queue := link.queue ++ [peerHelloRaw link.receiver] }
  | .receive call =>
    let (received, receiver, queue) := call.run recvInner link.receiver link.queue
    some { link with
      receiver := receiver
      queue := queue
      handedOut := link.handedOut ++ received.handed }

def runLink (sendInner recvInner : Inner) (link : Link) (events : List Event) : Option Link :=
  events.foldlM (linkStep sendInner recvInner) link

/-- What is on the way, waits and was handed out is what was sent, and the numbers on the way
go on where the replay window stands. -/
structure Flows (recvInner : Inner) (sender receiver : Session) (accepted : List ℕ) (last count : ℕ)
    (link : Link) : Prop where
  sender_eq : link.sender = { sender with sendSeq := link.sender.sendSeq }
  holding : Holding defaultReplayWindowSize receiver accepted link.receiver
  highest_le : highest accepted ≤ last
  seqs : (piecesOf recvInner receiver link.queue).filterMap Piece.seq = List.range' (last + 1) count
  sendSeq : last + count = link.sender.sendSeq
  sendSeq_le : link.sender.sendSeq ≤ link.sent.length
  known : ∀ wire ∈ link.queue,
    (∃ piece, inspect recvInner receiver wire = .ok piece) ∧ Decodes receiver wire
  conserved : link.handedOut ++ (link.receiver.recvPending ++
    (piecesOf recvInner receiver link.queue).flatMap Piece.packets) = link.sent

section Flow

variable {sendInner recvInner : Inner} {sender receiver : Session} {aead : AEAD} {link : Link}
  {accepted : List ℕ} {last count : ℕ}

/-- Records with the next numbers keep the flow. -/
theorem Flows.write (hpaired : Paired sender receiver aead)
    (h : Flows recvInner sender receiver accepted last count link) (frames : List Frame)
    (hfits : ∀ frame ∈ frames, frame.Fits sender.batchRecords)
    (hframes : frames.length ≤ (frames.flatMap Frame.packets).length)
    (hseq : link.sender.sendSeq + frames.length < 2 ^ 64) :
    Flows recvInner sender receiver accepted last (count + frames.length)
      (link.write (frames.flatMap Frame.packets)
        ({ link.sender with sendSeq := link.sender.sendSeq + frames.length },
          (numberFrames link.sender.sendSeq frames).map (sender.sealWith aead))) := by
  obtain ⟨hseqs, hpackets, hknown⟩ := piecesOf_numberFrames recvInner hpaired hfits hseq
  refine ⟨?_, h.holding, h.highest_le, ?_, ?_, ?_, ?_, ?_⟩
  · exact congrArg (fun session : Session =>
      { session with sendSeq := link.sender.sendSeq + frames.length }) h.sender_eq
  · show (piecesOf recvInner receiver (link.queue ++ _)).filterMap Piece.seq = _
    rw [piecesOf_append, List.filterMap_append, h.seqs, hseqs, ← h.sendSeq, Nat.add_right_comm,
      List.range'_append_1]
  · show last + (count + frames.length) = link.sender.sendSeq + frames.length
    rw [← h.sendSeq, Nat.add_assoc]
  · show link.sender.sendSeq + frames.length ≤ (link.sent ++ _).length
    have := h.sendSeq_le
    rw [List.length_append]
    omega
  · exact List.forall_mem_append.mpr ⟨h.known, hknown⟩
  · show link.handedOut ++ (link.receiver.recvPending ++
      (piecesOf recvInner receiver (link.queue ++ _)).flatMap Piece.packets) = link.sent ++ _
    rw [piecesOf_append, List.flatMap_append, hpackets, ← h.conserved]
    simp only [List.append_assoc]

/-- A hello that arrives again is skipped. -/
theorem Flows.retransmit (h : Flows recvInner sender receiver accepted last count link)
    (hhello : inspect recvInner receiver (peerHelloRaw receiver) = .ok none)
    (hdecodes : Decodes receiver (peerHelloRaw receiver)) :
    Flows recvInner sender receiver accepted last count
      { link with queue := link.queue ++ [peerHelloRaw link.receiver] } := by
  have hraw : peerHelloRaw link.receiver = peerHelloRaw receiver := by
    rw [h.holding.static]
    rfl
  have hnone : piecesOf recvInner receiver [peerHelloRaw receiver] = [] :=
    piecesOf_cons_ok hhello []
  have hpieces : piecesOf recvInner receiver (link.queue ++ [peerHelloRaw receiver]) =
      piecesOf recvInner receiver link.queue := by
    rw [piecesOf_append, hnone, List.append_nil]
  rw [hraw]
  refine ⟨h.sender_eq, h.holding, h.highest_le, ?_, h.sendSeq, h.sendSeq_le, ?_, ?_⟩
  · rw [hpieces]
    exact h.seqs
  · exact List.forall_mem_append.mpr ⟨h.known, List.forall_mem_singleton.mpr ⟨⟨none, hhello⟩, hdecodes⟩⟩
  · rw [hpieces]
    exact h.conserved

/-- **A receive call** keeps the flow and does not fail; if it hands out nothing, then nothing
waits behind it. -/
theorem Flows.receive (h : Flows recvInner sender receiver accepted last count link)
    (call : RecvCall) :
    (∀ err, (call.run recvInner link.receiver link.queue).1 ≠ .failed err) ∧
      ∃ accepted' last' count', Flows recvInner sender receiver accepted' last' count'
        { link with
          receiver := (call.run recvInner link.receiver link.queue).2.1
          queue := (call.run recvInner link.receiver link.queue).2.2
          handedOut := link.handedOut ++ (call.run recvInner link.receiver link.queue).1.handed } ∧
        ((call.run recvInner link.receiver link.queue).1.handed = [] →
          (call.run recvInner link.receiver link.queue).2.1.recvPending = []) ∧
        (call.run recvInner link.receiver link.queue).2.2.length ≤ link.queue.length := by
  have hclean : ∀ err, ¬ ∃ wire ∈ link.queue, inspect recvInner receiver wire = .error err := by
    rintro err ⟨wire, hwire, herror⟩
    obtain ⟨⟨piece, hpiece⟩, -⟩ := h.known wire hwire
    cases hpiece.symm.trans herror
  rcases call_spec recvInner (fun wire hwire => (h.known wire hwire).2)
    ⟨link.receiver, link.queue, []⟩ h.holding (fun wire hwire => hwire) call with
    hadvances | hdrops
  · obtain ⟨read, hqueue, hheld, hout, hnone, hfailed⟩ := hadvances
    refine ⟨fun err herr => hclean err (hfailed err herr), ?_⟩
    generalize hresult : call.run recvInner link.receiver link.queue = result at *
    obtain ⟨received, session, queue⟩ := result
    dsimp only at hqueue hheld hout hnone ⊢
    -- the numbers that were read come before those that are left
    have hsplit : piecesOf recvInner receiver link.queue =
        piecesOf recvInner receiver read ++ piecesOf recvInner receiver queue := by
      rw [hqueue, piecesOf_append]
    have hseqs := h.seqs
    rw [hsplit, List.filterMap_append] at hseqs
    generalize hsize : ((piecesOf recvInner receiver read).filterMap Piece.seq).length = size at *
    have hle : size ≤ count := by
      have := congrArg List.length hseqs
      rw [List.length_append, hsize, List.length_range'] at this
      omega
    have hrange : List.range' (last + 1) count =
        List.range' (last + 1) size ++ List.range' (last + size + 1) (count - size) := by
      rw [Nat.add_right_comm last size 1, List.range'_append_1, Nat.add_sub_cancel' hle]
    rw [hrange] at hseqs
    obtain ⟨hread, hrest⟩ := List.append_inj hseqs (by rw [hsize, List.length_range'])
    rw [deliver_inOrder h.highest_le hread] at hheld hout
    refine ⟨_, last + size, count - size,
      ⟨h.sender_eq, hheld, ?_, hrest, ?_, h.sendSeq_le, ?_, ?_⟩, hnone, ?_⟩
    · have hlow := h.highest_le
      have hnew : highest (List.range' (last + 1) size) ≤ last + size := by
        by_cases hzero : highest (List.range' (last + 1) size) = 0
        · omega
        · have := List.mem_range'_1.mp (highest_mem hzero)
          omega
      rw [highest_append]
      omega
    · have := h.sendSeq
      show last + size + (count - size) = link.sender.sendSeq
      omega
    · intro wire hwire
      refine h.known wire ?_
      rw [hqueue]
      exact List.mem_append_right _ hwire
    · have hconserved := h.conserved
      rw [hsplit, List.flatMap_append] at hconserved
      show (link.handedOut ++ received.handed) ++ (session.recvPending ++ _) = link.sent
      rw [← hconserved, List.append_assoc, ← List.append_assoc received.handed, hout]
      simp only [List.append_assoc]
    · rw [hqueue, List.length_append]
      exact Nat.le_add_left _ _
  · obtain ⟨⟨err, -, hwire⟩, -⟩ := hdrops
    exact absurd hwire (hclean err)

/-! ## Sends -/

theorem Flows.sealWith_eq (h : Flows recvInner sender receiver accepted last count link) :
    link.sender.sealWith aead = sender.sealWith aead := by
  have hsame := h.sender_eq
  rw [hsame]
  rfl

/-- The sender of a link has the keys it started with. -/
theorem Flows.keys (hpaired : Paired sender receiver aead)
    (h : Flows recvInner sender receiver accepted last count link) :
    link.sender.sendEncrypted = true ∧ link.sender.cryptoOffloaded = false ∧
      link.sender.sendAEAD = some aead ∧ link.sender.batchRecords = sender.batchRecords :=
  ⟨(congrArg Session.sendEncrypted h.sender_eq).trans hpaired.sendEncrypted,
    (congrArg Session.cryptoOffloaded h.sender_eq).trans hpaired.userspace,
    (congrArg Session.sendAEAD h.sender_eq).trans hpaired.sendAEAD,
    (congrArg Session.batchRecords h.sender_eq).trans rfl⟩

variable (sendInner) in
theorem Flows.send (hpaired : Paired sender receiver aead)
    (h : Flows recvInner sender receiver accepted last count link) (pkt : Bytes)
    (hlength : (link.sent ++ [pkt]).length < 2 ^ 64) :
    ∃ link' count', linkStep sendInner recvInner link (.send pkt) = some link' ∧
      Flows recvInner sender receiver accepted last count' link' ∧
      link'.sent = link.sent ++ [pkt] := by
  obtain ⟨henc, hoff, haead, -⟩ := h.keys hpaired
  have hle := h.sendSeq_le
  rw [List.length_append, List.length_singleton] at hlength
  have hwrite := Flows.write hpaired h [.single pkt]
    (by intro frame hframe; rw [List.mem_singleton.mp hframe]; trivial) le_rfl
    (by show link.sender.sendSeq + 1 < 2 ^ 64; omega)
  refine ⟨_, _, ?_, hwrite, rfl⟩
  rw [linkStep, sendPacket_eq henc hoff haead pkt (by omega), h.sealWith_eq]
  rfl

variable (sendInner) in
theorem Flows.sendBatch (hpaired : Paired sender receiver aead)
    (h : Flows recvInner sender receiver accepted last count link) (pkts : List Bytes)
    (hlength : (link.sent ++ pkts).length < 2 ^ 64) :
    ∃ link' count', linkStep sendInner recvInner link (.sendBatch pkts) = some link' ∧
      Flows recvInner sender receiver accepted last count' link' ∧
      link'.sent = link.sent ++ pkts := by
  obtain ⟨henc, hoff, haead, hbatch⟩ := h.keys hpaired
  have hle := h.sendSeq_le
  have hframes := length_framesOf_le sendInner link.sender pkts
  have hpackets := packets_framesOf sendInner link.sender pkts
  have hfits := fits_framesOf sendInner link.sender pkts
  rw [List.length_append] at hlength
  rw [hbatch] at hfits
  have hwrite := Flows.write hpaired h _ hfits (by rw [hpackets]; exact hframes) (by omega)
  rw [hpackets] at hwrite
  refine ⟨_, _, ?_, hwrite, rfl⟩
  rw [linkStep, sendPackets_eq sendInner henc hoff haead pkts (by omega), h.sealWith_eq]
  rfl

end Flow

/-! ## Hellos that arrive again -/

/-- Both hellos are written as their sides write them. -/
structure Handshake.Encoded (handshake : Handshake) : Prop where
  client : handshake.clientHello.encode = .ok handshake.clientHelloRaw
  client_type : handshake.clientHello.messageType = helloTypeClient
  server : handshake.serverHello.encode = .ok handshake.serverHelloRaw
  server_type : handshake.serverHello.messageType = helloTypeServer

theorem isResetPacket_hello {type : UInt8} (htype : type ≠ helloTypeReset) (rest : Bytes) :
    isResetPacket (handshakeMagic ++ (handshakeVersion :: type :: rest)) = false := by
  have hbyte : (handshakeMagic ++ (handshakeVersion :: type :: rest))[5]? = some type := rfl
  have hne : (some type == some helloTypeReset) = false := by simpa using htype
  unfold isResetPacket
  rw [hbyte, hne, Bool.and_false]

theorem decodes_hello (session : Session) (rest : Bytes) :
    Decodes session (handshakeMagic ++ rest) := by
  intro record hopen
  unfold openEncryptedPacketNoReplay at hopen
  have hmagic : ((handshakeMagic ++ rest).take dataHeaderLen).take 4 ≠ dataMagic := by
    show handshakeMagic ≠ dataMagic
    decide
  cases hrecv : session.recvAEAD with
  | none =>
    rw [hrecv] at hopen
    cases hopen
  | some aead =>
    rw [hrecv] at hopen
    obtain ⟨-, hopen⟩ := guard_eq_ok.mp hopen
    obtain ⟨hheader, -⟩ := guard_eq_ok.mp hopen
    exact absurd (Or.inl hmagic) hheader

/-- **A hello of the peer** is skipped, after the server hello was sent again. -/
theorem inspect_peerHelloRaw {crypto : Crypto} {role : Side} {handshake : Handshake}
    {options : Options} (inner : Inner) {session : Session}
    (hfresh : Fresh crypto role handshake options session) (hencoded : handshake.Encoded)
    (hresend : inner.resend = .ok ()) :
    inspect inner session (peerHelloRaw session) = .ok none ∧
      Decodes session (peerHelloRaw session) := by
  have hguard : ∀ type rest, ¬ ((handshakeMagic ++ (handshakeVersion :: type :: rest)).length < 6 ∨
      (handshakeMagic ++ (handshakeVersion :: type :: rest)).take 4 ≠ handshakeMagic ∨
      (handshakeMagic ++ (handshakeVersion :: type :: rest)).getD 4 0 ≠ handshakeVersion) := by
    rintro type rest (hlt | hmagic | hversion)
    · rw [List.length_append, List.length_cons, List.length_cons] at hlt
      change 4 + (rest.length + 1 + 1) < 6 at hlt
      omega
    · exact hmagic rfl
    · exact hversion rfl
  have hskip : ∀ type rest, type ≠ helloTypeReset →
      peerHelloRaw session = handshakeMagic ++ (handshakeVersion :: type :: rest) →
      handleDuplicateHandshake inner session (peerHelloRaw session) = .ok true →
      inspect inner session (peerHelloRaw session) = .ok none ∧
        Decodes session (peerHelloRaw session) := by
    intro type rest htype hraw hhandle
    rw [inspect, hhandle, ok_bind, hraw, isResetPacket_hello htype rest,
      if_neg Bool.false_ne_true, if_pos rfl]
    exact ⟨rfl, decodes_hello session _⟩
  obtain ⟨-, -, client, hclient⟩ := encode_eq_cons hencoded.client
  obtain ⟨-, -, server, hserver⟩ := encode_eq_cons hencoded.server
  rw [hencoded.client_type, ← hfresh.clientHelloRaw] at hclient
  rw [hencoded.server_type, ← hfresh.serverHelloRaw] at hserver
  cases role with
  | server =>
    have hraw : peerHelloRaw session = session.clientHelloRaw := by
      rw [peerHelloRaw, hfresh.role]
    refine hskip _ client (by decide) (hraw.trans hclient) ?_
    have htype : (handshakeMagic ++ (handshakeVersion :: helloTypeClient :: client)).getD 5 0 =
        helloTypeClient := rfl
    unfold handleDuplicateHandshake
    rw [hraw, hclient, if_neg (hguard _ _), if_pos htype, if_neg (by rw [hfresh.role]; simp),
      if_pos ⟨by simp [handshakeMagic], rfl⟩, hserver, if_pos (by simp [handshakeMagic]),
      hresend]
  | client =>
    have hraw : peerHelloRaw session = session.serverHelloRaw := by
      rw [peerHelloRaw, hfresh.role]
    refine hskip _ server (by decide) (hraw.trans hserver) ?_
    have htype : (handshakeMagic ++ (handshakeVersion :: helloTypeServer :: server)).getD 5 0 =
        helloTypeServer := rfl
    unfold handleDuplicateHandshake
    rw [hraw, hserver, if_neg (hguard _ _), if_neg (by rw [htype]; decide), if_pos htype,
      if_neg (by rw [hfresh.role]; simp)]
    exact congrArg Except.ok (decide_eq_true ⟨by simp [handshakeMagic], rfl⟩)

/-! ## Calls that come back -/

/-- The call reads on until `n` wire packets are read, if the inner session holds so many. -/
def RecvCall.Persists (n : ℕ) : RecvCall → Prop
  | .packet => True
  | .packets _ reads => n ≤ reads.countP (0 < ·)

theorem RecvCall.Persists.mono {n k : ℕ} {call : RecvCall} (h : call.Persists n) (hk : k ≤ n) :
    call.Persists k := by
  cases call with
  | packet => trivial
  | packets max reads => exact hk.trans h

section Returning

variable {inner : Inner}

theorem recvLoop_of_handed_nil (session : Session) (queue : List Bytes)
    (h : (recvLoop inner session queue).1.handed = []) :
    (∃ err, (recvLoop inner session queue).1 = .failed err) ∨
      (recvLoop inner session queue).2.2 = [] := by
  induction queue generalizing session with
  | nil => exact Or.inr rfl
  | cons wire rest ih =>
    rw [recvLoop] at h ⊢
    split at h
    · exact ih _ h
    · exact Or.inl ⟨_, rfl⟩
    · exact ih _ h
    · exact absurd h (List.cons_ne_nil _ _)

theorem limitReceivedBatch_ne_nil (session : Session) {packets : List Bytes} (h : packets ≠ [])
    (max : ℤ) : (limitReceivedBatch session packets max).1 ≠ [] := by
  unfold limitReceivedBatch
  split_ifs with hfits
  · exact h
  · intro hnil
    rcases List.take_eq_nil_iff.mp hnil with hzero | hempty
    · omega
    · exact h hempty

theorem recvBatchLoop_of_handed_nil (max : ℤ) (reads : List ℕ) (session : Session)
    (queue : List Bytes) (h : (recvBatchLoop inner max reads session queue).1.handed = []) :
    (∃ err, (recvBatchLoop inner max reads session queue).1 = .failed err) ∨
      (recvBatchLoop inner max reads session queue).2.2.length = 0 ∨
      (recvBatchLoop inner max reads session queue).2.2.length + reads.countP (0 < ·) ≤
        queue.length := by
  induction reads generalizing session queue with
  | nil => exact Or.inr (Or.inr le_rfl)
  | cons size reads ih =>
    rw [recvBatchLoop] at h ⊢
    rcases hopen : openReceivedPacketBatch inner session [] (queue.take size) with
      ⟨outcome, session'⟩
    rw [hopen] at h
    cases outcome with
    | error err => exact Or.inl ⟨err, rfl⟩
    | ok packets =>
      cases packets with
      | nil =>
        rcases ih _ _ h with hfailed | hzero | hle
        · exact Or.inl hfailed
        · exact Or.inr (Or.inl hzero)
        · refine Or.inr ?_
          rw [List.length_drop] at hle
          rw [List.countP_cons]
          split_ifs with hsize
          · rw [decide_eq_true_eq] at hsize
            dsimp only
            omega
          · dsimp only
            omega
      | cons packet rest =>
        exact absurd h (limitReceivedBatch_ne_nil session' (List.cons_ne_nil _ _) max)

/-- A call that hands out nothing has failed or has read everything. -/
theorem run_of_handed_nil {session : Session} {queue : List Bytes} {call : RecvCall}
    (hpersists : call.Persists queue.length)
    (h : (call.run inner session queue).1.handed = []) :
    (∃ err, (call.run inner session queue).1 = .failed err) ∨
      (call.run inner session queue).2.2 = [] := by
  have hsingle : (recvPacket inner session queue).1.handed = [] →
      (∃ err, (recvPacket inner session queue).1 = .failed err) ∨
        (recvPacket inner session queue).2.2 = [] := by
    unfold recvPacket
    intro hnil
    split at hnil
    · exact absurd hnil (List.cons_ne_nil _ _)
    · exact recvLoop_of_handed_nil session queue hnil
  cases call with
  | packet => exact hsingle h
  | packets max reads =>
    change (recvPacketsWithRelease inner max reads session queue).1.handed = [] at h
    show (∃ err, (recvPacketsWithRelease inner max reads session queue).1 = .failed err) ∨
      (recvPacketsWithRelease inner max reads session queue).2.2 = []
    unfold recvPacketsWithRelease at h ⊢
    split_ifs at h ⊢ with hpending hsmall hbatch
    · rcases List.take_eq_nil_iff.mp h with hzero | hempty
      · split_ifs at hzero <;> omega
      · exact absurd hempty hpending
    · exact hsingle h
    · rcases recvBatchLoop_of_handed_nil max reads session queue h with hfailed | hzero | hle
      · exact Or.inl hfailed
      · exact Or.inr (List.length_eq_zero_iff.mp hzero)
      · have hall : queue.length ≤ reads.countP (0 < ·) := hpersists
        exact Or.inr (List.length_eq_zero_iff.mp (by omega))
    · exact hsingle h

end Returning

/-! ## Runs -/

section Delivery

variable {sendInner recvInner : Inner} {sender receiver : Session} {aead : AEAD} {link : Link}

/-- Receive calls on a link are receive calls of its receiver. -/
theorem runLink_receive (sendInner recvInner : Inner) (link : Link) (calls : List RecvCall) :
    runLink sendInner recvInner link (calls.map .receive) =
      some { link with
        receiver := (receive recvInner ⟨link.receiver, link.queue, link.handedOut⟩ calls).session
        queue := (receive recvInner ⟨link.receiver, link.queue, link.handedOut⟩ calls).queue
        handedOut :=
          (receive recvInner ⟨link.receiver, link.queue, link.handedOut⟩ calls).handedOut } := by
  induction calls generalizing link with
  | nil => rfl
  | cons call rest ih =>
    exact ih _

/-- There is a flow on the link. -/
def Flowing (recvInner : Inner) (sender receiver : Session) (link : Link) : Prop :=
  ∃ accepted last count, Flows recvInner sender receiver accepted last count link

theorem Flowing.isPrefix (h : Flowing recvInner sender receiver link) :
    link.handedOut <+: link.sent := by
  obtain ⟨accepted, last, count, hflows⟩ := h
  exact ⟨_, hflows.conserved⟩

variable (sendInner) in
/-- **One event.** -/
theorem Flowing.step (hpaired : Paired sender receiver aead)
    (hhello : inspect recvInner receiver (peerHelloRaw receiver) = .ok none ∧
      Decodes receiver (peerHelloRaw receiver))
    (h : Flowing recvInner sender receiver link) (event : Event)
    (hlength : (link.sent ++ event.packets).length < 2 ^ 64) :
    ∃ link', linkStep sendInner recvInner link event = some link' ∧
      Flowing recvInner sender receiver link' ∧ link'.sent = link.sent ++ event.packets := by
  obtain ⟨accepted, last, count, hflows⟩ := h
  cases event with
  | send pkt =>
    obtain ⟨link', count', hstep, hflows', hsent⟩ := hflows.send sendInner hpaired pkt
      hlength
    exact ⟨link', hstep, ⟨_, _, _, hflows'⟩, hsent⟩
  | sendBatch pkts =>
    obtain ⟨link', count', hstep, hflows', hsent⟩ := hflows.sendBatch sendInner hpaired
      pkts hlength
    exact ⟨link', hstep, ⟨_, _, _, hflows'⟩, hsent⟩
  | retransmit =>
    exact ⟨_, rfl, ⟨_, _, _, hflows.retransmit hhello.1 hhello.2⟩, (List.append_nil _).symm⟩
  | receive call =>
    obtain ⟨-, accepted', last', count', hflows', -⟩ := hflows.receive call
    exact ⟨_, rfl, ⟨_, _, _, hflows'⟩, (List.append_nil _).symm⟩

variable (sendInner) in
/-- **Every run.** -/
theorem Flowing.run (hpaired : Paired sender receiver aead)
    (hhello : inspect recvInner receiver (peerHelloRaw receiver) = .ok none ∧
      Decodes receiver (peerHelloRaw receiver))
    (h : Flowing recvInner sender receiver link) (events : List Event)
    (hlength : (link.sent ++ events.flatMap Event.packets).length < 2 ^ 64) :
    ∃ link', runLink sendInner recvInner link events = some link' ∧
      Flowing recvInner sender receiver link' ∧
      link'.sent = link.sent ++ events.flatMap Event.packets := by
  induction events generalizing link with
  | nil => exact ⟨link, rfl, h, (List.append_nil _).symm⟩
  | cons event rest ih =>
    rw [List.flatMap_cons, ← List.append_assoc] at hlength ⊢
    obtain ⟨next, hstep, hflowing, hsent⟩ := h.step sendInner hpaired hhello event
      (by rw [List.length_append] at hlength; omega)
    rw [← hsent] at hlength ⊢
    obtain ⟨link', hrun, hflowing', hsent'⟩ := ih hflowing hlength
    refine ⟨link', ?_, hflowing', hsent'⟩
    rw [runLink, List.foldlM_cons, hstep]
    exact hrun

/-- **Enough receive calls** hand out everything that was sent. -/
theorem Flowing.drain (h : Flowing recvInner sender receiver link) (calls : List RecvCall)
    (hpersists : ∀ call ∈ calls, call.Persists link.queue.length)
    (henough : link.sent.length ≤ link.handedOut.length + calls.length) :
    ∃ link', runLink sendInner recvInner link (calls.map .receive) = some link' ∧
      link'.handedOut = link.sent := by
  induction calls generalizing link with
  | nil => exact ⟨link, rfl, h.isPrefix.eq_of_length_le henough⟩
  | cons call rest ih =>
    obtain ⟨accepted, last, count, hflows⟩ := h
    obtain ⟨hclean, accepted', last', count', hflows', hnone, hshort⟩ := hflows.receive call
    obtain ⟨link', hrun, hdone⟩ := ih ⟨_, _, _, hflows'⟩
      (fun next hnext => (hpersists next (List.mem_cons_of_mem _ hnext)).mono hshort) (by
        show link.sent.length ≤ (link.handedOut ++ _).length + rest.length
        rw [List.length_append]
        rw [List.length_cons] at henough
        rcases Nat.eq_zero_or_pos
          (call.run recvInner link.receiver link.queue).1.handed.length with hzero | hpos
        · -- a call that hands out nothing finds everything handed out
          have hnil := List.length_eq_zero_iff.mp hzero
          rcases run_of_handed_nil (hpersists call List.mem_cons_self) hnil with
            ⟨err, hfailed⟩ | hempty
          · exact absurd hfailed (hclean err)
          · have hconserved := hflows'.conserved
            rw [hempty, hnone hnil, hnil] at hconserved
            have hlength := congrArg List.length hconserved
            simp [piecesOf] at hlength
            omega
        · omega)
    exact ⟨link', hrun, hdone⟩

variable {crypto : Crypto} {handshake : Handshake} {role : Side} {sendKey recvKey : Bytes}
  {sendOptions recvOptions : Options}

/-- **Secure session delivery.**  For the sessions of one handshake with one epoch and one source
of keys, over a reliable inner session, every interleaving of sends on one side and receive calls
on the other hands out a prefix of what was sent, as long as fewer than `2 ^ 64` packets are sent;
and from then on, as many receive calls as packets are missing hand out the rest. -/
theorem delivery
    (hsender : newSession crypto sendInner role sendKey handshake sendOptions = .ok sender)
    (hreceiver : newSession crypto recvInner (peerSide role) recvKey handshake recvOptions =
      .ok receiver)
    (hsame : SameConfiguration crypto handshake role sendInner recvInner sendKey recvKey
      sendOptions recvOptions)
    (hcorrect : ∀ suite key aead, crypto.newAEAD suite key = .ok aead → aead.Correct)
    (hsend : sender.sendEncrypted = true) (huserspace : sender.cryptoOffloaded = false)
    (hrecv : receiver.recvEncrypted = true) (hencoded : handshake.Encoded)
    (hresend : recvInner.resend = .ok ()) (events : List Event)
    (hlength : (events.flatMap Event.packets).length < 2 ^ 64) :
    ∃ link, runLink sendInner recvInner ⟨sender, receiver, [], [], []⟩ events = some link ∧
      link.sent = events.flatMap Event.packets ∧ link.handedOut <+: link.sent ∧
      ∀ calls : List RecvCall, (∀ call ∈ calls, call.Persists link.queue.length) →
        link.sent.length ≤ link.handedOut.length + calls.length →
        ∃ link', runLink sendInner recvInner link (calls.map .receive) = some link' ∧
          link'.handedOut = link.sent := by
  obtain ⟨aead, hpaired⟩ := paired_newSession hsender hreceiver hsame hcorrect hsend huserspace
    hrecv
  have hfresh := (newSession_eq_ok hsender).1
  have hfresh' := (newSession_eq_ok hreceiver).1
  have hhello := inspect_peerHelloRaw recvInner hfresh' hencoded hresend
  have hstart : Flowing recvInner sender receiver ⟨sender, receiver, [], [], []⟩ := by
    refine ⟨[], 0, 0, rfl, ⟨rfl, ?_⟩, le_rfl, rfl, hfresh.sendSeq.symm, ?_, ?_, ?_⟩
    · show Tracks _ receiver.replay []
      rw [hfresh'.replay]
      exact tracks_newReplayWindow _
    · exact le_of_eq hfresh.sendSeq
    · intro wire hwire
      exact absurd hwire List.not_mem_nil
    · show [] ++ (receiver.recvPending ++ []) = []
      rw [hfresh'.recvPending]
      rfl
  obtain ⟨link, hrun, hflowing, hsent⟩ := hstart.run sendInner hpaired hhello events hlength
  exact ⟨link, hrun, hsent, hflowing.isPrefix, fun calls hpersists henough =>
    hflowing.drain calls hpersists henough⟩

end Delivery

/-! ## Sides with different epochs -/

def plainCrypto : Crypto where
  newPublicKey := fun _ => .ok ()
  ecdh := fun _ _ => .ok []
  sha256 := fun _ => []
  hmac := fun _ _ => []
  newAEAD := fun _ _ => .ok plainAEAD

def plainHello (type : UInt8) : Hello :=
  ⟨type, 1#16, List.replicate 32 0, List.replicate 32 0, [], []⟩

def plainHandshake : Handshake where
  clientHello := plainHello helloTypeClient
  serverHello := plainHello helloTypeServer
  suite := .aes256GCMX25519
  batchRecords := false
  derivedEpoch := false
  clientHelloRaw := ((plainHello helloTypeClient).encode.toOption).getD []
  serverHelloRaw := ((plainHello helloTypeServer).encode.toOption).getD []

/-- The client or the server of `plainHandshake` with a configured epoch. -/
def plainSession (role : Side) (epoch : UInt64) : Session :=
  { plainServer with
    role := role
    epoch := epoch.toNat
    clientHelloRaw := plainHandshake.clientHelloRaw
    serverHelloRaw := plainHandshake.serverHelloRaw }

theorem requestedEncryptionPolicy_secure (epoch : UInt64) :
    requestedEncryptionPolicy ⟨epoch, none, none⟩ = ⟨true, true⟩ := by
  have hsecure : encryptionPolicyForMode "secure" = ⟨true, true⟩ := by decide
  exact hsecure

theorem newSession_plain (role : Side) (epoch : UInt64) :
    newSession plainCrypto batchInner role [] plainHandshake ⟨epoch, none, none⟩ =
      .ok (plainSession role epoch) := by
  have hepoch : sessionEpoch plainCrypto plainHandshake ⟨epoch, none, none⟩ = epoch.toNat :=
    if_neg fun h => Bool.false_ne_true h.2
  have hmaterial : deriveSessionKeyMaterial plainCrypto batchInner [] plainHandshake
      ⟨epoch, none, none⟩ = .ok [] := by
    have hauto : deriveSessionKeyMaterial plainCrypto batchInner [] plainHandshake
      ⟨0, none, none⟩ = .ok [] := by decide
    exact hauto
  unfold newSession blankSession
  rw [requestedEncryptionPolicy_secure, hepoch]
  refine seq_eq_ok.mpr ⟨rfl, bind_eq_ok.mpr ⟨[], rfl, ?_⟩⟩
  refine bind_eq_ok.mpr ⟨[], hmaterial, ?_⟩
  cases role with
  | client => rfl
  | server => rfl

theorem correct_plainAEAD : plainAEAD.Correct := ⟨fun _ _ _ => rfl, fun _ _ _ => rfl⟩

theorem encoded_plainHandshake : plainHandshake.Encoded := ⟨rfl, rfl, rfl, rfl⟩

theorem delivery_one_packet :
    ∃ link, runLink batchInner batchInner
        ⟨plainSession .client 7, plainSession .server 7, [], [], []⟩
        [.send [5], .receive .packet] = some link ∧
      link.sent = [[5]] ∧ link.handedOut <+: link.sent := by
  have hcorrect : ∀ suite key aead, plainCrypto.newAEAD suite key = .ok aead → aead.Correct := by
    rintro suite key aead ⟨⟩
    exact correct_plainAEAD
  obtain ⟨link, hrun, hsent, hprefix, -⟩ := delivery (newSession_plain .client 7)
    (newSession_plain .server 7) ⟨rfl, rfl, fun _ => rfl⟩ hcorrect rfl rfl rfl
    encoded_plainHandshake rfl [.send [5], .receive .packet] (by decide)
  exact ⟨link, hrun, hsent, hprefix⟩

/-- **Different epochs.**  A client configured with epoch 7 and a server with epoch 9 complete
the handshake, and no receive calls ever hand out a packet. -/
theorem epochs_differ_no_delivery :
    newSession plainCrypto batchInner .client [] plainHandshake ⟨7, none, none⟩ =
        .ok (plainSession .client 7) ∧
      newSession plainCrypto batchInner .server [] plainHandshake ⟨9, none, none⟩ =
        .ok (plainSession .server 9) ∧
      ∀ calls : List RecvCall, ∃ link, runLink batchInner batchInner
          ⟨plainSession .client 7, plainSession .server 9, [], [], []⟩
          (.send [5] :: calls.map .receive) = some link ∧
        link.sent = [[5]] ∧ link.handedOut = [] := by
  refine ⟨newSession_plain .client 7, newSession_plain .server 9, fun calls => ?_⟩
  have haead : (plainSession .client 7).sendAEAD = some plainAEAD := rfl
  have hsend := sendPacket_eq rfl rfl haead [5] (by decide)
  generalize hwires : (numberFrames (plainSession .client 7).sendSeq [.single [5]]).map
    ((plainSession .client 7).sealWith plainAEAD) = wires at hsend
  -- the server opens none of it
  have hnone : (piecesOf batchInner (plainSession .server 9) wires).length = 0 := by
    rw [← hwires]
    decide +kernel
  have hclosed : ∀ wire ∈ wires, (openEncryptedPacketNoReplay (plainSession .server 9)
      wire).toOption = none := by
    rw [← hwires]
    decide +kernel
  have hdecodes : ∀ wire ∈ wires, Decodes (plainSession .server 9) wire := by
    intro wire hwire record hopen
    have hfails := hclosed wire hwire
    rw [hopen] at hfails
    cases hfails
  obtain ⟨read, picked, hread, hsub, -, -, hout⟩ := picks_receive batchInner hdecodes
    (tracks_newReplayWindow defaultReplayWindowSize) calls
  have hpicked : picked = [] := by
    rw [List.length_eq_zero_iff, hread, piecesOf_append, List.append_eq_nil_iff] at hnone
    rw [hnone.1] at hsub
    exact List.sublist_nil.mp hsub
  rw [hpicked] at hout
  have hfirst : runLink batchInner batchInner
      ⟨plainSession .client 7, plainSession .server 9, [], [], []⟩ (.send [5] :: calls.map .receive) =
      runLink batchInner batchInner ⟨{ plainSession .client 7 with sendSeq := 1 },
        plainSession .server 9, wires, [[5]], []⟩ (calls.map .receive) := by
    rw [runLink, List.foldlM_cons, linkStep, hsend]
    rfl
  exact ⟨_, hfirst.trans (runLink_receive batchInner batchInner _ calls), rfl,
    (List.append_eq_nil_iff.mp hout).1⟩

end SecureTransport

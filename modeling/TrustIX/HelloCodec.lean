/-
# The round trip of a hello

`hello.encode` refuses a certificate of more than `maxHandshakeCertLen` bytes, which is one
more than the two bytes of its length field can say.  A certificate of exactly that length
is announced with length 0, and the peer takes the hello for a malformed one.

* `hello_round_trip_iff` : which encoded hellos `parseHello` gives back, and which are taken
  for a reset;
* `longest_certificate_is_lost` : the hello that is accepted by the encoder only.
-/
import TrustIX.SecureHandshake

namespace SecureHandshake

/-- The hello that has the form of a reset packet. -/
def Hello.IsReset (hello : Hello) : Prop :=
  hello.messageType = helloTypeReset ∧ hello.certDER = [] ∧ hello.signature = []

variable {hello : Hello}

variable {raw : Bytes}

/-- Only a hello of the reset type is taken for a reset. -/
theorem messageType_of_isResetPacket (h : hello.encode = .ok raw)
    (hreset : isResetPacket raw = true) : hello.messageType = helloTypeReset := by
  obtain ⟨-, -, rest, rfl⟩ := encode_eq_cons h
  simp only [isResetPacket, Bool.and_eq_true, beq_iff_eq] at hreset
  exact Option.some.inj hreset.2

theorem Laid.isResetPacket_iff (h : Laid hello raw) : isResetPacket raw = true ↔ hello.IsReset := by
  unfold isResetPacket Hello.IsReset
  rw [h.magic, h.version, h.messageType, h.length]
  simp only [Bool.and_eq_true, beq_iff_eq, Option.some.injEq, beq_self_eq_true, and_true,
    ← List.length_eq_zero_iff]
  constructor
  · rintro ⟨hlength, htype⟩
    exact ⟨htype, by omega, by omega⟩
  · rintro ⟨htype, hcert, hsig⟩
    exact ⟨by omega, htype⟩

/-- With the longest certificate the length field says 0, and the packet is too long. -/
theorem Laid.parseHello_longest (h : Laid hello raw)
    (hcert : hello.certDER.length = 65536) (hsig : hello.signature.length ≤ 8192) :
    SecureHandshake.parseHello raw hello.messageType = .error (.invalidHandshake "") := by
  obtain ⟨_, h72⟩ := h.certLen
  obtain ⟨_, h74⟩ := h.sigLen
  have hreset : isResetPacket raw = false := by
    rw [Bool.eq_false_iff, ne_eq, h.isResetPacket_iff]
    rintro ⟨-, hnil, -⟩
    rw [hnil] at hcert
    cases hcert
  have hzero : ∀ rest, bigEndianUint16 (uint16Bytes hello.certDER.length ++ rest) = 0 := by
    intro rest
    rw [hcert]
    rfl
  unfold SecureHandshake.parseHello
  rw [hreset, if_neg (by simp),
    if_neg (by simp [h.length, h.magic, h.version, h.messageType]; omega)]
  rw [h72, h74, hzero, bigEndianUint16_uint16Bytes (by omega), h.length, hcert]
  exact if_pos (.inr (.inr (by omega)))

/-- **When a hello is read back.**  Of the hellos that the encoder accepts those are read back
whose random and key have 32 bytes, whose certificate is shorter than 64 KiB and that do not
have the form of a reset; and only a hello of the reset type is taken for a reset. -/
theorem hello_round_trip_iff (hello : Hello) (raw : Bytes) (h : hello.encode = .ok raw) :
    (parseHello raw hello.messageType
        = .ok { hello with suiteMask := normalizedSuiteMask hello.suiteMask } ↔
      hello.WellFormed ∧ hello.certDER.length < 65536 ∧ ¬ hello.IsReset) ∧
    (isResetPacket raw = true → hello.messageType = helloTypeReset) := by
  refine ⟨?_, messageType_of_isResetPacket h⟩
  obtain ⟨hlimit, hsig, -⟩ := encode_eq_cons h
  constructor
  · intro hparse
    obtain ⟨hrandom, hpublic⟩ := wellFormed_of_parseHello hparse
    have hwf : hello.WellFormed := ⟨hrandom, hpublic⟩
    have hlaid := laid_encode hwf h
    refine ⟨hwf, ?_, ?_⟩
    · by_contra hlong
      have hcert : hello.certDER.length = 65536 := le_antisymm hlimit (not_lt.mp hlong)
      rw [hlaid.parseHello_longest hcert hsig] at hparse
      cases hparse
    · intro hreset
      unfold parseHello at hparse
      rw [if_pos (hlaid.isResetPacket_iff.mpr hreset)] at hparse
      cases hparse
  · rintro ⟨hwf, hcert, hreset⟩
    have hlaid := laid_encode hwf h
    exact hlaid.parseHello hwf hcert hsig
      (Bool.eq_false_iff.mpr fun hpacket => hreset (hlaid.isResetPacket_iff.mp hpacket))

/-- A client hello without a certificate. -/
theorem hello_round_trip_iff_plain :
    ∃ raw, (plainHello helloTypeClient 1#16 [] []).encode = .ok raw ∧
      parseHello raw helloTypeClient = .ok (plainHello helloTypeClient 1#16 [] []) := by
  refine ⟨_, rfl, ?_⟩
  have hiff := hello_round_trip_iff (plainHello helloTypeClient 1#16 [] []) _ rfl
  exact hiff.1.mpr ⟨⟨rfl, rfl⟩, by decide, by unfold Hello.IsReset; decide⟩

/-- **A hello that only the encoder accepts**: with a certificate of 64 KiB. -/
theorem longest_certificate_is_lost :
    (plainHello helloTypeClient 1#16 (List.replicate 65536 0) []).WellFormed ∧
      ∃ raw, (plainHello helloTypeClient 1#16 (List.replicate 65536 0) []).encode = .ok raw ∧
        parseHello raw helloTypeClient = .error (.invalidHandshake "") := by
  have hwf := wellFormed_plainHello helloTypeClient 1#16 (List.replicate 65536 0) []
  have hsize : ¬ ((List.replicate 65536 (0 : UInt8)).length > maxHandshakeCertLen ∨
      ([] : Bytes).length > maxHandshakeSigLen) := by
    rw [List.length_replicate, maxHandshakeCertLen]
    simp
  obtain ⟨raw, hraw⟩ : ∃ raw,
      (plainHello helloTypeClient 1#16 (List.replicate 65536 0) []).encode = .ok raw :=
    ⟨_, if_neg hsize⟩
  refine ⟨hwf, raw, hraw, ?_⟩
  exact (laid_encode hwf hraw).parseHello_longest List.length_replicate (Nat.zero_le _)

end SecureHandshake

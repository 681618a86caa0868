/-
# Certificates

What the daemon reads from X.509 certificates (`internal/pki/pki.go`), with the X.509
parser, the chain builder, SHA-256 and ECDSA as parameters, and the text form of
certificate fingerprints.
-/
import TrustIX.Fallible
import TrustIX.GoText
import TrustIX.GoTime

namespace Pki

/-! ## Certificates and the cryptography around them -/

def roleAdmin : String := "admin"
def roleIX : String := "ix"

/-- A parsed certificate: its DER bytes, its metadata extensions and its validity. -/
structure Certificate where
  raw : List UInt8
  role : String
  domain : String
  ix : String
  isCA : Bool
  notBefore : GoTime.Time
  notAfter : GoTime.Time
  deriving DecidableEq

/-- The library code the daemon calls. -/
structure Crypto where
  /-- The hexadecimal SHA-256 digest. -/
  sha256Hex : List UInt8 → String
  /-- `x509.ParseCertificate`. -/
  parseCertificate : List UInt8 → Except String Certificate
  /-- `ParseCertificatePEM`. -/
  parseCertificatePEM : String → Except String Certificate
  /-- `pem.EncodeToMemory` of a certificate block. -/
  encodePEM : List UInt8 → String
  /-- `VerifyChain` without intermediates, at a time. -/
  verifyChain : GoTime.Time → Certificate → List Certificate → Bool
  /-- `Verify`: the signature of a text by the key of a certificate. -/
  verify : Certificate → List Char → List UInt8 → Bool

variable (crypto : Crypto)

/-- `CertificateFingerprintSHA256`. -/
def Crypto.fingerprint (cert : Certificate) : String := crypto.sha256Hex cert.raw

/-- The digest of a text. -/
def Crypto.sha256Text (text : List Char) : String := crypto.sha256Hex (GoText.encodeUtf8 text)

/-! ## The text form of fingerprints -/

def isHexDigit (c : Char) : Bool := c.isDigit || ('a' ≤ c && c ≤ 'f')

/-- The digits of a fingerprint's text: lower case, without `sha256:` and colons. -/
def fingerprintDigits (raw : String) : List Char :=
  (GoText.dropLead "sha256:".toList ((GoText.trimSpace raw).toList.map Char.toLower)).filter
    (· != ':')

def normalizeCertificateFingerprintSHA256 (raw : String) : Except String String :=
  let value := fingerprintDigits raw
  if value = [] then .error "fingerprint is required"
  else if (GoText.encodeUtf8 value).length ≠ 64 then
    .error ("fingerprint " ++ raw.quote ++ " is not a SHA256 hex digest")
  else if !value.all isHexDigit then
    .error ("fingerprint " ++ raw.quote ++ " is not valid hex")
  else .ok (String.ofList value)

/-- A hexadecimal digit is a decimal one or a small letter. -/
theorem isHexDigit_range {c : Char} (h : isHexDigit c = true) :
    (48 ≤ c.toNat ∧ c.toNat ≤ 57) ∨ (97 ≤ c.toNat ∧ c.toNat ≤ 102) := by
  unfold isHexDigit at h
  rw [Bool.or_eq_true, Char.isDigit] at h
  simp only [Bool.and_eq_true, decide_eq_true_eq, Char.le_def, UInt32.le_iff_toNat_le] at h
  exact h

theorem toLower_of_isHexDigit {c : Char} (h : isHexDigit c = true) : c.toLower = c := by
  apply Char.toLower_eq_of_not_isUpper
  have hrange := isHexDigit_range h
  intro hupper
  rw [Char.isUpper] at hupper
  simp only [decide_eq_true_eq, UInt32.le_iff_toNat_le] at hupper
  have hlow : 65 ≤ c.toNat := hupper.1
  have hhigh : c.toNat ≤ 90 := hupper.2
  omega

theorem isSpace_of_isHexDigit {c : Char} (h : isHexDigit c = true) : GoText.isSpace c = false := by
  have hrange := isHexDigit_range h
  unfold GoText.isSpace
  simp only [Bool.or_eq_false_iff, Bool.and_eq_false_iff, decide_eq_false_iff_not,
    beq_eq_false_iff_ne]
  omega

/-- Digits are left alone. -/
theorem fingerprintDigits_ofList {digits : List Char} (h : digits.all isHexDigit = true) :
    fingerprintDigits (String.ofList digits) = digits := by
  rw [List.all_eq_true] at h
  have hspace : ∀ l : List Char, (∀ c ∈ l, isHexDigit c = true) →
      l.dropWhile GoText.isSpace = l := by
    intro l hl
    rw [List.dropWhile_eq_self_iff]
    intro hlength
    rw [isSpace_of_isHexDigit (hl _ (List.getElem_mem hlength))]
    decide
  have htrim : (GoText.trimSpace (String.ofList digits)).toList = digits := by
    unfold GoText.trimSpace
    rw [String.toList_ofList, String.toList_ofList, hspace digits h, hspace digits.reverse,
      List.reverse_reverse]
    intro c hc
    exact h c (List.mem_reverse.mp hc)
  have hlower : digits.map Char.toLower = digits := by
    rw [List.map_congr_left fun c hc => toLower_of_isHexDigit (h c hc), List.map_id']
  have hlead : GoText.dropLead "sha256:".toList digits = digits := by
    unfold GoText.dropLead
    rw [if_neg]
    intro hprefix
    obtain ⟨rest, rfl⟩ := List.isPrefixOf_iff_prefix.mp hprefix
    have hdigit := h 's' (by simp)
    revert hdigit
    decide
  unfold fingerprintDigits
  rw [htrim, hlower, hlead, List.filter_eq_self]
  intro c hc
  have hrange := isHexDigit_range (h c hc)
  rw [bne_iff_ne]
  rintro rfl
  revert hrange
  decide

theorem fingerprintDigits_trimSpace (raw : String) :
    fingerprintDigits (GoText.trimSpace raw) = fingerprintDigits raw := by
  unfold fingerprintDigits
  rw [GoText.trimSpace_trimSpace]

variable {raw fingerprint : String}

theorem normalizeCertificateFingerprintSHA256_eq_ok :
    normalizeCertificateFingerprintSHA256 raw = .ok fingerprint ↔
      fingerprintDigits raw ≠ [] ∧ (GoText.encodeUtf8 (fingerprintDigits raw)).length = 64 ∧
        (fingerprintDigits raw).all isHexDigit = true ∧
        String.ofList (fingerprintDigits raw) = fingerprint := by
  unfold normalizeCertificateFingerprintSHA256
  simp only [Fallible.guard_eq_ok, not_not, Bool.not_eq_true', Bool.not_eq_false, ne_eq,
    Except.ok.injEq]

/-- **A fingerprint in normal form is left alone.** -/
theorem normalizeCertificateFingerprintSHA256_idem
    (h : normalizeCertificateFingerprintSHA256 raw = .ok fingerprint) :
    normalizeCertificateFingerprintSHA256 fingerprint = .ok fingerprint := by
  obtain ⟨hne, hlength, hhex, rfl⟩ := normalizeCertificateFingerprintSHA256_eq_ok.mp h
  rw [normalizeCertificateFingerprintSHA256_eq_ok, fingerprintDigits_ofList hhex]
  exact ⟨hne, hlength, hhex, rfl⟩

theorem normalizeCertificateFingerprintSHA256_trimSpace :
    normalizeCertificateFingerprintSHA256 (GoText.trimSpace raw) = .ok fingerprint ↔
      normalizeCertificateFingerprintSHA256 raw = .ok fingerprint := by
  rw [normalizeCertificateFingerprintSHA256_eq_ok, normalizeCertificateFingerprintSHA256_eq_ok,
    fingerprintDigits_trimSpace]

end Pki

/-
# Strings of the Go library

The string functions of the Go library that the models use.  A Go string here is
valid UTF-8, a Lean `String`; a byte slice that holds text is read as Go reads it,
with U+FFFD for every byte that starts no character.

* `decodeUtf8_encodeUtf8` : the bytes of a text read back as the text.
-/
import Mathlib

namespace GoText

/-! ## Strings -/

/-- `unicode.IsSpace`. -/
def isSpace (c : Char) : Bool :=
  let n := c.toNat
  (9 ≤ n && n ≤ 13) || n == 0x20 || n == 0x85 || n == 0xA0 || n == 0x1680 ||
    (0x2000 ≤ n && n ≤ 0x200A) || n == 0x2028 || n == 0x2029 || n == 0x202F || n == 0x205F ||
    n == 0x3000

/-- `strings.TrimSpace`. -/
def trimSpace (s : String) : String :=
  String.ofList (((s.toList.dropWhile isSpace).reverse.dropWhile isSpace).reverse)

/-- Text that opens with a visible character is not blank. -/
theorem trimSpace_ne_empty {s : String} {c : Char} {rest : List Char} (hs : s.toList = c :: rest)
    (hc : isSpace c = false) : trimSpace s ≠ "" := by
  unfold trimSpace
  rw [hs, List.dropWhile_cons_of_neg (by simp [hc])]
  intro h
  have hnil : (List.dropWhile isSpace (c :: rest).reverse) = [] := by
    simpa using congrArg String.toList h
  rw [List.dropWhile_eq_nil_iff] at hnil
  have hspace := hnil c (by simp)
  rw [hc] at hspace
  cases hspace

/-- `strings.Cut` at a character. -/
def cut (s : String) (sep : Char) : Option (String × String) :=
  match s.toList.dropWhile (· != sep) with
  | [] => none
  | _ :: rest => some (String.ofList (s.toList.takeWhile (· != sep)), String.ofList rest)

/-- `strings.HasPrefix`. -/
def startsWith (s lead : String) : Bool := lead.toList.isPrefixOf s.toList

/-- `strings.HasSuffix`. -/
def endsWith (s tail : String) : Bool := tail.toList.isSuffixOf s.toList

/-- `strings.ToUpper` and `strings.ToLower`, of ASCII letters. -/
def toUpper (s : String) : String := String.ofList (s.toList.map Char.toUpper)
def toLower (s : String) : String := String.ofList (s.toList.map Char.toLower)

/-- A letter is no space. -/
theorem isSpace_of_isAlpha {c : Char} (h : c.isAlpha = true) : isSpace c = false := by
  have hrange : 65 ≤ c.toNat ∧ c.toNat ≤ 122 := by
    rw [Char.isAlpha, Bool.or_eq_true, Char.isUpper, Char.isLower] at h
    simp only [Bool.and_eq_true, decide_eq_true_eq, UInt32.le_iff_toNat_le] at h
    show 65 ≤ c.val.toNat ∧ c.val.toNat ≤ 122
    rcases h with ⟨hlow, hhigh⟩ | ⟨hlow, hhigh⟩
    · exact ⟨hlow, hhigh.trans (by decide)⟩
    · exact ⟨le_trans (by decide) hlow, hhigh⟩
  unfold isSpace
  simp only [Bool.or_eq_false_iff, Bool.and_eq_false_iff, decide_eq_false_iff_not,
    beq_eq_false_iff_ne]
  omega

theorem isSpace_toLower (c : Char) : isSpace c.toLower = isSpace c := by
  by_cases halpha : c.isAlpha = true
  · rw [isSpace_of_isAlpha halpha, isSpace_of_isAlpha]
    rw [Char.isAlpha_toLower_eq_isAlpha]
    exact halpha
  · have hupper : ¬ c.isUpper = true := fun h => halpha (by simp [Char.isAlpha, h])
    rw [Char.toLower_eq_of_not_isUpper hupper]

theorem trimSpace_toLower (s : String) : trimSpace (toLower s) = toLower (trimSpace s) := by
  have hspace : isSpace ∘ Char.toLower = isSpace := by
    funext c
    exact isSpace_toLower c
  unfold trimSpace toLower
  rw [String.toList_ofList, String.toList_ofList, List.dropWhile_map, hspace, ← List.map_reverse,
    List.dropWhile_map, hspace, List.map_reverse]

@[simp] theorem toLower_toLower (s : String) : toLower (toLower s) = toLower s := by
  unfold toLower
  rw [String.toList_ofList, List.map_map]
  congr 2
  funext c
  exact Char.toLower_toLower_eq_toLower c

@[simp] theorem trimSpace_trimSpace (s : String) : trimSpace (trimSpace s) = trimSpace s := by
  unfold trimSpace
  rw [String.toList_ofList]
  generalize hkept : s.toList.dropWhile isSpace = kept
  -- what is left opens as `kept` does, with no space
  have hfront : (kept.reverse.dropWhile isSpace).reverse.dropWhile isSpace =
      (kept.reverse.dropWhile isSpace).reverse := by
    rw [List.dropWhile_eq_self_iff]
    intro hlength
    have hopens : (kept.reverse.dropWhile isSpace).reverse <+: kept := by
      have := List.reverse_prefix.mpr (List.dropWhile_suffix isSpace (l := kept.reverse))
      rwa [List.reverse_reverse] at this
    rw [hopens.getElem]
    have hself : kept.dropWhile isSpace = kept := by
      rw [← hkept]
      exact List.dropWhile_idempotent isSpace _
    exact List.dropWhile_eq_self_iff.mp hself (hlength.trans_le hopens.length_le)
  rw [hfront, List.reverse_reverse, List.dropWhile_idempotent isSpace]

/-- Lower-casing the trimmed text gives a text that the same leaves alone. -/
theorem toLower_trimSpace_idem (s : String) :
    toLower (trimSpace (toLower (trimSpace s))) = toLower (trimSpace s) := by
  rw [trimSpace_toLower, trimSpace_trimSpace, toLower_toLower]

/-- `strings.TrimPrefix`, on characters. -/
def dropLead (lead text : List Char) : List Char :=
  if lead.isPrefixOf text then text.drop lead.length else text

/-! ## UTF-8 -/

def encodeUtf8 (text : List Char) : List UInt8 := text.flatMap String.utf8EncodeChar

/-- One character at a time; a byte that starts none stands for U+FFFD. -/
def decodeUtf8Loop : ℕ → List UInt8 → List Char
  | 0, _ => []
  | _ + 1, [] => []
  | fuel + 1, byte :: bytes =>
    match ((byte :: bytes).take 4).toByteArray.utf8DecodeChar? 0 with
    | some c => c :: decodeUtf8Loop fuel ((byte :: bytes).drop c.utf8Size)
    | none => Char.ofNat 0xFFFD :: decodeUtf8Loop fuel bytes

def decodeUtf8 (bytes : List UInt8) : List Char := decodeUtf8Loop bytes.length bytes

theorem decodeUtf8Loop_encodeChar (fuel : ℕ) (c : Char) (rest : List UInt8) :
    decodeUtf8Loop (fuel + 1) (String.utf8EncodeChar c ++ rest)
      = c :: decodeUtf8Loop fuel rest := by
  have hlength : (String.utf8EncodeChar c).length = c.utf8Size := by simp
  have hsize : c.utf8Size ≤ 4 := c.utf8Size_le_four
  have htake : ((String.utf8EncodeChar c ++ rest).take 4).toByteArray.utf8DecodeChar? 0
      = some c := by
    have hsplit : (String.utf8EncodeChar c ++ rest).take 4
        = String.utf8EncodeChar c ++ rest.take (4 - c.utf8Size) := by
      rw [List.take_append, List.take_of_length_le (by omega), hlength]
    rw [hsplit, List.toByteArray_append]
    have hchar : (String.utf8EncodeChar c).toByteArray = [c].utf8Encode := by
      simp [List.utf8Encode]
    rw [hchar]
    exact List.utf8DecodeChar?_utf8Encode_singleton_append
  have hdrop : (String.utf8EncodeChar c ++ rest).drop c.utf8Size = rest := by
    rw [← hlength, List.drop_left]
  cases hbytes : String.utf8EncodeChar c ++ rest with
  | nil =>
    have hnil := congrArg List.length hbytes
    have hpos := c.utf8Size_pos
    rw [List.length_append, hlength, List.length_nil] at hnil
    omega
  | cons byte bytes =>
    rw [hbytes] at htake hdrop
    rw [decodeUtf8Loop, htake]
    simp only [hdrop]

theorem decodeUtf8Loop_encodeUtf8 (text : List Char) (fuel : ℕ) (h : text.length ≤ fuel) :
    decodeUtf8Loop fuel (encodeUtf8 text) = text := by
  induction text generalizing fuel with
  | nil =>
    cases fuel with
    | zero => rfl
    | succ fuel => rfl
  | cons c text ih =>
    obtain ⟨fuel, rfl⟩ : ∃ n, fuel = n + 1 := ⟨fuel - 1, by simp at h; omega⟩
    rw [encodeUtf8, List.flatMap_cons, decodeUtf8Loop_encodeChar]
    have htail := ih fuel (by simpa using h)
    rw [encodeUtf8] at htail
    rw [htail]

theorem length_le_encodeUtf8 (text : List Char) : text.length ≤ (encodeUtf8 text).length := by
  induction text with
  | nil => simp [encodeUtf8]
  | cons c text ih =>
    have hpos := c.utf8Size_pos
    rw [encodeUtf8, List.flatMap_cons, List.length_append, List.length_cons]
    rw [encodeUtf8] at ih
    simp only [String.length_utf8EncodeChar]
    omega

/-- **Text survives its bytes.** -/
theorem decodeUtf8_encodeUtf8 (text : List Char) : decodeUtf8 (encodeUtf8 text) = text :=
  decodeUtf8Loop_encodeUtf8 text _ (length_le_encodeUtf8 text)

example : String.ofList (decodeUtf8 [0x7b, 0xff, 0xc3, 0xa9]) = "\x7b�é" := by decide

end GoText

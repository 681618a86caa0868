/-
# Go values and their JSON

How `encoding/json` turns the field types of a Go struct into JSON and back: strings,
unsigned integers, byte slices (base64, and `null` for a nil slice), times, and the
members of an object, whose names are matched without regard to case.

Each encoder has a lemma saying what its decoder makes of it, and one saying that it
is injective; they are what the codec of a struct is assembled from.
-/
import TrustIX.Base64
import TrustIX.Fallible
import TrustIX.GoText
import TrustIX.GoTime
import TrustIX.JsonText

namespace GoJson

open JsonText Fallible

/-- A byte slice; `none` is the nil slice. -/
abbrev Slice := Option (List UInt8)

/-- The bytes of a slice, none for the nil slice. -/
def Slice.bytes (slice : Slice) : List UInt8 := slice.getD []

/-! ## Encoding -/

def string (s : String) : Json := .str (escape s.toList)

def nat (n : ℕ) : Json := .num (Nat.toDigits 10 n)

def int (n : ℤ) : Json :=
  .num (if n < 0 then '-' :: Nat.toDigits 10 n.natAbs else Nat.toDigits 10 n.natAbs)

def slice : Slice → Json
  | none => .null
  | some bytes => .str (Base64.encode bytes)

def time (t : GoTime.Time) : Except String Json := t.marshal.map Json.str

/-- A member of an object, under a name that needs no escapes. -/
def field (name : String) (value : Json) : List Char × Json := (name.toList, value)

def object (fields : List (List Char × Json)) : Json := .obj (Fields.ofList fields)

def array (items : List Json) : Json := .arr (Items.ofList items)

def strings (items : List String) : Json := array (items.map string)

/-! ## Decoding -/

/-- Simple case folding, for the characters that fold to ASCII. -/
def foldChar (c : Char) : Char :=
  if 97 ≤ c.toNat ∧ c.toNat ≤ 122 then Char.ofNat (c.toNat - 32)
  else if c.toNat = 0x212A then 'K'
  else if c.toNat = 0x17F then 'S'
  else c

/-- The name a member's key matches. -/
def keyMatches (name : String) (key : List Char) : Bool :=
  match unquote key with
  | some k => k.map foldChar == name.toList.map foldChar
  | none => false

/-- `null` leaves the value as it was. -/
def decodeString (old : String) : Json → Except String String
  | .str raw =>
    match unquote raw with
    | some s => .ok (String.ofList s)
    | none => .error "invalid string"
  | .null => .ok old
  | _ => .error "cannot unmarshal into string"

def decodeNat (old : ℕ) : Json → Except String ℕ
  | .num raw =>
    if raw.all Char.isDigit then .ok (Nat.ofDigitChars 10 raw 0)
    else .error "cannot unmarshal number"
  | .null => .ok old
  | _ => .error "cannot unmarshal into number"

/-- The value of a number token without fraction and exponent. -/
def tokenInt : List Char → ℤ
  | '-' :: digits => -(Nat.ofDigitChars 10 digits 0 : ℤ)
  | digits => (Nat.ofDigitChars 10 digits 0 : ℤ)

/-- An `int` field. -/
def decodeInt (old : Int64) : Json → Except String Int64
  | .num raw =>
    if (GoText.dropLead ['-'] raw).all Char.isDigit ∧ -2 ^ 63 ≤ tokenInt raw ∧
        tokenInt raw < 2 ^ 63 then
      .ok (Int64.ofInt (tokenInt raw))
    else .error "cannot unmarshal number"
  | .null => .ok old
  | _ => .error "cannot unmarshal into number"

def decodeByte (item : Json) : Except String UInt8 := do
  let n ← decodeNat 0 item
  if n < 256 then .ok (UInt8.ofNat n) else .error "cannot unmarshal number"

/-- Base64 text, `null` for nil, or an array of numbers. -/
def decodeSlice : Json → Except String Slice
  | .null => .ok none
  | .str raw =>
    match (unquote raw).bind Base64.decode with
    | some bytes => .ok (some bytes)
    | none => .error "illegal base64 data"
  | .arr items => (items.toList.mapM decodeByte).map some
  | _ => .error "cannot unmarshal into []byte"

/-- A `null` item is an empty string. -/
def decodeStrings : Json → Except String (List String)
  | .null => .ok []
  | .arr items => items.toList.mapM (decodeString "")
  | _ => .error "cannot unmarshal into []string"

/-- `UnmarshalJSON` of a time looks at the token, without its escapes. -/
def decodeTime (old : GoTime.Time) : Json → Except String GoTime.Time
  | .null => .ok old
  | .str raw =>
    match GoTime.parse raw with
    | some t => .ok t
    | none => .error "parsing time"
  | _ => .error "Time.UnmarshalJSON: input is not a JSON string"

/-- One member of an object, written into a struct; an unknown name is skipped.
`resolve` finds the struct field of a key. -/
def decodeMember {F α : Type} (resolve : List Char → Option F)
    (set : F → Json → α → Except String α) (value : α) (member : List Char × Json) :
    Except String α :=
  match resolve member.1 with
  | some f => set f member.2 value
  | none => .ok value

/-- The members of an object, in order. -/
def decodeObject {F α : Type} (resolve : List Char → Option F)
    (set : F → Json → α → Except String α) (zero : α) : Json → Except String α
  | .obj fields => fields.toList.foldlM (decodeMember resolve set) zero
  | .null => .ok zero
  | _ => .error "cannot unmarshal into struct"

/-! ## What decoding makes of an encoded value -/

variable {F α : Type}

theorem decodeObject_object (resolve : List Char → Option F)
    (set : F → Json → α → Except String α) (zero : α) (fields : List (List Char × Json)) :
    decodeObject resolve set zero (object fields)
      = fields.foldlM (decodeMember resolve set) zero := by
  rw [object, decodeObject, Fields.toList_ofList]

variable {name : String}

theorem decodeMember_field {resolve : List Char → Option F} {f : F}
    (h : resolve name.toList = some f) (set : F → Json → α → Except String α) (value : α)
    (v : Json) : decodeMember resolve set value (field name v) = set f v value := by
  rw [decodeMember, field, h]

@[simp] theorem decodeString_string (old s : String) : decodeString old (string s) = .ok s := by
  rw [string, decodeString, unquote_escape]
  simp

@[simp] theorem decodeNat_nat (old n : ℕ) : decodeNat old (nat n) = .ok n := by
  have hdigits : (Nat.toDigits 10 n).all Char.isDigit = true := by
    rw [List.all_eq_true]
    intro c hc
    exact Nat.isDigit_of_mem_toDigits (by decide) (by decide) hc
  rw [nat, decodeNat, if_pos hdigits, Nat.ofDigitChars_toDigits (by decide) (by decide)]

theorem dropLead_int (n : ℤ) {raw : List Char} (h : int n = .num raw) :
    GoText.dropLead ['-'] raw = Nat.toDigits 10 n.natAbs ∧ tokenInt raw = n := by
  have hvalue : Nat.ofDigitChars 10 (Nat.toDigits 10 n.natAbs) 0 = n.natAbs :=
    Nat.ofDigitChars_toDigits (by decide) (by decide)
  have hraw := Json.num.inj h
  split_ifs at hraw with hneg
  · subst hraw
    refine ⟨by simp [GoText.dropLead], ?_⟩
    rw [tokenInt, hvalue]
    omega
  · obtain ⟨c, rest, hcons⟩ :=
      List.exists_cons_of_ne_nil (Nat.toDigits_ne_nil (n := n.natAbs) (b := 10))
    have hminus : c ≠ '-' := by
      rintro rfl
      have hdigit : ('-').isDigit = true :=
        Nat.isDigit_of_mem_toDigits (b := 10) (n := n.natAbs) (by decide) (by decide)
          (by rw [hcons]; exact List.mem_cons_self)
      exact absurd hdigit (by decide)
    subst hraw
    refine ⟨by simp [hcons, GoText.dropLead, hminus.symm], ?_⟩
    have htoken : tokenInt (Nat.toDigits 10 n.natAbs)
        = (Nat.ofDigitChars 10 (Nat.toDigits 10 n.natAbs) 0 : ℤ) := by
      rw [hcons]
      exact tokenInt.eq_2 _ fun digits heq => hminus (List.cons.inj heq).1
    omega

@[simp] theorem decodeInt_int (old n : Int64) : decodeInt old (int n.toInt) = .ok n := by
  have hlow : -2 ^ 63 ≤ n.toInt := n.le_toInt
  have hhigh : n.toInt < 2 ^ 63 := n.toInt_lt
  obtain ⟨hdrop, htoken⟩ := dropLead_int n.toInt rfl
  have hdigits : (Nat.toDigits 10 n.toInt.natAbs).all Char.isDigit = true := by
    rw [List.all_eq_true]
    intro c hc
    exact Nat.isDigit_of_mem_toDigits (by decide) (by decide) hc
  rw [int, decodeInt, hdrop, htoken, if_pos ⟨hdigits, hlow, hhigh⟩, Int64.ofInt_toInt]

@[simp] theorem decodeStrings_strings (items : List String) :
    decodeStrings (strings items) = .ok items := by
  rw [strings, array, decodeStrings, Items.toList_ofList, mapM_eq_ok, List.forall₂_map_left_iff]
  exact List.forall₂_same.mpr fun s _ => decodeString_string "" s

variable {c : Char}

theorem plain_not_special (h : Base64.isPlain c = true) : c ≠ '"' ∧ c ≠ '\\' ∧ ¬ c.toNat < 32 := by
  refine ⟨?_, ?_, ?_⟩
  · rintro rfl
    exact absurd h (by decide)
  · rintro rfl
    exact absurd h (by decide)
  · intro hlt
    simp only [Base64.isPlain, Char.isAlphanum, Char.isAlpha, Char.isUpper, Char.isLower,
      Char.isDigit, Bool.or_eq_true, Bool.and_eq_true, decide_eq_true_eq, beq_iff_eq] at h
    rcases h with ((h | rfl) | rfl) | rfl
    · simp only [UInt32.le_iff_toNat_le, ge_iff_le] at h
      simp at h
      omega
    · exact absurd hlt (by decide)
    · exact absurd hlt (by decide)
    · exact absurd hlt (by decide)

theorem validToken_base64 (bytes : List UInt8) : ValidToken (Base64.encode bytes) :=
  validToken_of_plain fun _ hc => plain_not_special (Base64.isPlain_of_mem_encode hc)

/-- A token of characters that stand for themselves denotes itself. -/
theorem unquote_of_plain {raw : List Char}
    (h : ∀ c ∈ raw, c ≠ '"' ∧ c ≠ '\\' ∧ ¬ c.toNat < 32) : unquote raw = some raw := by
  induction raw with
  | nil => rfl
  | cons c raw ih =>
    obtain ⟨hq, hb, hc⟩ := h c List.mem_cons_self
    rw [unquote_plain hq hb hc, ih (fun d hd => h d (List.mem_cons_of_mem _ hd))]
    rfl

@[simp] theorem decodeSlice_slice (s : Slice) : decodeSlice (slice s) = .ok s := by
  cases s with
  | none => rfl
  | some bytes =>
    have hunquote : unquote (Base64.encode bytes) = some (Base64.encode bytes) :=
      unquote_of_plain fun _ hc => plain_not_special (Base64.isPlain_of_mem_encode hc)
    rw [slice, decodeSlice, hunquote, Option.bind_some, Base64.decode_encode]

variable {t : GoTime.Time} {v : Json}

theorem decodeTime_time {old : GoTime.Time} (h : time t = .ok v) :
    decodeTime old v = .ok t.truncate := by
  unfold time at h
  cases hmarshal : t.marshal with
  | error err => simp [hmarshal, Except.map] at h
  | ok text =>
    simp only [hmarshal, Except.map] at h
    injection h with h
    rw [← h, decodeTime, GoTime.parse_marshal hmarshal]

/-! ## Invariants of decoding -/

/-- What setting a member keeps holds of every decoded struct. -/
theorem decodeObject_induct {resolve : List Char → Option F}
    {set : F → Json → α → Except String α} {zero : α} {P : α → Prop} (hzero : P zero)
    (hset : ∀ f v x y, P x → set f v x = .ok y → P y) {r : α}
    (h : decodeObject resolve set zero v = .ok r) : P r := by
  unfold decodeObject at h
  split at h
  · refine foldlM_induct hzero ?_ h
    intro x hx member _ y hy
    unfold decodeMember at hy
    split at hy
    · exact hset _ _ x y hx hy
    · injection hy with hy
      exact hy ▸ hx
  · injection h with h
    exact h ▸ hzero
  · cases h

theorem wholeMinute_of_decodeTime {old : GoTime.Time} (hold : old.WholeMinute)
    (h : decodeTime old v = .ok t) : t.WholeMinute := by
  unfold decodeTime at h
  split at h
  · injection h with h
    exact h ▸ hold
  · split at h
    · rename_i hparse
      injection h with h
      exact h ▸ GoTime.wholeMinute_of_parse hparse
    · cases h
  · cases h

/-! ## Encoded values are valid -/

@[simp] theorem valid_string (s : String) : (string s).Valid := by
  rw [string, Json.Valid]
  exact validToken_escape _

@[simp] theorem valid_nat (n : ℕ) : (nat n).Valid := by
  rw [nat, Json.Valid]
  exact validNumber_toDigits n

@[simp] theorem valid_int (n : ℤ) : (int n).Valid := by
  rw [int, Json.Valid]
  split_ifs with hneg
  · exact validNumber_neg_toDigits (by omega)
  · exact validNumber_toDigits n.natAbs

@[simp] theorem valid_slice (s : Slice) : (slice s).Valid := by
  cases s with
  | none => simp [slice, Json.Valid]
  | some bytes =>
    rw [slice, Json.Valid]
    exact validToken_base64 bytes

/-- The characters of a formatted time. -/
def isTimeChar (c : Char) : Bool :=
  c.isDigit || c == '-' || c == '+' || c == ':' || c == 'T' || c == '.' || c == 'Z'

theorem isTimeChar_of_isDigit (h : c.isDigit = true) : isTimeChar c = true := by
  simp [isTimeChar, h]

variable {n : ℕ}

theorem isTimeChar_pad2 (h : c ∈ GoTime.pad2 n) : isTimeChar c = true := by
  apply isTimeChar_of_isDigit
  unfold GoTime.pad2 at h
  split_ifs at h with hn
  · simp only [List.mem_cons, List.not_mem_nil, or_false] at h
    rcases h with rfl | rfl
    · exact (GoTime.digitChar_spec _ (by omega)).1
    · exact (GoTime.digitChar_spec _ (by omega)).1
  · exact Nat.isDigit_of_mem_toDigits (by decide) (by decide) h

theorem isTimeChar_pad4 (h : c ∈ GoTime.pad4 n) : isTimeChar c = true := by
  apply isTimeChar_of_isDigit
  unfold GoTime.pad4 at h
  split_ifs at h with hn
  · simp only [List.mem_cons, List.not_mem_nil, or_false] at h
    rcases h with rfl | rfl | rfl | rfl <;> exact (GoTime.digitChar_spec _ (by omega)).1
  · exact Nat.isDigit_of_mem_toDigits (by decide) (by decide) h

theorem isTimeChar_fraction (h : c ∈ GoTime.formatFraction n) : isTimeChar c = true := by
  unfold GoTime.formatFraction at h
  split at h
  · simp at h
  · rcases List.mem_cons.mp h with rfl | hmem
    · decide
    · exact isTimeChar_of_isDigit
        (GoTime.isDigit_nanoDigits n c ((List.rdropWhile_prefix _ _).subset hmem))

theorem isTimeChar_zone {offset : ℤ} (h : c ∈ GoTime.formatZone offset) : isTimeChar c = true := by
  unfold GoTime.formatZone at h
  split_ifs at h with hzero
  · rw [List.mem_singleton] at h
    subst h
    decide
  · simp only [List.mem_cons, List.mem_append] at h
    rcases h with h | h | rfl | h
    · split_ifs at h
      · subst h
        decide
      · subst h
        decide
    · exact isTimeChar_pad2 h
    · decide
    · exact isTimeChar_pad2 h

theorem isTimeChar_of_mem_format (h : c ∈ t.format) : isTimeChar c = true := by
  unfold GoTime.Time.format GoTime.formatYear at h
  simp only [List.mem_append, List.mem_cons] at h
  rcases h with h | rfl | h | rfl | h | rfl | h | rfl | h | rfl | h | h | h
  · split_ifs at h
    · rcases List.mem_cons.mp h with rfl | h
      · decide
      · exact isTimeChar_pad4 h
    · exact isTimeChar_pad4 h
  · decide
  · exact isTimeChar_pad2 h
  · decide
  · exact isTimeChar_pad2 h
  · decide
  · exact isTimeChar_pad2 h
  · decide
  · exact isTimeChar_pad2 h
  · decide
  · exact isTimeChar_pad2 h
  · exact isTimeChar_fraction h
  · exact isTimeChar_zone h

theorem timeChar_not_special (h : isTimeChar c = true) : c ≠ '"' ∧ c ≠ '\\' ∧ ¬ c.toNat < 32 := by
  simp only [isTimeChar, Bool.or_eq_true, beq_iff_eq] at h
  rcases h with (((((h | rfl) | rfl) | rfl) | rfl) | rfl) | rfl
  · apply plain_not_special
    simp [Base64.isPlain, Char.isAlphanum, h]
  all_goals decide

theorem valid_time (h : time t = .ok v) : v.Valid := by
  unfold time at h
  cases hmarshal : t.marshal with
  | error err => simp [hmarshal, Except.map] at h
  | ok text =>
    simp only [hmarshal, Except.map, Except.ok.injEq] at h
    have htext : t.format = text := by
      unfold GoTime.Time.marshal at hmarshal
      split_ifs at hmarshal
      injection hmarshal
    rw [← h, Json.Valid, ← htext]
    exact validToken_of_plain fun c hc => timeChar_not_special (isTimeChar_of_mem_format hc)

/-- A name of plain characters is a valid key. -/
theorem validToken_name (h : name.toList.all (fun c =>
    c ≠ '"' ∧ c ≠ '\\' ∧ ¬ c.toNat < 32) = true) : ValidToken name.toList := by
  apply validToken_of_plain
  intro c hc
  have := List.all_eq_true.mp h c hc
  simpa using this

/-- Members with well-formed names and values. -/
def ValidFields (fields : List (List Char × Json)) : Prop :=
  ∀ p ∈ fields, ValidToken p.1 ∧ p.2.Valid

@[simp] theorem validFields_nil : ValidFields [] := fun _ hp => absurd hp List.not_mem_nil

@[simp] theorem validFields_cons {v : Json} {rest : List (List Char × Json)} :
    ValidFields (field name v :: rest) ↔ (ValidToken name.toList ∧ v.Valid) ∧ ValidFields rest :=
  List.forall_mem_cons

@[simp] theorem validFields_append {front back : List (List Char × Json)} :
    ValidFields (front ++ back) ↔ ValidFields front ∧ ValidFields back :=
  List.forall_mem_append

theorem valid_object {fields : List (List Char × Json)} (h : ValidFields fields) :
    (object fields).Valid := by
  rw [object, Json.Valid]
  induction fields with
  | nil => simp [Fields.ofList, Fields.Valid]
  | cons p rest ih =>
    obtain ⟨hkey, hvalue⟩ := h p List.mem_cons_self
    exact ⟨hkey, hvalue, ih fun q hq => h q (List.mem_cons_of_mem _ hq)⟩

theorem valid_array {items : List Json} (h : ∀ v ∈ items, v.Valid) : (array items).Valid := by
  rw [array, Json.Valid]
  induction items with
  | nil => simp [Items.ofList, Items.Valid]
  | cons v rest ih =>
    exact ⟨h v List.mem_cons_self, ih fun w hw => h w (List.mem_cons_of_mem _ hw)⟩

@[simp] theorem valid_strings (items : List String) : (strings items).Valid := by
  apply valid_array
  intro v hv
  obtain ⟨s, -, rfl⟩ := List.mem_map.mp hv
  exact valid_string s

/-! ## Encoding is injective -/

theorem string_inj {s t : String} (h : string s = string t) : s = t := by
  have hdecode := decodeString_string "" s
  rw [h, decodeString_string] at hdecode
  injection hdecode with hdecode
  exact hdecode.symm

theorem nat_inj {m : ℕ} (h : nat m = nat n) : m = n := by
  have hdecode := decodeNat_nat 0 m
  rw [h, decodeNat_nat] at hdecode
  injection hdecode with hdecode
  exact hdecode.symm

theorem slice_inj {s t : Slice} (h : slice s = slice t) : s = t := by
  have hdecode := decodeSlice_slice s
  rw [h, decodeSlice_slice] at hdecode
  injection hdecode with hdecode
  exact hdecode.symm

theorem time_inj {u : GoTime.Time} (ht : time t = .ok v) (hu : time u = .ok v) :
    t.marshal = u.marshal := by
  unfold time at ht hu
  cases htext : t.marshal with
  | error err => simp [htext, Except.map] at ht
  | ok text =>
    cases hutext : u.marshal with
    | error err => simp [hutext, Except.map] at hu
    | ok text' =>
      simp only [htext, hutext, Except.map, Except.ok.injEq] at ht hu
      rw [← hu] at ht
      rw [Json.str.inj ht]

theorem object_inj {l l' : List (List Char × Json)} (h : object l = object l') : l = l' := by
  have hfields := congrArg Fields.toList (Json.obj.inj h)
  simpa using hfields

theorem array_inj {l l' : List Json} (h : array l = array l') : l = l' := by
  have hitems := congrArg Items.toList (Json.arr.inj h)
  simpa using hitems

end GoJson

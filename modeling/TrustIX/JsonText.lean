/-
# JSON texts

JSON as the Go library's `encoding/json` writes it and reads it back.  A value keeps
its string and number tokens as they stand in the text, between the quotes and with
their escapes, because some readers look at the token and not at the string it
denotes; `escape` and `unquote` go from strings to tokens and back.

* `parseValue_print` : the parser reads a printed value and stops after it;
* `print_injective` : a text is the print of one value only;
* `unquote_escape` : a string is recovered from its token.

The printer writes no space and escapes what the Go encoder escapes by default; the
parser takes any white space between tokens.
-/
import Mathlib

namespace JsonText

/-! ## Values -/

mutual
/-- A JSON value, with the raw text of its string and number tokens. -/
inductive Json where
  | null
  | bool (b : Bool)
  | num (raw : List Char)
  | str (raw : List Char)
  | arr (items : Items)
  | obj (fields : Fields)
/-- The items of an array. -/
inductive Items where
  | nil
  | cons (item : Json) (rest : Items)
/-- The members of an object, in the order of the text. -/
inductive Fields where
  | nil
  | cons (key : List Char) (value : Json) (rest : Fields)
end

deriving instance DecidableEq for Json, Items, Fields

def Items.toList : Items → List Json
  | .nil => []
  | .cons item rest => item :: rest.toList

def Items.ofList : List Json → Items
  | [] => .nil
  | item :: rest => .cons item (Items.ofList rest)

@[simp] theorem Items.toList_ofList (l : List Json) : (Items.ofList l).toList = l := by
  induction l with
  | nil => rfl
  | cons item rest ih => rw [Items.ofList, Items.toList, ih]

def Fields.toList : Fields → List (List Char × Json)
  | .nil => []
  | .cons key value rest => (key, value) :: rest.toList

def Fields.ofList : List (List Char × Json) → Fields
  | [] => .nil
  | (key, value) :: rest => .cons key value (Fields.ofList rest)

@[simp] theorem Fields.toList_ofList (l : List (List Char × Json)) :
    (Fields.ofList l).toList = l := by
  induction l with
  | nil => rfl
  | cons field rest ih => rw [Fields.ofList, Fields.toList, ih]

/-! ## Printing -/

/-- A string token with its quotes. -/
def quoted (raw : List Char) : List Char := '"' :: (raw ++ ['"'])

mutual
def Json.print : Json → List Char
  | .null => ['n', 'u', 'l', 'l']
  | .bool true => ['t', 'r', 'u', 'e']
  | .bool false => ['f', 'a', 'l', 's', 'e']
  | .num raw => raw
  | .str raw => quoted raw
  | .arr items => '[' :: (items.print ++ [']'])
  | .obj fields => '{' :: (fields.print ++ ['}'])
def Items.print : Items → List Char
  | .nil => []
  | .cons item .nil => item.print
  | .cons item rest => item.print ++ ',' :: rest.print
def Fields.print : Fields → List Char
  | .nil => []
  | .cons key value .nil => quoted key ++ ':' :: value.print
  | .cons key value rest => quoted key ++ ':' :: (value.print ++ ',' :: rest.print)
end

/-! ## Scanning tokens -/

def isSpace (c : Char) : Bool := c == ' ' || c == '\t' || c == '\r' || c == '\n'

def skipSpace : List Char → List Char := List.dropWhile isSpace

def hexValue (c : Char) : Option ℕ :=
  let n := c.toNat
  if 48 ≤ n ∧ n ≤ 57 then some (n - 48)
  else if 97 ≤ n ∧ n ≤ 102 then some (n - 97 + 10)
  else if 65 ≤ n ∧ n ≤ 70 then some (n - 65 + 10)
  else none

/-- The escapes of one letter, with the character they denote. -/
def simpleEscape (c : Char) : Option Char :=
  if c = '"' then some '"'
  else if c = '\\' then some '\\'
  else if c = '/' then some '/'
  else if c = 'b' then some '\x08'
  else if c = 'f' then some '\x0c'
  else if c = 'n' then some '\n'
  else if c = 'r' then some '\r'
  else if c = 't' then some '\t'
  else none

/-- The rest of a string token after its opening quote: the raw text up to the closing
quote, and what follows it. -/
def scanString : List Char → Option (List Char × List Char)
  | [] => none
  | '"' :: rest => some ([], rest)
  | '\\' :: 'u' :: h1 :: h2 :: h3 :: h4 :: rest =>
    if (hexValue h1).isSome ∧ (hexValue h2).isSome ∧ (hexValue h3).isSome ∧
        (hexValue h4).isSome then
      (scanString rest).map (fun p => ('\\' :: 'u' :: h1 :: h2 :: h3 :: h4 :: p.1, p.2))
    else none
  | '\\' :: e :: rest =>
    if (simpleEscape e).isSome then
      (scanString rest).map (fun p => ('\\' :: e :: p.1, p.2))
    else none
  | c :: rest =>
    if c = '\\' ∨ c.toNat < 32 then none
    else (scanString rest).map (fun p => (c :: p.1, p.2))

def isNumberChar (c : Char) : Bool :=
  c.isDigit || c == '-' || c == '+' || c == '.' || c == 'e' || c == 'E'

def isExponent : List Char → Bool
  | [] => true
  | c :: rest =>
    if c = 'e' ∨ c = 'E' then
      let digits := match rest with
        | s :: rest' => if s = '+' ∨ s = '-' then rest' else rest
        | [] => []
      !digits.isEmpty && digits.all Char.isDigit
    else false

def isFraction : List Char → Bool
  | '.' :: d :: rest => d.isDigit && isExponent (rest.dropWhile Char.isDigit)
  | rest => isExponent rest

/-- The number grammar of JSON. -/
def isNumber (raw : List Char) : Bool :=
  let unsigned := match raw with
    | '-' :: rest => rest
    | _ => raw
  match unsigned with
  | [] => false
  | c :: rest =>
    if c = '0' then isFraction rest
    else c.isDigit && isFraction (rest.dropWhile Char.isDigit)

def scanNumber (text : List Char) : Option (List Char × List Char) :=
  let raw := text.takeWhile isNumberChar
  if isNumber raw then some (raw, text.dropWhile isNumberChar) else none

/-- The rest of a literal name. -/
def scanLiteral (name text : List Char) : Option (List Char) :=
  if text.take name.length = name then some (text.drop name.length) else none

/-! ## Parsing -/

mutual
/-- One value, after any white space, and the text behind it. -/
def parseValue : ℕ → List Char → Option (Json × List Char)
  | 0, _ => none
  | fuel + 1, text =>
    match skipSpace text with
    | [] => none
    | c :: rest =>
      if c = '{' then
        match skipSpace rest with
        | '}' :: rest' => some (.obj .nil, rest')
        | _ => (parseFields fuel rest).map (fun p => (.obj p.1, p.2))
      else if c = '[' then
        match skipSpace rest with
        | ']' :: rest' => some (.arr .nil, rest')
        | _ => (parseItems fuel rest).map (fun p => (.arr p.1, p.2))
      else if c = '"' then (scanString rest).map (fun p => (.str p.1, p.2))
      else if c = 'n' then (scanLiteral ['u', 'l', 'l'] rest).map (fun r => (.null, r))
      else if c = 't' then (scanLiteral ['r', 'u', 'e'] rest).map (fun r => (.bool true, r))
      else if c = 'f' then
        (scanLiteral ['a', 'l', 's', 'e'] rest).map (fun r => (.bool false, r))
      else (scanNumber (c :: rest)).map (fun p => (.num p.1, p.2))
/-- One item or more, up to the closing bracket. -/
def parseItems : ℕ → List Char → Option (Items × List Char)
  | 0, _ => none
  | fuel + 1, text => do
    let (item, rest) ← parseValue fuel text
    match skipSpace rest with
    | ']' :: rest' => some (.cons item .nil, rest')
    | ',' :: rest' => do
      let (items, rest'') ← parseItems fuel rest'
      some (.cons item items, rest'')
    | _ => none
/-- One member or more, up to the closing brace. -/
def parseFields : ℕ → List Char → Option (Fields × List Char)
  | 0, _ => none
  | fuel + 1, text =>
    match skipSpace text with
    | '"' :: rest => do
      let (key, rest) ← scanString rest
      match skipSpace rest with
      | ':' :: rest => do
        let (value, rest) ← parseValue fuel rest
        match skipSpace rest with
        | '}' :: rest' => some (.cons key value .nil, rest')
        | ',' :: rest' => do
          let (fields, rest'') ← parseFields fuel rest'
          some (.cons key value fields, rest'')
        | _ => none
      | _ => none
    | _ => none
end

/-- A text that is one value, with white space around it. -/
def parse (text : List Char) : Option Json := do
  let (value, rest) ← parseValue (text.length + 1) text
  if skipSpace rest = [] then some value else none

/-! ## Strings and their tokens -/

def hexDigit (n : ℕ) : Char := if n < 10 then Char.ofNat (48 + n) else Char.ofNat (87 + n)

/-- `\u` and four hexadecimal digits. -/
def unicodeEscape (n : ℕ) : List Char :=
  ['\\', 'u', hexDigit (n / 4096 % 16), hexDigit (n / 256 % 16), hexDigit (n / 16 % 16),
    hexDigit (n % 16)]

/-- One character as the Go encoder writes it. -/
def escapeChar (c : Char) : List Char :=
  if c = '"' then ['\\', '"']
  else if c = '\\' then ['\\', '\\']
  else if c = '\x08' then ['\\', 'b']
  else if c = '\x0c' then ['\\', 'f']
  else if c = '\n' then ['\\', 'n']
  else if c = '\r' then ['\\', 'r']
  else if c = '\t' then ['\\', 't']
  else if c.toNat < 32 ∨ c = '<' ∨ c = '>' ∨ c = '&' ∨ c.toNat = 0x2028 ∨ c.toNat = 0x2029 then
    unicodeEscape c.toNat
  else [c]

def escape (s : List Char) : List Char := s.flatMap escapeChar

/-- The value of four hexadecimal digits. -/
def hex4 (h1 h2 h3 h4 : Char) : Option ℕ := do
  let a ← hexValue h1
  let b ← hexValue h2
  let c ← hexValue h3
  let d ← hexValue h4
  some (a * 4096 + b * 256 + c * 16 + d)

/-- `\u` with four digits at the head of the text. -/
def hexEscape? : List Char → Option ℕ
  | '\\' :: 'u' :: h1 :: h2 :: h3 :: h4 :: _ => hex4 h1 h2 h3 h4
  | _ => none

/-- The string a token denotes.  A surrogate half that is not followed by its other
half becomes U+FFFD. -/
def unquote : List Char → Option (List Char)
  | [] => some []
  | '\\' :: 'u' :: h1 :: h2 :: h3 :: h4 :: rest =>
    match hex4 h1 h2 h3 h4 with
    | none => none
    | some n =>
      if 0xD800 ≤ n ∧ n < 0xDC00 then
        match hexEscape? rest with
        | some low =>
          if 0xDC00 ≤ low ∧ low < 0xE000 then
            -- the second half is read with the first one and skipped here
            (unquote rest).map (fun s =>
              Char.ofNat (0x10000 + (n - 0xD800) * 0x400 + (low - 0xDC00)) :: s.drop 1)
          else (unquote rest).map (Char.ofNat 0xFFFD :: ·)
        | none => (unquote rest).map (Char.ofNat 0xFFFD :: ·)
      else if 0xDC00 ≤ n ∧ n < 0xE000 then (unquote rest).map (Char.ofNat 0xFFFD :: ·)
      else (unquote rest).map (Char.ofNat n :: ·)
  | '\\' :: e :: rest =>
    match simpleEscape e with
    | some c => (unquote rest).map (c :: ·)
    | none => none
  | c :: rest =>
    if c = '"' ∨ c = '\\' ∨ c.toNat < 32 then none else (unquote rest).map (c :: ·)

/-! ## Tokens read back -/

theorem hexValue_hexDigit : ∀ n < 16, hexValue (hexDigit n) = some n := by decide

/-- The raw text of a string token: scanning stops at the quote put behind it. -/
def ValidToken (raw : List Char) : Prop :=
  ∀ rest, scanString (raw ++ '"' :: rest) = some (raw, rest)

theorem scanString_quote (rest : List Char) : scanString ('"' :: rest) = some ([], rest) := by
  rw [scanString]

/-- A character that stands for itself inside a token. -/
theorem scanString_plain {c : Char} (hq : c ≠ '"') (hb : c ≠ '\\') (hc : ¬ c.toNat < 32)
    (rest : List Char) :
    scanString (c :: rest) = (scanString rest).map (fun p => (c :: p.1, p.2)) := by
  rw [scanString.eq_5 c rest hq (fun _ _ _ _ _ h _ => hb h) (fun _ _ h _ => hb h),
    if_neg (by simp only [hb, hc, or_self, not_false_eq_true])]

theorem scanString_unicodeEscape (n : ℕ) (rest : List Char) :
    scanString (unicodeEscape n ++ rest)
      = (scanString rest).map (fun p => (unicodeEscape n ++ p.1, p.2)) := by
  have hhex : ∀ k, (hexValue (hexDigit (k % 16))).isSome = true := by
    intro k
    rw [hexValue_hexDigit _ (Nat.mod_lt _ (by decide))]
    rfl
  unfold unicodeEscape
  simp only [List.cons_append, List.nil_append]
  rw [scanString, if_pos ⟨hhex _, hhex _, hhex _, hhex _⟩]

/-- The three forms a character is written in. -/
inductive Escaped (c : Char) : List Char → Prop where
  /-- A backslash and a letter. -/
  | short {e : Char} (hu : e ≠ 'u') (hsimple : simpleEscape e = some c) : Escaped c ['\\', e]
  | unicode (hlow : c.toNat < 0xD800) : Escaped c (unicodeEscape c.toNat)
  | plain (hquote : c ≠ '"') (hslash : c ≠ '\\') (hlow : ¬ c.toNat < 32) : Escaped c [c]

theorem Escaped.of_eq {c d e : Char} (h : c = d) (hu : e ≠ 'u')
    (hsimple : simpleEscape e = some d) : Escaped c ['\\', e] :=
  .short hu (h ▸ hsimple)

theorem escaped_escapeChar (c : Char) : Escaped c (escapeChar c) := by
  refine iteInduction (fun h => .of_eq h (by decide) (by decide)) fun h1 => ?_
  refine iteInduction (fun h => .of_eq h (by decide) (by decide)) fun h2 => ?_
  refine iteInduction (fun h => .of_eq h (by decide) (by decide)) fun _ => ?_
  refine iteInduction (fun h => .of_eq h (by decide) (by decide)) fun _ => ?_
  refine iteInduction (fun h => .of_eq h (by decide) (by decide)) fun _ => ?_
  refine iteInduction (fun h => .of_eq h (by decide) (by decide)) fun _ => ?_
  refine iteInduction (fun h => .of_eq h (by decide) (by decide)) fun _ => ?_
  refine iteInduction (fun h => .unicode ?_) fun h => .plain h1 h2 (not_or.mp h).1
  rcases h with h | rfl | rfl | rfl | h | h
  · omega
  · decide
  · decide
  · decide
  · omega
  · omega

theorem scanString_escapeChar (c : Char) (rest : List Char) :
    scanString (escapeChar c ++ rest)
      = (scanString rest).map (fun p => (escapeChar c ++ p.1, p.2)) := by
  have hescaped := escaped_escapeChar c
  generalize escapeChar c = token at hescaped ⊢
  cases hescaped with
  | @short e hu hsimple =>
    have hsome : (simpleEscape e).isSome = true := by rw [hsimple, Option.isSome_some]
    rw [List.cons_append, List.cons_append, List.nil_append,
      scanString.eq_4 e rest (fun _ _ _ _ _ h _ => hu h), if_pos hsome]
    rfl
  | unicode _ => exact scanString_unicodeEscape c.toNat rest
  | plain hquote hslash hlow => exact scanString_plain hquote hslash hlow rest

theorem validToken_escape (s : List Char) : ValidToken (escape s) := by
  intro rest
  induction s with
  | nil => exact scanString_quote rest
  | cons c s ih =>
    rw [escape, List.flatMap_cons, List.append_assoc, scanString_escapeChar]
    rw [escape] at ih
    rw [ih]
    rfl

/-- Tokens of characters that stand for themselves. -/
theorem validToken_of_plain {raw : List Char}
    (h : ∀ c ∈ raw, c ≠ '"' ∧ c ≠ '\\' ∧ ¬ c.toNat < 32) : ValidToken raw := by
  intro rest
  induction raw with
  | nil => exact scanString_quote rest
  | cons c raw ih =>
    obtain ⟨hq, hb, hc⟩ := h c List.mem_cons_self
    rw [List.cons_append, scanString_plain hq hb hc,
      ih (fun d hd => h d (List.mem_cons_of_mem _ hd))]
    rfl

theorem unquote_plain {c : Char} (hq : c ≠ '"') (hb : c ≠ '\\') (hc : ¬ c.toNat < 32)
    (rest : List Char) : unquote (c :: rest) = (unquote rest).map (c :: ·) := by
  rw [unquote.eq_4 c rest (fun _ _ _ _ _ h _ => hb h) (fun _ _ h _ => hb h),
    if_neg (by simp only [hq, hb, hc, or_self, not_false_eq_true])]

theorem unquote_unicodeEscape {c : Char} (hc : c.toNat < 0xD800) (rest : List Char) :
    unquote (unicodeEscape c.toNat ++ rest) = (unquote rest).map (c :: ·) := by
  have hhex : hex4 (hexDigit (c.toNat / 4096 % 16)) (hexDigit (c.toNat / 256 % 16))
      (hexDigit (c.toNat / 16 % 16)) (hexDigit (c.toNat % 16)) = some c.toNat := by
    have hlt : ∀ k, k % 16 < 16 := fun k => Nat.mod_lt k (by decide)
    simp only [hex4, hexValue_hexDigit _ (hlt _), Option.bind_eq_bind, Option.bind_some,
      Option.some.injEq]
    omega
  unfold unicodeEscape
  simp only [List.cons_append, List.nil_append]
  rw [unquote, hhex]
  dsimp only
  rw [if_neg (by omega), if_neg (by omega), Char.ofNat_toNat]

theorem unquote_escapeChar (c : Char) (rest : List Char) :
    unquote (escapeChar c ++ rest) = (unquote rest).map (c :: ·) := by
  have hescaped := escaped_escapeChar c
  generalize escapeChar c = token at hescaped ⊢
  cases hescaped with
  | @short e hu hsimple =>
    rw [List.cons_append, List.cons_append, List.nil_append,
      unquote.eq_3 e rest (fun _ _ _ _ _ h _ => hu h), hsimple]
  | unicode hlow => exact unquote_unicodeEscape hlow rest
  | plain hquote hslash hlow => exact unquote_plain hquote hslash hlow rest

/-- A string is recovered from its token. -/
theorem unquote_escape (s : List Char) : unquote (escape s) = some s := by
  induction s with
  | nil => rfl
  | cons c s ih =>
    rw [escape, List.flatMap_cons, unquote_escapeChar]
    rw [escape] at ih
    rw [ih]
    rfl

/-! ## Numbers read back -/

/-- The raw text of a number token. -/
structure ValidNumber (raw : List Char) : Prop where
  chars : ∀ c ∈ raw, isNumberChar c = true
  grammar : isNumber raw = true

/-- A text that does not go on with a number. -/
def NumberEnds (rest : List Char) : Prop := rest.takeWhile isNumberChar = []

theorem numberEnds_cons {c : Char} (h : isNumberChar c = false) (rest : List Char) :
    NumberEnds (c :: rest) := by
  rw [NumberEnds, List.takeWhile_cons, if_neg (by simp [h])]

theorem scanNumber_append {raw rest : List Char} (h : ValidNumber raw) (hr : NumberEnds rest) :
    scanNumber (raw ++ rest) = some (raw, rest) := by
  have htake : (raw ++ rest).takeWhile isNumberChar = raw := by
    rw [List.takeWhile_append_of_pos h.chars, hr, List.append_nil]
  have hdrop : (raw ++ rest).dropWhile isNumberChar = rest := by
    have hsplit := List.takeWhile_append_dropWhile (p := isNumberChar) (l := raw ++ rest)
    rw [htake] at hsplit
    exact List.append_cancel_left hsplit
  unfold scanNumber
  rw [htake, hdrop, if_pos h.grammar]

theorem head_toDigits_ne_zero {n : ℕ} (hn : 0 < n) {c : Char} {rest : List Char}
    (h : Nat.toDigits 10 n = c :: rest) : c ≠ '0' := by
  induction n using Nat.strong_induction_on generalizing c rest with
  | _ n ih =>
    by_cases hlt : n < 10
    · rw [Nat.toDigits_of_lt_base hlt] at h
      have hc : n.digitChar = c := (List.cons.inj h).1
      rw [← hc]
      interval_cases n <;> decide
    · rw [Nat.toDigits_of_base_le (by decide) (by omega)] at h
      obtain ⟨d, ds, hds⟩ :=
        List.exists_cons_of_ne_nil (Nat.toDigits_ne_nil (n := n / 10) (b := 10))
      rw [hds, List.cons_append] at h
      rw [← (List.cons.inj h).1]
      exact ih (n / 10) (by omega) (by omega) hds

/-- A natural number in decimal is a number token. -/
theorem validNumber_toDigits (n : ℕ) : ValidNumber (Nat.toDigits 10 n) := by
  have hdigit : ∀ c ∈ Nat.toDigits 10 n, c.isDigit = true :=
    fun c hc => Nat.isDigit_of_mem_toDigits (by decide) (by decide) hc
  constructor
  · intro c hc
    simp [isNumberChar, hdigit c hc]
  · by_cases hn : n = 0
    · subst hn
      decide
    · obtain ⟨c, rest, hcons⟩ := List.exists_cons_of_ne_nil (Nat.toDigits_ne_nil (n := n) (b := 10))
      have hc : c.isDigit = true := hdigit c (by rw [hcons]; exact List.mem_cons_self)
      have hzero : c ≠ '0' := head_toDigits_ne_zero (Nat.pos_of_ne_zero hn) hcons
      have hminus : c ≠ '-' := by
        rintro rfl
        simp [Char.isDigit] at hc
      have hdrop : rest.dropWhile Char.isDigit = [] := by
        rw [List.dropWhile_eq_nil_iff]
        intro d hd
        exact hdigit d (by rw [hcons]; exact List.mem_cons_of_mem _ hd)
      rw [hcons]
      unfold isNumber
      simp [hminus, hzero, hc, hdrop, isFraction, isExponent]

/-- So is the opposite of one that is not zero. -/
theorem validNumber_neg_toDigits {n : ℕ} (hn : 0 < n) : ValidNumber ('-' :: Nat.toDigits 10 n) := by
  have hvalid := validNumber_toDigits n
  obtain ⟨c, rest, hcons⟩ := List.exists_cons_of_ne_nil (Nat.toDigits_ne_nil (n := n) (b := 10))
  constructor
  · intro d hd
    rcases List.mem_cons.mp hd with rfl | hd
    · decide
    · exact hvalid.chars d hd
  · have hminus : c ≠ '-' := by
      rintro rfl
      have hdigit : ('-').isDigit = true :=
        Nat.isDigit_of_mem_toDigits (b := 10) (n := n) (by decide) (by decide)
          (by rw [hcons]; exact List.mem_cons_self)
      exact absurd hdigit (by decide)
    have hgrammar := hvalid.grammar
    rw [hcons] at hgrammar ⊢
    unfold isNumber at hgrammar ⊢
    simpa [hminus] using hgrammar

theorem ValidNumber.ne_nil {raw : List Char} (h : ValidNumber raw) : raw ≠ [] := by
  rintro rfl
  exact absurd h.grammar (by decide)

/-- A number token opens with a character that opens nothing else. -/
theorem ValidNumber.head {c : Char} {raw : List Char} (h : ValidNumber (c :: raw)) :
    isSpace c = false ∧ c ≠ '{' ∧ c ≠ '[' ∧ c ≠ '"' ∧ c ≠ 'n' ∧ c ≠ 't' ∧ c ≠ 'f' := by
  have hc := h.chars c List.mem_cons_self
  refine ⟨?_, ?_, ?_, ?_, ?_, ?_, ?_⟩
  · by_contra hspace
    rw [Bool.not_eq_false] at hspace
    simp only [isSpace, Bool.or_eq_true, beq_iff_eq] at hspace
    rcases hspace with ((rfl | rfl) | rfl) | rfl <;> exact absurd hc (by decide)
  all_goals
    rintro rfl
    exact absurd hc (by decide)

/-! ## Values read back -/

mutual
/-- Every token of the value is one a scanner reads back. -/
def Json.Valid : Json → Prop
  | .num raw => ValidNumber raw
  | .str raw => ValidToken raw
  | .arr items => items.Valid
  | .obj fields => fields.Valid
  | _ => True
def Items.Valid : Items → Prop
  | .nil => True
  | .cons item rest => item.Valid ∧ rest.Valid
def Fields.Valid : Fields → Prop
  | .nil => True
  | .cons key value rest => ValidToken key ∧ value.Valid ∧ rest.Valid
end

theorem Items.print_cons (item : Json) {rest : Items} (h : rest ≠ .nil) :
    (Items.cons item rest).print = item.print ++ ',' :: rest.print := by
  cases rest with
  | nil => exact absurd rfl h
  | cons _ _ => simp [Items.print]

theorem Fields.print_cons (key : List Char) (value : Json) {rest : Fields} (h : rest ≠ .nil) :
    (Fields.cons key value rest).print
      = quoted key ++ ':' :: (value.print ++ ',' :: rest.print) := by
  cases rest with
  | nil => exact absurd rfl h
  | cons _ _ _ => simp [Fields.print]

theorem skipSpace_cons {c : Char} (h : isSpace c = false) (rest : List Char) :
    skipSpace (c :: rest) = c :: rest := by
  rw [skipSpace, List.dropWhile_cons, if_neg (by simp [h])]

theorem skipSpace_append {spaces : List Char} (h : ∀ c ∈ spaces, isSpace c = true)
    (rest : List Char) : skipSpace (spaces ++ rest) = skipSpace rest := by
  rw [skipSpace, List.dropWhile_append_of_pos h]

/-- Leading white space is skipped. -/
theorem parseValue_spaces {spaces : List Char} (h : ∀ c ∈ spaces, isSpace c = true) (fuel : ℕ)
    (rest : List Char) : parseValue fuel (spaces ++ rest) = parseValue fuel rest := by
  cases fuel with
  | zero => rfl
  | succ fuel => rw [parseValue, parseValue, skipSpace_append h]

/-- A printed value opens with a character that is neither space nor a closing one. -/
theorem Json.print_head {v : Json} (h : v.Valid) :
    ∃ c rest, v.print = c :: rest ∧ isSpace c = false ∧ c ≠ ']' ∧ c ≠ '}' := by
  cases v with
  | null => exact ⟨'n', _, rfl, by decide, by decide, by decide⟩
  | bool b =>
    cases b with
    | true => exact ⟨'t', _, rfl, by decide, by decide, by decide⟩
    | false => exact ⟨'f', _, rfl, by decide, by decide, by decide⟩
  | num raw =>
    obtain ⟨c, rest, rfl⟩ := List.exists_cons_of_ne_nil h.ne_nil
    have hc := h.chars c List.mem_cons_self
    refine ⟨c, rest, rfl, h.head.1, ?_, ?_⟩
    · rintro rfl
      exact absurd hc (by decide)
    · rintro rfl
      exact absurd hc (by decide)
  | str raw => exact ⟨'"', _, rfl, by decide, by decide, by decide⟩
  | arr items => exact ⟨'[', _, rfl, by decide, by decide, by decide⟩
  | obj fields => exact ⟨'{', _, rfl, by decide, by decide, by decide⟩

theorem Items.print_head {items : Items} (hne : items ≠ .nil) (h : items.Valid) :
    ∃ c rest, items.print = c :: rest ∧ isSpace c = false ∧ c ≠ ']' := by
  cases items with
  | nil => exact absurd rfl hne
  | cons item rest =>
    obtain ⟨c, tail, hprint, hspace, hclose, -⟩ := Json.print_head h.1
    by_cases hrest : rest = .nil
    · subst hrest
      exact ⟨c, tail, by rw [Items.print, hprint], hspace, hclose⟩
    · exact ⟨c, _, by rw [Items.print_cons item hrest, hprint]; rfl, hspace, hclose⟩

theorem Fields.print_head {fields : Fields} (hne : fields ≠ .nil) :
    ∃ rest, fields.print = '"' :: rest := by
  cases fields with
  | nil => exact absurd rfl hne
  | cons key value rest =>
    by_cases hrest : rest = .nil
    · subst hrest
      exact ⟨_, by rw [Fields.print]; rfl⟩
    · exact ⟨_, by rw [Fields.print_cons key value hrest]; rfl⟩

/-- The literals, strings and numbers. -/
theorem parseValue_scalar {v : Json} (h : v.Valid) (harr : ∀ items, v ≠ .arr items)
    (hobj : ∀ fields, v ≠ .obj fields) (fuel : ℕ) {rest : List Char} (hr : NumberEnds rest) :
    parseValue (fuel + 1) (v.print ++ rest) = some (v, rest) := by
  cases v with
  | null =>
    rw [parseValue, Json.print, List.cons_append, skipSpace_cons (by decide)]
    simp [scanLiteral]
  | bool b =>
    cases b with
    | true =>
      rw [parseValue, Json.print, List.cons_append, skipSpace_cons (by decide)]
      simp [scanLiteral]
    | false =>
      rw [parseValue, Json.print, List.cons_append, skipSpace_cons (by decide)]
      simp [scanLiteral]
  | num raw =>
    obtain ⟨c, tail, rfl⟩ := List.exists_cons_of_ne_nil h.ne_nil
    obtain ⟨hspace, h1, h2, h3, h4, h5, h6⟩ := h.head
    have hscan := scanNumber_append h hr
    rw [List.cons_append] at hscan
    rw [parseValue, Json.print, List.cons_append, skipSpace_cons hspace]
    simp [h1, h2, h3, h4, h5, h6, hscan]
  | str raw =>
    have hscan := h rest
    rw [parseValue, Json.print, quoted, List.cons_append, skipSpace_cons (by decide)]
    simp [hscan]
  | arr items => exact absurd rfl (harr items)
  | obj fields => exact absurd rfl (hobj fields)

mutual
/-- **The parser reads a printed value and stops after it.** -/
theorem parseValue_print : ∀ (v : Json), v.Valid → ∀ (fuel : ℕ) (rest : List Char),
    v.print.length ≤ fuel → NumberEnds rest →
    parseValue fuel (v.print ++ rest) = some (v, rest)
  | v, hvalid, 0, rest, hfuel, _ => by
    obtain ⟨c, tail, hprint, -, -, -⟩ := Json.print_head hvalid
    rw [hprint] at hfuel
    simp at hfuel
  | .null, hvalid, fuel + 1, rest, _, hr =>
    parseValue_scalar hvalid (by simp) (by simp) fuel hr
  | .bool b, hvalid, fuel + 1, rest, _, hr =>
    parseValue_scalar hvalid (by simp) (by simp) fuel hr
  | .num raw, hvalid, fuel + 1, rest, _, hr =>
    parseValue_scalar hvalid (by simp) (by simp) fuel hr
  | .str raw, hvalid, fuel + 1, rest, _, hr =>
    parseValue_scalar hvalid (by simp) (by simp) fuel hr
  | .arr items, hvalid, fuel + 1, rest, hfuel, _ => by
    rw [Json.Valid] at hvalid
    rw [Json.print, List.length_cons, List.length_append, List.length_singleton] at hfuel
    by_cases hnil : items = .nil
    · subst hnil
      rw [parseValue, Json.print, Items.print, List.cons_append, skipSpace_cons (by decide)]
      simp [skipSpace_cons (show isSpace ']' = false by decide)]
    · have hitems := parseItems_print items hvalid hnil fuel rest (by omega)
      obtain ⟨c, tail, hprint, hspace, hclose⟩ := Items.print_head hnil hvalid
      rw [hprint] at hitems
      rw [parseValue, Json.print, hprint, List.cons_append, skipSpace_cons (by decide)]
      dsimp only
      rw [if_neg (by decide), if_pos rfl, List.append_assoc, List.cons_append,
        skipSpace_cons hspace]
      rw [List.cons_append] at hitems
      simp only [List.singleton_append]
      rw [hitems]
      split
      · rename_i heq
        exact absurd (List.cons.inj heq).1 hclose
      · rfl
  | .obj fields, hvalid, fuel + 1, rest, hfuel, _ => by
    rw [Json.Valid] at hvalid
    rw [Json.print, List.length_cons, List.length_append, List.length_singleton] at hfuel
    by_cases hnil : fields = .nil
    · subst hnil
      rw [parseValue, Json.print, Fields.print, List.cons_append, skipSpace_cons (by decide)]
      simp [skipSpace_cons (show isSpace '}' = false by decide)]
    · have hfields := parseFields_print fields hvalid hnil fuel rest (by omega)
      obtain ⟨tail, hprint⟩ := Fields.print_head hnil
      rw [hprint] at hfields
      rw [parseValue, Json.print, hprint, List.cons_append, skipSpace_cons (by decide)]
      dsimp only
      rw [if_pos rfl, List.append_assoc, List.cons_append, skipSpace_cons (by decide)]
      rw [List.cons_append] at hfields
      simp only [List.singleton_append]
      rw [hfields]
      rfl
theorem parseItems_print : ∀ (items : Items), items.Valid → items ≠ .nil →
    ∀ (fuel : ℕ) (rest : List Char), items.print.length + 1 ≤ fuel →
    parseItems fuel (items.print ++ ']' :: rest) = some (items, rest)
  | .nil, _, hne, _, _, _ => absurd rfl hne
  | .cons item tail, hvalid, _, 0, rest, hfuel => by simp at hfuel
  | .cons item tail, hvalid, _, fuel + 1, rest, hfuel => by
    rw [Items.Valid] at hvalid
    by_cases htail : tail = .nil
    · subst htail
      rw [Items.print] at hfuel ⊢
      have hitem := parseValue_print item hvalid.1 fuel (']' :: rest) (by omega)
        (numberEnds_cons (by decide) _)
      rw [parseItems, hitem]
      simp [skipSpace_cons (show isSpace ']' = false by decide)]
    · rw [Items.print_cons item htail] at hfuel ⊢
      rw [List.length_append, List.length_cons] at hfuel
      have hitem := parseValue_print item hvalid.1 fuel (',' :: (tail.print ++ ']' :: rest))
        (by omega) (numberEnds_cons (by decide) _)
      have hrest := parseItems_print tail hvalid.2 htail fuel rest (by omega)
      rw [List.append_assoc, List.cons_append, parseItems, hitem]
      simp [skipSpace_cons (show isSpace ',' = false by decide), hrest]
theorem parseFields_print : ∀ (fields : Fields), fields.Valid → fields ≠ .nil →
    ∀ (fuel : ℕ) (rest : List Char), fields.print.length + 1 ≤ fuel →
    parseFields fuel (fields.print ++ '}' :: rest) = some (fields, rest)
  | .nil, _, hne, _, _, _ => absurd rfl hne
  | .cons key value tail, hvalid, _, 0, rest, hfuel => by simp at hfuel
  | .cons key value tail, hvalid, _, fuel + 1, rest, hfuel => by
    rw [Fields.Valid] at hvalid
    obtain ⟨hkey, hvalue, hvtail⟩ := hvalid
    by_cases htail : tail = .nil
    · subst htail
      rw [Fields.print, quoted, List.length_append, List.length_cons] at hfuel
      have hval := parseValue_print value hvalue fuel ('}' :: rest)
        (by simp only [List.length_cons] at hfuel; omega) (numberEnds_cons (by decide) _)
      have hscan := hkey (':' :: (value.print ++ '}' :: rest))
      rw [Fields.print, quoted, parseFields]
      simp only [List.cons_append, List.append_assoc, List.nil_append]
      rw [skipSpace_cons (by decide)]
      simp [hscan, skipSpace_cons (show isSpace ':' = false by decide),
        skipSpace_cons (show isSpace '}' = false by decide), hval]
    · rw [Fields.print_cons key value htail, quoted] at hfuel ⊢
      simp only [List.length_append, List.length_cons] at hfuel
      have hval := parseValue_print value hvalue fuel (',' :: (tail.print ++ '}' :: rest))
        (by omega) (numberEnds_cons (by decide) _)
      have hrest := parseFields_print tail hvtail htail fuel rest (by omega)
      have hscan := hkey (':' :: (value.print ++ ',' :: (tail.print ++ '}' :: rest)))
      rw [parseFields]
      simp only [List.cons_append, List.append_assoc, List.nil_append]
      rw [skipSpace_cons (by decide)]
      simp [hscan, skipSpace_cons (show isSpace ':' = false by decide),
        skipSpace_cons (show isSpace ',' = false by decide), hval, hrest]
end

/-- The whole text of a value parses to it. -/
theorem parse_print {v : Json} (h : v.Valid) : parse v.print = some v := by
  have hvalue := parseValue_print v h (v.print.length + 1) [] (by omega) rfl
  rw [List.append_nil] at hvalue
  rw [parse, hvalue]
  rfl

theorem print_injective {v w : Json} (hv : v.Valid) (hw : w.Valid) (h : v.print = w.print) :
    v = w := by
  have hparse := parse_print hv
  rw [h, parse_print hw] at hparse
  exact (Option.some.inj hparse).symm

end JsonText

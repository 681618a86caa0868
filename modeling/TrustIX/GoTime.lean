/-
# Times and their RFC 3339 text

A `time.Time` of the Go library, as its civil fields in its zone and the zone's
offset from UTC in seconds, which need not be a whole number of minutes.  The text
form has minutes only: `format` truncates the offset, as the library does, and writes
`Z` for offset 0 alone.

* `parse_marshal` : the text of a time reads back as the time with the truncated
  offset, for every time that has a JSON form;
* `truncate_eq_self` : which is the same time when the offset is of whole minutes.

`parse` takes what `time.Parse` takes with the layouts `RFC3339` and `RFC3339Nano`:
also one-digit hours, a comma before the fraction, and offsets up to 24 hours and
60 minutes.
-/
import TrustIX.Fallible

namespace GoTime

/-! ## Dates and times -/

def isLeap (year : ℤ) : Bool := year % 4 == 0 && (year % 100 != 0 || year % 400 == 0)

def daysIn (month : ℕ) (year : ℤ) : ℕ :=
  if month = 2 then (if isLeap year then 29 else 28)
  else if month = 4 ∨ month = 6 ∨ month = 9 ∨ month = 11 then 30
  else 31

theorem daysIn_pos (month : ℕ) (year : ℤ) : 28 ≤ daysIn month year := by
  unfold daysIn
  split_ifs <;> omega

/-- A day of the Gregorian calendar. -/
@[ext] structure Date where
  year : ℤ
  month : ℕ
  day : ℕ
  month_range : 1 ≤ month ∧ month ≤ 12
  day_range : 1 ≤ day ∧ day ≤ daysIn month year
  deriving DecidableEq

/-- The day after. -/
def Date.next (date : Date) : Date :=
  if hday : date.day < daysIn date.month date.year then
    { date with
      day := date.day + 1
      day_range := ⟨by omega, hday⟩ }
  else if hmonth : date.month < 12 then
    { date with
      month := date.month + 1
      day := 1
      month_range := ⟨by omega, hmonth⟩
      day_range := ⟨le_rfl, le_trans (by decide) (daysIn_pos _ _)⟩ }
  else
    { year := date.year + 1
      month := 1
      day := 1
      month_range := by decide
      day_range := ⟨le_rfl, le_trans (by decide) (daysIn_pos _ _)⟩ }

/-- The day before. -/
def Date.prev (date : Date) : Date :=
  if hday : 1 < date.day then
    { date with
      day := date.day - 1
      day_range := ⟨by omega, by have := date.day_range.2; omega⟩ }
  else if hmonth : 1 < date.month then
    { date with
      month := date.month - 1
      day := daysIn (date.month - 1) date.year
      month_range := ⟨by omega, by have := date.month_range.2; omega⟩
      day_range := ⟨le_trans (by decide) (daysIn_pos _ _), le_rfl⟩ }
  else
    { year := date.year - 1
      month := 12
      day := daysIn 12 (date.year - 1)
      month_range := by decide
      day_range := ⟨le_trans (by decide) (daysIn_pos _ _), le_rfl⟩ }

def Date.addDays (date : Date) : ℤ → Date
  | .ofNat n => Date.next^[n] date
  | .negSucc n => Date.prev^[n + 1] date

/-- A time in a zone `offset` seconds east of UTC. -/
@[ext] structure Time where
  date : Date
  hour : ℕ
  minute : ℕ
  second : ℕ
  nano : ℕ
  offset : ℤ
  hour_lt : hour < 24
  minute_lt : minute < 60
  second_lt : second < 60
  nano_lt : nano < 1000000000
  deriving DecidableEq

theorem may_range : 1 ≤ 5 ∧ 5 ≤ 12 := by decide
theorem noon_lt : 12 < 24 := by decide
theorem zero_lt_minute : 0 < 60 := by decide
theorem zero_lt_second : 0 < 1000000000 := by decide

/-- The same instant in UTC. -/
def Time.utc (t : Time) : Time :=
  let total : ℤ := (t.hour * 3600 + t.minute * 60 + t.second : ℕ) - t.offset
  let seconds := (total % 86400).toNat
  { date := t.date.addDays (total / 86400)
    hour := seconds / 3600 % 24
    minute := seconds / 60 % 60
    second := seconds % 60
    nano := t.nano
    offset := 0
    hour_lt := Nat.mod_lt _ (by decide)
    minute_lt := Nat.mod_lt _ (by decide)
    second_lt := Nat.mod_lt _ (by decide)
    nano_lt := t.nano_lt }

/-- The instant, as a list of numbers in the order of time. -/
def Time.instant (t : Time) : List ℤ :=
  let u := t.utc
  [u.date.year, u.date.month, u.date.day, u.hour, u.minute, u.second, u.nano]

/-- January 1 of year 1, 00:00 UTC, the zero time of the library. -/
def Time.isZero (t : Time) : Bool := t.instant == [1, 1, 1, 0, 0, 0, 0]

def Time.before (t u : Time) : Bool := decide (t.instant < u.instant)

def Time.after (t u : Time) : Bool := u.before t

def Time.equal (t u : Time) : Bool := t.instant == u.instant

/-- `time.Unix(0, 0).UTC()`. -/
def unixEpoch : Time where
  date := ⟨1970, 1, 1, by decide, by decide⟩
  hour := 0
  minute := 0
  second := 0
  nano := 0
  offset := 0
  hour_lt := by decide
  minute_lt := by decide
  second_lt := by decide
  nano_lt := by decide

/-- The zero value of a Go `time.Time`. -/
def zeroTime : Time where
  date := ⟨1, 1, 1, by decide, by decide⟩
  hour := 0
  minute := 0
  second := 0
  nano := 0
  offset := 0
  hour_lt := by decide
  minute_lt := by decide
  second_lt := by decide
  nano_lt := by decide

/-! ## Formatting -/

def pad2 (n : ℕ) : List Char :=
  if n < 100 then [Nat.digitChar (n / 10), Nat.digitChar (n % 10)] else Nat.toDigits 10 n

def pad4 (n : ℕ) : List Char :=
  if n < 10000 then
    [Nat.digitChar (n / 1000), Nat.digitChar (n / 100 % 10), Nat.digitChar (n / 10 % 10),
      Nat.digitChar (n % 10)]
  else Nat.toDigits 10 n

def formatYear (year : ℤ) : List Char :=
  if year < 0 then '-' :: pad4 year.natAbs else pad4 year.natAbs

def nanoDigits (nano : ℕ) : List Char :=
  [Nat.digitChar (nano / 100000000 % 10), Nat.digitChar (nano / 10000000 % 10),
    Nat.digitChar (nano / 1000000 % 10), Nat.digitChar (nano / 100000 % 10),
    Nat.digitChar (nano / 10000 % 10), Nat.digitChar (nano / 1000 % 10),
    Nat.digitChar (nano / 100 % 10), Nat.digitChar (nano / 10 % 10), Nat.digitChar (nano % 10)]

/-- The fraction `.999999999`: without trailing zeros, and empty for 0. -/
def formatFraction (nano : ℕ) : List Char :=
  match (nanoDigits nano).rdropWhile (· == '0') with
  | [] => []
  | digits => '.' :: digits

/-- The zone `Z07:00`.  Seconds of the offset are cut off. -/
def formatZone (offset : ℤ) : List Char :=
  if offset = 0 then ['Z']
  else
    let zone := offset.tdiv 60
    (if zone < 0 then '-' else '+') :: (pad2 (zone.natAbs / 60) ++ ':' :: pad2 (zone.natAbs % 60))

/-- `t.Format(time.RFC3339Nano)`. -/
def Time.format (t : Time) : List Char :=
  formatYear t.date.year ++ '-' :: (pad2 t.date.month ++ '-' :: (pad2 t.date.day ++ 'T' ::
    (pad2 t.hour ++ ':' :: (pad2 t.minute ++ ':' :: (pad2 t.second ++
      (formatFraction t.nano ++ formatZone t.offset))))))

/-- The text inside the quotes of `t.MarshalJSON()`. -/
def Time.marshal (t : Time) : Except String (List Char) :=
  if t.date.year < 0 ∨ 9999 < t.date.year then
    .error "Time.MarshalJSON: year outside of range [0,9999]"
  else if 24 ≤ (t.offset.tdiv 60).natAbs / 60 then
    .error "Time.MarshalJSON: timezone hour outside of range [0,23]"
  else .ok t.format

/-! ## Parsing -/

def digitValue (c : Char) : ℕ := c.toNat - '0'.toNat

def scanTwo : List Char → Option (ℕ × List Char)
  | a :: b :: rest =>
    if a.isDigit ∧ b.isDigit then some (digitValue a * 10 + digitValue b, rest) else none
  | _ => none

/-- One digit or two. -/
def scanOneOrTwo : List Char → Option (ℕ × List Char)
  | a :: rest =>
    match scanTwo (a :: rest) with
    | some p => some p
    | none => if a.isDigit then some (digitValue a, rest) else none
  | [] => none

def scanFour (text : List Char) : Option (ℕ × List Char) := do
  let (high, rest) ← scanTwo text
  let (low, rest) ← scanTwo rest
  some (high * 100 + low, rest)

def scanChar (c : Char) : List Char → Option (List Char)
  | d :: rest => if d = c then some rest else none
  | [] => none

/-- The nanoseconds of fraction digits; digits past the ninth are dropped. -/
def fractionNanos (digits : List Char) : ℕ :=
  Nat.ofDigitChars 10 (digits.take 9) 0 * 10 ^ (9 - (digits.take 9).length)

def scanFraction : List Char → ℕ × List Char
  | c :: d :: rest =>
    if (c = '.' ∨ c = ',') ∧ d.isDigit then
      (fractionNanos ((d :: rest).takeWhile Char.isDigit), (d :: rest).dropWhile Char.isDigit)
    else (0, c :: d :: rest)
  | text => (0, text)

/-- The zone, which must end the text. -/
def scanZone : List Char → Option ℤ
  | ['Z'] => some 0
  | sign :: rest => do
    let (hours, rest) ← scanTwo rest
    let rest ← scanChar ':' rest
    let (minutes, rest) ← scanTwo rest
    if hours > 24 ∨ minutes > 60 ∨ rest ≠ [] then none
    else if sign = '+' then some ((hours * 60 + minutes) * 60 : ℕ)
    else if sign = '-' then some (-((hours * 60 + minutes) * 60 : ℕ))
    else none
  | [] => none

/-- The time with these fields, if they are in range. -/
def mkTime (year month day hour minute second nano : ℕ) (offset : ℤ) : Option Time :=
  if h : (1 ≤ month ∧ month ≤ 12) ∧ (1 ≤ day ∧ day ≤ daysIn month year) ∧
      hour < 24 ∧ minute < 60 ∧ second < 60 ∧ nano < 1000000000 then
    some
      { date := ⟨year, month, day, h.1, h.2.1⟩
        hour := hour
        minute := minute
        second := second
        nano := nano
        offset := offset
        hour_lt := h.2.2.1
        minute_lt := h.2.2.2.1
        second_lt := h.2.2.2.2.1
        nano_lt := h.2.2.2.2.2 }
  else none

/-- `time.Parse(time.RFC3339Nano, text)`. -/
def parse (text : List Char) : Option Time := do
  let (year, rest) ← scanFour text
  let rest ← scanChar '-' rest
  let (month, rest) ← scanTwo rest
  let rest ← scanChar '-' rest
  let (day, rest) ← scanTwo rest
  let rest ← scanChar 'T' rest
  let (hour, rest) ← scanOneOrTwo rest
  let rest ← scanChar ':' rest
  let (minute, rest) ← scanTwo rest
  let rest ← scanChar ':' rest
  let (second, rest) ← scanTwo rest
  let (nano, rest) := scanFraction rest
  let offset ← scanZone rest
  mkTime year month day hour minute second nano offset

/-! ## Digits read back -/

theorem digitChar_spec : ∀ n < 10,
    (Nat.digitChar n).isDigit = true ∧ digitValue (Nat.digitChar n) = n := by decide

theorem scanTwo_digits {m n : ℕ} (hm : m < 10) (hn : n < 10) (rest : List Char) :
    scanTwo (Nat.digitChar m :: Nat.digitChar n :: rest) = some (m * 10 + n, rest) := by
  rw [scanTwo, if_pos ⟨(digitChar_spec m hm).1, (digitChar_spec n hn).1⟩,
    (digitChar_spec m hm).2, (digitChar_spec n hn).2]

theorem scanTwo_pad2 {n : ℕ} (hn : n < 100) (rest : List Char) :
    scanTwo (pad2 n ++ rest) = some (n, rest) := by
  rw [pad2, if_pos hn, List.cons_append, List.cons_append, List.nil_append,
    scanTwo_digits (by omega) (by omega)]
  congr 2
  omega

theorem scanOneOrTwo_pad2 {n : ℕ} (hn : n < 100) (rest : List Char) :
    scanOneOrTwo (pad2 n ++ rest) = some (n, rest) := by
  have htwo := scanTwo_pad2 hn rest
  have hcons : ∃ c tail, pad2 n ++ rest = c :: tail := by
    rw [pad2, if_pos hn]
    exact ⟨_, _, rfl⟩
  obtain ⟨c, tail, hcons⟩ := hcons
  rw [hcons] at htwo ⊢
  rw [scanOneOrTwo, htwo]

theorem scanFour_pad4 {n : ℕ} (hn : n < 10000) (rest : List Char) :
    scanFour (pad4 n ++ rest) = some (n, rest) := by
  rw [pad4, if_pos hn]
  simp only [List.cons_append, List.nil_append]
  rw [scanFour, scanTwo_digits (by omega) (by omega)]
  dsimp only [Option.bind_eq_bind, Option.bind_some]
  rw [scanTwo_digits (by omega) (by omega)]
  dsimp only [Option.bind_some]
  congr 2
  omega

@[simp] theorem scanChar_self (c : Char) (rest : List Char) :
    scanChar c (c :: rest) = some rest := by
  rw [scanChar, if_pos rfl]

/-! ## The fraction read back -/

theorem ofDigitChars_replicate_zero (k init : ℕ) :
    Nat.ofDigitChars 10 (List.replicate k '0') init = init * 10 ^ k := by
  induction k generalizing init with
  | zero => simp [Nat.ofDigitChars]
  | succ k ih =>
    rw [List.replicate_succ, Nat.ofDigitChars_cons, ih]
    simp only [Nat.sub_self, Nat.add_zero]
    ring

theorem ofDigitChars_nanoDigits {nano : ℕ} (h : nano < 1000000000) :
    Nat.ofDigitChars 10 (nanoDigits nano) 0 = nano := by
  have hd : ∀ k, (Nat.digitChar (k % 10)).toNat - '0'.toNat = k % 10 :=
    fun k => (digitChar_spec _ (Nat.mod_lt k (by decide))).2
  simp only [nanoDigits, Nat.ofDigitChars_cons, hd, Nat.ofDigitChars_nil]
  omega

/-- Cutting trailing zeros off nine digits does not change the fraction. -/
theorem fractionNanos_rdropWhile {digits : List Char} (h : digits.length = 9) :
    fractionNanos (digits.rdropWhile (· == '0')) = Nat.ofDigitChars 10 digits 0 := by
  have hsplit := List.rdropWhile_append_rtakeWhile (p := (· == '0')) (l := digits)
  have hzeros : digits.rtakeWhile (· == '0')
      = List.replicate (digits.rtakeWhile (· == '0')).length '0' := by
    rw [List.eq_replicate_iff]
    refine ⟨rfl, ?_⟩
    intro c hc
    have hc' := List.mem_rtakeWhile_imp hc
    rwa [beq_iff_eq] at hc'
  have hlen := congrArg List.length hsplit
  rw [List.length_append, h] at hlen
  have htake : (digits.rdropWhile (· == '0')).take 9 = digits.rdropWhile (· == '0') :=
    List.take_of_length_le (by omega)
  rw [fractionNanos, htake]
  conv_rhs => rw [← hsplit, Nat.ofDigitChars_append, hzeros, ofDigitChars_replicate_zero]
  congr 2
  omega

/-- What may stand behind a fraction: no digit, and no point or comma. -/
def FractionEnds (rest : List Char) : Prop :=
  ∃ c tail, rest = c :: tail ∧ c.isDigit = false ∧ c ≠ '.' ∧ c ≠ ','

theorem isDigit_nanoDigits (nano : ℕ) : ∀ c ∈ nanoDigits nano, c.isDigit = true := by
  intro c hc
  have hd : ∀ k, (Nat.digitChar (k % 10)).isDigit = true :=
    fun k => (digitChar_spec _ (Nat.mod_lt k (by decide))).1
  simp only [nanoDigits, List.mem_cons, List.not_mem_nil, or_false] at hc
  rcases hc with rfl | rfl | rfl | rfl | rfl | rfl | rfl | rfl | rfl <;> exact hd _

theorem scanFraction_format {nano : ℕ} (hn : nano < 1000000000) {rest : List Char}
    (hr : FractionEnds rest) : scanFraction (formatFraction nano ++ rest) = (nano, rest) := by
  obtain ⟨c, tail, rfl, hdigit, hpoint, hcomma⟩ := hr
  have hnanos := fractionNanos_rdropWhile (show (nanoDigits nano).length = 9 from rfl)
  rw [ofDigitChars_nanoDigits hn] at hnanos
  unfold formatFraction
  cases hdigits : (nanoDigits nano).rdropWhile (· == '0') with
  | nil =>
    rw [hdigits] at hnanos
    have hzero : nano = 0 := by
      rw [← hnanos]
      rfl
    dsimp only [List.nil_append]
    cases tail with
    | nil =>
      rw [scanFraction, hzero]
      simp
    | cons d tail =>
      rw [scanFraction, if_neg (by simp [hpoint, hcomma]), hzero]
  | cons d digits =>
    have hall : ∀ x ∈ d :: digits, x.isDigit = true := by
      intro x hx
      rw [← hdigits] at hx
      exact isDigit_nanoDigits nano x ((List.rdropWhile_prefix _ _).subset hx)
    have htake : (d :: (digits ++ c :: tail)).takeWhile Char.isDigit = d :: digits := by
      rw [← List.cons_append, List.takeWhile_append_of_pos hall, List.takeWhile_cons,
        if_neg (by simp [hdigit]), List.append_nil]
    have hdrop : (d :: (digits ++ c :: tail)).dropWhile Char.isDigit = c :: tail := by
      have hsplit := List.takeWhile_append_dropWhile (p := Char.isDigit)
        (l := d :: (digits ++ c :: tail))
      rw [htake, List.cons_append] at hsplit
      exact List.append_cancel_left (List.cons.inj hsplit).2
    dsimp only [List.cons_append]
    rw [scanFraction, if_pos ⟨Or.inl rfl, hall d List.mem_cons_self⟩, htake, hdrop,
      ← hdigits, hnanos]

/-! ## The zone and the whole time read back -/

/-- The offset the text form keeps: whole minutes, cut towards zero. -/
def truncateOffset (offset : ℤ) : ℤ := offset.tdiv 60 * 60

/-- The time with the offset its text keeps; the civil fields stay. -/
def Time.truncate (t : Time) : Time := { t with offset := truncateOffset t.offset }

theorem scanZone_format {offset : ℤ} (h : (offset.tdiv 60).natAbs / 60 < 24) :
    scanZone (formatZone offset) = some (truncateOffset offset) := by
  unfold formatZone
  split_ifs with hzero
  · subst hzero
    rfl
  · dsimp only
    have htwo := scanTwo_pad2 (n := (offset.tdiv 60).natAbs / 60) (by omega)
      (':' :: pad2 ((offset.tdiv 60).natAbs % 60))
    have htwo' := scanTwo_pad2 (n := (offset.tdiv 60).natAbs % 60) (by omega) []
    rw [List.append_nil] at htwo'
    unfold truncateOffset
    split_ifs with hneg
    · rw [scanZone.eq_2 _ _ (by simp)]
      simp only [htwo, htwo', scanChar_self, Option.bind_eq_bind, Option.bind_some]
      rw [if_neg (by simp only [ne_eq, not_true_eq_false, or_false]; omega),
        if_neg (by decide), if_pos trivial]
      congr 1
      omega
    · rw [scanZone.eq_2 _ _ (by simp)]
      simp only [htwo, htwo', scanChar_self, Option.bind_eq_bind, Option.bind_some]
      rw [if_neg (by simp only [ne_eq, not_true_eq_false, or_false]; omega), if_pos trivial]
      congr 1
      omega

theorem fractionEnds_formatZone (offset : ℤ) : FractionEnds (formatZone offset) := by
  unfold formatZone FractionEnds
  split_ifs with hzero
  · exact ⟨'Z', [], rfl, by decide, by decide, by decide⟩
  · dsimp only
    split_ifs with hneg
    · exact ⟨'-', _, rfl, by decide, by decide, by decide⟩
    · exact ⟨'+', _, rfl, by decide, by decide, by decide⟩

theorem mkTime_eq (t : Time) (offset : ℤ) (hyear : 0 ≤ t.date.year) :
    mkTime t.date.year.natAbs t.date.month t.date.day t.hour t.minute t.second t.nano offset
      = some { t with offset := offset } := by
  have hcast : (t.date.year.natAbs : ℤ) = t.date.year := Int.natAbs_of_nonneg hyear
  unfold mkTime
  rw [dif_pos]
  · congr 1
    ext
    · exact hcast
    all_goals rfl
  · rw [hcast]
    exact ⟨t.date.month_range, t.date.day_range, t.hour_lt, t.minute_lt, t.second_lt, t.nano_lt⟩

/-- **The text of a time reads back** as the time with its offset cut to minutes. -/
theorem parse_marshal {t : Time} {text : List Char} (h : t.marshal = .ok text) :
    parse text = some t.truncate := by
  unfold Time.marshal at h
  split_ifs at h with hyear hzone
  cases h
  have hmonth := t.date.month_range
  have hday := t.date.day_range
  have hdays : daysIn t.date.month t.date.year ≤ 31 := by
    unfold daysIn
    split_ifs <;> omega
  have hhour := t.hour_lt
  have hminute := t.minute_lt
  have hsecond := t.second_lt
  have hyear' : formatYear t.date.year = pad4 t.date.year.natAbs := by
    rw [formatYear, if_neg (by omega)]
  unfold parse Time.format
  rw [hyear']
  -- one reader of `parse` after the other takes its own part of the text
  refine Option.bind_eq_some_iff.mpr ⟨_, scanFour_pad4 (by omega) _, ?_⟩
  refine Option.bind_eq_some_iff.mpr ⟨_, scanChar_self _ _, ?_⟩
  refine Option.bind_eq_some_iff.mpr ⟨_, scanTwo_pad2 (by omega) _, ?_⟩
  refine Option.bind_eq_some_iff.mpr ⟨_, scanChar_self _ _, ?_⟩
  refine Option.bind_eq_some_iff.mpr ⟨_, scanTwo_pad2 (by omega) _, ?_⟩
  refine Option.bind_eq_some_iff.mpr ⟨_, scanChar_self _ _, ?_⟩
  refine Option.bind_eq_some_iff.mpr ⟨_, scanOneOrTwo_pad2 (by omega) _, ?_⟩
  refine Option.bind_eq_some_iff.mpr ⟨_, scanChar_self _ _, ?_⟩
  refine Option.bind_eq_some_iff.mpr ⟨_, scanTwo_pad2 (by omega) _, ?_⟩
  refine Option.bind_eq_some_iff.mpr ⟨_, scanChar_self _ _, ?_⟩
  refine Option.bind_eq_some_iff.mpr ⟨_, scanTwo_pad2 (by omega) _, ?_⟩
  dsimp only
  rw [scanFraction_format t.nano_lt (fractionEnds_formatZone t.offset)]
  refine Option.bind_eq_some_iff.mpr ⟨_, scanZone_format (by omega), ?_⟩
  exact mkTime_eq t _ (by omega)

/-- The zone offset is a whole number of minutes. -/
def Time.WholeMinute (t : Time) : Prop := t.offset % 60 = 0

instance (t : Time) : Decidable t.WholeMinute := inferInstanceAs (Decidable (_ = _))

/-- A zone of whole minutes survives the text form. -/
theorem truncate_eq_self {t : Time} (h : t.WholeMinute) : t.truncate = t := by
  have hoffset : truncateOffset t.offset = t.offset := by
    exact Int.tdiv_mul_cancel (Int.dvd_of_emod_eq_zero h)
  unfold Time.truncate
  rw [hoffset]

theorem scanZone_mod {text : List Char} {offset : ℤ} (h : scanZone text = some offset) :
    offset % 60 = 0 := by
  unfold scanZone at h
  split at h
  · cases h
    rfl
  · simp only [Option.bind_eq_bind, Option.bind_eq_some_iff] at h
    obtain ⟨hours, -, rest, -, minutes, -, h⟩ := h
    split_ifs at h
    · injection h with h
      omega
    · injection h with h
      omega
  · cases h

/-- A time read from text has a zone of whole minutes. -/
theorem wholeMinute_of_parse {text : List Char} {t : Time} (h : parse text = some t) :
    t.WholeMinute := by
  obtain ⟨year, -, h⟩ := Option.bind_eq_some_iff.mp h
  obtain ⟨rest, -, h⟩ := Option.bind_eq_some_iff.mp h
  obtain ⟨month, -, h⟩ := Option.bind_eq_some_iff.mp h
  obtain ⟨rest, -, h⟩ := Option.bind_eq_some_iff.mp h
  obtain ⟨day, -, h⟩ := Option.bind_eq_some_iff.mp h
  obtain ⟨rest, -, h⟩ := Option.bind_eq_some_iff.mp h
  obtain ⟨hour, -, h⟩ := Option.bind_eq_some_iff.mp h
  obtain ⟨rest, -, h⟩ := Option.bind_eq_some_iff.mp h
  obtain ⟨minute, -, h⟩ := Option.bind_eq_some_iff.mp h
  obtain ⟨rest, -, h⟩ := Option.bind_eq_some_iff.mp h
  obtain ⟨second, -, h⟩ := Option.bind_eq_some_iff.mp h
  obtain ⟨offset, hzone, h⟩ := Option.bind_eq_some_iff.mp h
  unfold mkTime at h
  split_ifs at h
  cases h
  exact scanZone_mod hzone

end GoTime

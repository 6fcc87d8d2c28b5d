import ShortMessage.Proofs.Calendar
import ShortMessage.Proofs.Text.Numeral
import ShortMessage.Timestamp.Text

/-!
# Instants read back

An instant is read back from the text that is written for it, if its year is in range and its
nanoseconds are those of a second, or of a leap second where one can be.  Whatever is read is such
an instant, so writing it again loses nothing.

* `IsRegular`: the instants that texts stand for;
* `year?_yearText`, `date?_dateText`, `clockTime?_clockText`, `fraction?_fractionText`: what the
  small readers make of what is written;
* `ofText?_localText`, `ofText?_zoned`: an instant read from local time with the offset of its zone;
* `ofText?_toText`, `isRegular_of_ofText?`: both ways between instants and texts.
-/

namespace ShortMessage.Timestamp

open Text

/-- **The instants that texts stand for.**  Only the last second of a minute can be followed by a
leap second. -/
structure IsRegular (t : Timestamp) : Prop where
  year_mem : isInRange t.date.year = true
  nanos_lt : t.nanos < 2000000000
  leap : 1000000000 ≤ t.nanos → t.seconds % 60 = 59

theorem isRegular_of_year {t : Timestamp} (hfrom : 0 ≤ t.date.year) (hto : t.date.year ≤ 9999)
    (hnanos : t.nanos < 1000000000) : t.IsRegular where
  year_mem := by
    simp only [isInRange, Bool.and_eq_true, decide_eq_true_eq]
    omega
  nanos_lt := by omega
  leap hleap := by omega

/-! ### Numbers and marks -/

theorem dropBlanks_cons {c : Char} (h : isBlank c = false) (rest : List Char) :
    dropBlanks (c :: rest) = c :: rest := by
  rw [dropBlanks, List.dropWhile_cons_of_neg (by simp [h])]

theorem dropBlanks_append {digits : List Char} (hne : digits ≠ [])
    (h : ∀ c ∈ digits, isDigit 10 c = true) (rest : List Char) :
    dropBlanks (digits ++ rest) = digits ++ rest := by
  cases digits with
  | nil => exact absurd rfl hne
  | cons c digits => exact dropBlanks_cons (isBlank_of_isDigit (h c List.mem_cons_self)) _

theorem head_not_digit {c : Char} (h : isDigit 10 c = false) (rest : List Char) :
    ∀ d ∈ (c :: rest).head?, isDigit 10 d = false := by
  rintro _ ⟨⟩
  exact h

theorem mark?_cons {mark : Char} (h : isBlank mark = false) (rest : List Char) :
    mark? mark (mark :: rest) = some rest := by
  rw [mark?, dropBlanks_cons h]
  exact if_pos rfl

theorem pair?_fixed {n : Nat} (hn : n < 100) {rest : List Char}
    (hrest : ∀ c ∈ rest.head?, isDigit 10 c = false) :
    pair? (fixed 10 2 n ++ rest) = some (n, rest) := by
  rw [pair?, dropBlanks_append fixed_ne_nil isDigit_fixed_ten]
  exact leadingNumber?_append (number?_fixed (by decide) (by decide) hn) fixed_ne_nil
    (Nat.le_of_eq (length_fixed ..)) isDigit_fixed_ten hrest

/-! ### Years -/

/-- A year that begins with a digit has no more than four of them. -/
theorem year?_of_digits {digits rest : List Char} (hne : digits ≠ [])
    (h : ∀ c ∈ digits, isDigit 10 c = true) :
    year? (digits ++ rest) =
      (leadingNumber? 4 (digits ++ rest)).map fun (n, rest) => ((n : Int), rest) := by
  rw [year?, dropBlanks_append hne h]
  cases digits with
  | nil => exact absurd rfl hne
  | cons c digits =>
    have hc := h c List.mem_cons_self
    split
    · rename_i heq
      obtain ⟨rfl, -⟩ := List.cons.inj heq
      cases hc
    · rename_i heq
      obtain ⟨rfl, -⟩ := List.cons.inj heq
      cases hc
    · rfl

theorem leadingNumber?_size (size : Nat) {rest : List Char}
    (hrest : ∀ c ∈ rest.head?, isDigit 10 c = false) :
    let digits := if size ≤ 9999 then fixed 10 4 size else (toString size).toList
    leadingNumber? (digits ++ rest).length (digits ++ rest) = some (size, rest) := by
  intro digits
  have hmost : digits.length ≤ (digits ++ rest).length := by simp
  by_cases hsize : size ≤ 9999
  · have hdigits : digits = fixed 10 4 size := if_pos hsize
    rw [hdigits] at hmost ⊢
    exact leadingNumber?_append (number?_fixed (by decide) (by decide) (by omega)) fixed_ne_nil
      hmost isDigit_fixed_ten hrest
  · have hdigits : digits = Nat.toDigits 10 size := by
      rw [← String.toList_ofList (l := Nat.toDigits 10 size), ← Nat.toString_eq_ofList_toDigits]
      exact if_neg hsize
    rw [hdigits] at hmost ⊢
    exact leadingNumber?_append (number?_toDigits size) Nat.toDigits_ne_nil hmost
      (fun _ => isDigit_toDigits) hrest

/-- **A year is read back**, whatever its size. -/
theorem year?_yearText (year : Int) {rest : List Char}
    (hrest : ∀ c ∈ rest.head?, isDigit 10 c = false) :
    year? (yearText year ++ rest) = some (year, rest) := by
  unfold yearText
  split
  · rename_i hyear
    have hread : leadingNumber? 4 (fixed 10 4 year.toNat ++ rest) = some (year.toNat, rest) :=
      leadingNumber?_append (number?_fixed (by decide) (by decide) (by omega)) fixed_ne_nil
        (Nat.le_of_eq (length_fixed ..)) isDigit_fixed_ten hrest
    rw [year?_of_digits fixed_ne_nil isDigit_fixed_ten, hread]
    exact congrArg (fun n : Int => some (n, rest)) (Int.toNat_of_nonneg hyear.1)
  · rename_i hyear
    have hread := leadingNumber?_size year.natAbs hrest
    dsimp only at hread ⊢
    by_cases hneg : year < 0
    · have hvalue : -(year.natAbs : Int) = year := by omega
      rw [if_pos hneg, List.cons_append, year?, dropBlanks_cons (by decide)]
      simp only [hread, Option.map_some, hvalue]
    · have hvalue : (year.natAbs : Int) = year := by omega
      rw [if_neg hneg, List.cons_append, year?, dropBlanks_cons (by decide)]
      simp only [hread, Option.map_some, hvalue]

/-! ### Dates and times of day -/

/-- What follows does not go on with the time: no digit, no blank and no fraction begins it. -/
def BeginsAnew (text : List Char) : Prop :=
  ∀ c ∈ text.head?, isDigit 10 c = false ∧ isBlank c = false ∧ c ≠ '.'

theorem beginsAnew_cons {c : Char} (h : isDigit 10 c = false ∧ isBlank c = false ∧ c ≠ '.')
    (rest : List Char) : BeginsAnew (c :: rest) := by
  rintro _ ⟨⟩
  exact h

/-- A date as it is written. -/
def dateText (d : Date) : List Char :=
  yearText d.year ++ '-' :: fixed 10 2 d.month ++ '-' :: fixed 10 2 d.day

theorem date?_dateText {d : Date} (hvalid : d.IsValid) (hrange : isInRange d.year = true)
    {rest : List Char} (hrest : ∀ c ∈ rest.head?, isDigit 10 c = false) :
    date? (dateText d ++ rest) = some (d, rest) := by
  obtain ⟨-, hmonth, -, hday⟩ := id hvalid
  have hday := Nat.le_trans hday (Date.lengthOfMonth_le _ _)
  have hmark := head_not_digit (by decide : isDigit 10 '-' = false)
  simp only [dateText, date?, List.append_assoc, List.cons_append, Option.bind_eq_bind,
    year?_yearText d.year (hmark _), Option.bind_some, mark?_cons (by decide : isBlank '-' = false),
    pair?_fixed (n := d.month) (by omega) (hmark _), pair?_fixed (n := d.day) (by omega) hrest]
  exact if_pos ⟨hvalid, hrange⟩

/-- The time of day; the last second of a minute may be its sixtieth. -/
def clockText (hour minute second : Nat) : List Char :=
  fixed 10 2 hour ++ ':' :: fixed 10 2 minute ++ ':' :: fixed 10 2 second

theorem clockTime?_clockText {hour minute second : Nat} (hhour : hour ≤ 23) (hminute : minute ≤ 59)
    (hsecond : second ≤ 60) {rest : List Char} (hrest : ∀ c ∈ rest.head?, isDigit 10 c = false) :
    clockTime? (clockText hour minute second ++ rest) =
      some (if second = 60 then (3600 * hour + 60 * minute + 59, 1000000000)
        else (3600 * hour + 60 * minute + second, 0), rest) := by
  have hmark := head_not_digit (by decide : isDigit 10 ':' = false)
  simp only [clockText, clockTime?, List.append_assoc, List.cons_append, Option.bind_eq_bind,
    Option.bind_some, mark?_cons (by decide : isBlank ':' = false),
    pair?_fixed (n := hour) (by omega) (hmark _), pair?_fixed (n := minute) (by omega) (hmark _),
    pair?_fixed (n := second) (by omega) hrest]
  exact if_neg (by omega)

/-! ### Fractions -/

theorem fraction?_fixed {width value : Nat} (hwidth : width + 1 ≤ 9)
    (hvalue : value < 10 ^ (width + 1)) {rest : List Char} (hrest : BeginsAnew rest) :
    fraction? ('.' :: (fixed 10 (width + 1) value ++ rest)) =
      some (value * 10 ^ (9 - (width + 1)), rest) := by
  have hlength := length_fixed 10 (width + 1) value
  have hdrop : rest.dropWhile (isDigit 10) = rest := by
    cases rest with
    | nil => rfl
    | cons c rest =>
      rw [List.dropWhile_cons_of_neg]
      simp [(hrest c rfl).1]
  simp only [fraction?, leading_append isDigit_fixed_ten fun c hc => (hrest c hc).1,
    List.take_of_length_le (hlength ▸ hwidth),
    List.drop_of_length_le (hlength ▸ hwidth), List.nil_append, hdrop, hlength,
    number?_fixed (by decide : 10 ≤ 16) (by decide) hvalue, Option.bind_eq_bind,
    Option.bind_some]
  exact if_neg (by simp [fixed_ne_nil])

/-- **A fraction is read back**, however many groups of digits it is written in. -/
theorem fraction?_fractionText {nanos : Nat} (hnanos : nanos < 1000000000) {rest : List Char}
    (hrest : BeginsAnew rest) : fraction? (fractionText nanos ++ rest) = some (nanos, rest) := by
  unfold fractionText
  split
  · rename_i hzero
    rw [hzero, List.nil_append]
    unfold fraction?
    split
    · exact absurd rfl (hrest '.' rfl).2.2
    · rfl
  split
  · rw [List.cons_append, fraction?_fixed (by decide) (by omega) hrest]
    congr 2
    omega
  split
  · rw [List.cons_append, fraction?_fixed (by decide) (by omega) hrest]
    congr 2
    omega
  · rw [List.cons_append, fraction?_fixed (by decide) (by omega) hrest]
    exact congrArg (fun n => some (n, rest)) (Nat.mul_one nanos)

/-! ### Instants from texts -/

/-- The date and the time of day of an instant, without the zone that they are told for. -/
def localText (t : Timestamp) : List Char :=
  let time := (t.seconds % secondsPerDay).toNat
  let second := if t.nanos < 1000000000 then time % 60 else time % 60 + 1
  let nanos := if t.nanos < 1000000000 then t.nanos else t.nanos - 1000000000
  dateText t.date ++ 'T' :: clockText (time / 3600) (time / 60 % 60) second ++ fractionText nanos

theorem toText_eq (t : Timestamp) : t.toText = .ofList (t.localText ++ ['Z']) := by
  unfold toText localText
  dsimp only
  split <;> simp [dateText, clockText]

theorem dropBlanks_of_beginsAnew {text : List Char} (h : BeginsAnew text) :
    dropBlanks text = text := by
  cases text with
  | nil => rfl
  | cons c rest => exact dropBlanks_cons (h c rfl).2.1 rest

theorem not_digit_of_fractionText {nanos : Nat} {zone : List Char} (hzone : BeginsAnew zone) :
    ∀ c ∈ (fractionText nanos ++ zone).head?, isDigit 10 c = false := by
  have hpoint := head_not_digit (by decide : isDigit 10 '.' = false)
  unfold fractionText
  split
  · exact fun c hc => (hzone c hc).1
  · split
    · exact hpoint _
    · split <;> exact hpoint _

/-- A leap second is written as second sixty, which is read as the second before it and one more. -/
theorem clockTime?_localText {t : Timestamp} (ht : t.IsRegular) {time : Nat}
    (htime : time = (t.seconds % secondsPerDay).toNat) {rest : List Char}
    (hrest : ∀ c ∈ rest.head?, isDigit 10 c = false) :
    clockTime? (clockText (time / 3600) (time / 60 % 60)
        (if t.nanos < 1000000000 then time % 60 else time % 60 + 1) ++ rest) =
      some ((time, if t.nanos < 1000000000 then 0 else 1000000000), rest) := by
  unfold secondsPerDay at htime
  rw [clockTime?_clockText (by omega) (by omega) (by split <;> omega) hrest]
  congr 2
  by_cases hnanos : t.nanos < 1000000000
  · rw [if_pos hnanos, if_pos hnanos, if_neg (by omega)]
    congr 1
    omega
  · have hleap := ht.leap (Nat.le_of_not_lt hnanos)
    rw [if_neg hnanos, if_neg hnanos, if_pos (by omega)]
    congr 1
    omega

/-- **Local time and the offset of its zone tell an instant.** -/
theorem ofText?_localText {t : Timestamp} (ht : t.IsRegular) {zone : List Char}
    (hzone : BeginsAnew zone) {offset : Int} (hoffset : offset? zone = some (offset, []))
    (hrange : isInRange (⟨t.seconds - offset, t.nanos⟩ : Timestamp).date.year = true) :
    ofText? (.ofList (t.localText ++ zone)) = some ⟨t.seconds - offset, t.nanos⟩ := by
  have hvalid : t.date.IsValid := Date.isValid_ofDayNumber _
  have hmark := head_not_digit (by decide : isDigit 10 'T' = false)
  generalize htime : (t.seconds % secondsPerDay).toNat = time
  have hsum : t.seconds / secondsPerDay * secondsPerDay + time = t.seconds := by
    unfold secondsPerDay at htime ⊢
    omega
  have hday : t.date.dayNumber - firstDay = t.seconds / secondsPerDay := by
    rw [date, Date.dayNumber_ofDayNumber, Int.add_sub_cancel]
  have hnanos : (if t.nanos < 1000000000 then 0 else 1000000000) +
      (if t.nanos < 1000000000 then t.nanos else t.nanos - 1000000000) = t.nanos := by
    split <;> omega
  have hbelow : (if t.nanos < 1000000000 then t.nanos else t.nanos - 1000000000) < 1000000000 := by
    have := ht.nanos_lt
    split <;> omega
  simp only [ofText?, localText, htime, String.toList_ofList, List.append_assoc, List.cons_append,
    Option.bind_eq_bind, Option.bind_some, separator?, if_true, true_or,
    date?_dateText hvalid ht.year_mem (hmark _),
    clockTime?_localText ht htime.symm (not_digit_of_fractionText hzone),
    fraction?_fractionText hbelow hzone, dropBlanks_of_beginsAnew hzone, hoffset, hday, hsum,
    hnanos]
  exact if_pos ⟨rfl, hrange⟩

/-- **An instant is read back.** -/
theorem ofText?_toText {t : Timestamp} (ht : t.IsRegular) : ofText? t.toText = some t := by
  have hread := ofText?_localText ht (beginsAnew_cons (c := 'Z') (by decide) []) rfl
  simp only [Int.sub_zero] at hread
  rw [toText_eq]
  exact hread ht.year_mem

/-! ### Zones -/

/-- Hours and minutes of an offset from universal time, as they follow its sign. -/
def offsetText (hours minutes : Nat) : List Char :=
  fixed 10 2 hours ++ ':' :: fixed 10 2 minutes

theorem twoDigits?_fixed {limit n : Nat} (hn : n < limit) (hlimit : limit ≤ 100) {rest : List Char}
    (hrest : ∀ c ∈ rest.head?, isDigit 10 c = false) :
    twoDigits? limit (fixed 10 2 n ++ rest) = some (n, rest) := by
  rw [twoDigits?, fixedNumber?_fixed (Nat.lt_of_lt_of_le hn hlimit) hrest]
  exact if_pos hn

/-- **An offset is read** as the seconds that local time is ahead. -/
theorem offset?_offsetText {hours minutes : Nat} (hhours : hours < 24) (hminutes : minutes < 60)
    {mark : Char} {sign : Int} (hmark : mark = '+' ∧ sign = 1 ∨ mark = '-' ∧ sign = -1) :
    offset? (mark :: offsetText hours minutes) =
      some (sign * (3600 * hours + 60 * minutes : Nat), []) := by
  have hcolon := head_not_digit (by decide : isDigit 10 ':' = false) (fixed 10 2 minutes)
  have hskip : (':' :: fixed 10 2 minutes).dropWhile (fun c => c = ':' || isBlank c) =
      fixed 10 2 minutes := by
    rw [List.dropWhile_cons_of_pos (by simp)]
    cases hdigits : fixed 10 2 minutes with
    | nil => rfl
    | cons c rest =>
      have hc : isDigit 10 c = true := isDigit_fixed_ten c (hdigits ▸ List.mem_cons_self)
      have hne : c ≠ ':' := by
        rintro rfl
        cases hc
      rw [List.dropWhile_cons_of_neg (by simp [hne, isBlank_of_isDigit hc])]
  have hreadHours := twoDigits?_fixed (Nat.lt_trans hhours (by decide)) (Nat.le_refl 100) hcolon
  have hreadMinutes : twoDigits? 60 (fixed 10 2 minutes) = some (minutes, []) := by
    have hread := @twoDigits?_fixed 60 minutes hminutes (by decide) [] (by rintro _ ⟨⟩)
    rwa [List.append_nil] at hread
  have hsize : 3600 * hours + 60 * minutes < 86400 := by omega
  obtain ⟨rfl, rfl⟩ | ⟨rfl, rfl⟩ := hmark <;>
    simp [offset?, offsetText, offsetSign?, hreadHours, hskip, hreadMinutes, hsize]

/-- **Another zone tells the same instant**: local time with its offset is read as the instant, and
that is written for universal time. -/
theorem ofText?_zoned {t : Timestamp} (ht : t.IsRegular) {hours minutes : Nat} (hhours : hours < 24)
    (hminutes : minutes < 60) {mark : Char} {sign : Int}
    (hmark : mark = '+' ∧ sign = 1 ∨ mark = '-' ∧ sign = -1)
    (hlocal : isInRange (⟨t.seconds + sign * (3600 * hours + 60 * minutes : Nat), t.nanos⟩ :
      Timestamp).date.year = true) :
    ofText? (.ofList (localText ⟨t.seconds + sign * (3600 * hours + 60 * minutes : Nat), t.nanos⟩ ++
      mark :: offsetText hours minutes)) = some t := by
  have hregular : IsRegular ⟨t.seconds + sign * (3600 * hours + 60 * minutes : Nat), t.nanos⟩ := by
    refine ⟨hlocal, ht.nanos_lt, fun hnanos => ?_⟩
    have hleap := ht.leap hnanos
    dsimp only
    obtain ⟨-, rfl⟩ | ⟨-, rfl⟩ := hmark <;> omega
  have hread := ofText?_localText hregular (beginsAnew_cons (by
    obtain ⟨rfl, -⟩ | ⟨rfl, -⟩ := hmark <;> decide) _) (offset?_offsetText hhours hminutes hmark)
  simp only [Int.add_sub_cancel] at hread
  exact hread ht.year_mem

/-! ### Texts that are read -/

theorem clockTime?_leap {text rest : List Char} {second more : Nat}
    (h : clockTime? text = some ((second, more), rest)) :
    more = 0 ∨ more = 1000000000 ∧ second % 60 = 59 := by
  simp only [clockTime?, Option.bind_eq_bind, Option.bind_eq_some_iff] at h
  obtain ⟨⟨hour, text⟩, -, text, -, ⟨minute, text⟩, -, text, -, ⟨s, text⟩, -, h⟩ := h
  dsimp only at h
  obtain ⟨-, h⟩ := Option.ite_none_left_eq_some.1 h
  obtain ⟨h, -⟩ := Prod.mk.inj (Option.some.inj h)
  split at h
  · obtain ⟨rfl, rfl⟩ := Prod.mk.inj h
    exact Or.inr ⟨rfl, by omega⟩
  · obtain ⟨-, rfl⟩ := Prod.mk.inj h
    exact Or.inl rfl

theorem fraction?_lt {text rest : List Char} {nanos : Nat}
    (h : fraction? text = some (nanos, rest)) : nanos < 1000000000 := by
  unfold fraction? at h
  split at h
  · rename_i digits
    have hlength := length_leading_le 10 9 digits
    simp only [Option.bind_eq_bind, Option.ite_none_left_eq_some, Option.bind_eq_some_iff] at h
    obtain ⟨-, value, hvalue, h⟩ := h
    obtain ⟨rfl, -⟩ := Prod.mk.inj (Option.some.inj h)
    calc value * 10 ^ (9 - (leading 10 9 digits).1.length)
      _ < 10 ^ (leading 10 9 digits).1.length * 10 ^ (9 - (leading 10 9 digits).1.length) :=
        Nat.mul_lt_mul_of_pos_right (number?_lt hvalue) (Nat.pow_pos (by decide))
      _ = 10 ^ 9 := by rw [← Nat.pow_add, Nat.add_sub_cancel' hlength]
  · cases h
    decide

/-- Offsets are whole minutes. -/
theorem offset?_emod {text rest : List Char} {offset : Int}
    (h : offset? text = some (offset, rest)) : offset % 60 = 0 := by
  unfold offset? at h
  split at h
  · cases h
    rfl
  split at h
  · cases h
    rfl
  · cases h
    rfl
  simp only [Option.bind_eq_bind, Option.bind_eq_some_iff] at h
  obtain ⟨⟨sign, text⟩, -, ⟨hours, text⟩, -, ⟨minutes, text⟩, -, h⟩ := h
  obtain ⟨-, h⟩ := Option.ite_none_right_eq_some.1 h
  obtain ⟨rfl, -⟩ := Prod.mk.inj (Option.some.inj h)
  have hsize : ((3600 * hours + 60 * minutes : Nat) : Int) % 60 = 0 := by omega
  exact Int.emod_eq_zero_of_dvd (Int.dvd_mul_of_dvd_right (Int.dvd_of_emod_eq_zero hsize))

/-- **Whatever is read can be written.** -/
theorem isRegular_of_ofText? {text : String} {t : Timestamp} (h : ofText? text = some t) :
    t.IsRegular := by
  simp only [ofText?, Option.bind_eq_bind, Option.bind_eq_some_iff] at h
  obtain ⟨⟨date, text⟩, -, text, -, ⟨⟨second, more⟩, text⟩, hclock, ⟨nanos, text⟩, hfraction,
    ⟨offset, text⟩, hoffset, h⟩ := h
  obtain ⟨⟨-, hrange⟩, h⟩ := Option.ite_none_right_eq_some.1 h
  obtain rfl := Option.some.inj h
  have hmore := clockTime?_leap hclock
  have hnanos := fraction?_lt hfraction
  have hminutes := offset?_emod hoffset
  refine ⟨hrange, ?_, fun hleap => ?_⟩ <;> dsimp only at *
  · omega
  · unfold secondsPerDay
    omega

end ShortMessage.Timestamp

import Mathlib.Algebra.GroupWithZero.Nat
import Mathlib.Data.List.Induction
import ShortMessage.Text.Blank
import ShortMessage.Text.Numeral

/-!
# Numerals read back

The decimal numeral of a number is a row of digits that reads as the number, and it begins with a
zero only if it is nothing else.  A number that is written in a fixed count of digits is read back
if the count suffices for it.

* `number?_concat`: a row of digits, its last one apart;
* `number?_toDigits`: a numeral reads as its number;
* `head_toDigits_ne_zero`: a numeral has no leading zeros;
* `number?_fixed`: a number of a fixed count of digits is read back;
* `number?_lt`: what a row of digits may stand for;
* `leading_append`, `leadingNumber?_append`: the digits that a text begins with.
-/

namespace ShortMessage.Text

theorem number?_concat (base : Nat) (digits : List Char) (c : Char) :
    number? base (digits ++ [c]) =
      (number? base digits).bind fun value => (digit? base c).map (value * base + ·) := by
  unfold number?
  rw [List.foldlM_append]
  simp [List.foldlM, bind]

theorem digit?_digitChar : ∀ base ≤ 16, ∀ d < base, digit? base d.digitChar = some d := by
  decide +kernel

theorem lt_of_digit? {base : Nat} {c : Char} {d : Nat} (h : digit? base c = some d) : d < base := by
  obtain ⟨hlt, heq⟩ := Option.ite_none_right_eq_some.1 h
  exact Option.some.inj heq ▸ hlt

/-- Digits are ASCII characters, and none of those is blank from zero on. -/
theorem isBlank_of_isDigit {base : Nat} {c : Char} (h : isDigit base c = true) :
    isBlank c = false := by
  have hrange : 48 ≤ c.toNat ∧ c.toNat ≤ 122 := by
    by_contra hout
    have h0 : ¬ ('0' ≤ c ∧ c ≤ '9') := fun ⟨(hl : 48 ≤ c.toNat), (hr : c.toNat ≤ 57)⟩ => by omega
    have ha : ¬ ('a' ≤ c ∧ c ≤ 'z') := fun ⟨(hl : 97 ≤ c.toNat), (hr : c.toNat ≤ 122)⟩ => by omega
    have hA : ¬ ('A' ≤ c ∧ c ≤ 'Z') := fun ⟨(hl : 65 ≤ c.toNat), (hr : c.toNat ≤ 90)⟩ => by omega
    simp [isDigit, digit?, h0, ha, hA] at h
  simp only [isBlank, Bool.or_eq_false_iff, Bool.and_eq_false_iff, decide_eq_false_iff_not,
    beq_eq_false_iff_ne]
  omega

theorem isDigit_of_isDigit {c : Char} (h : c.isDigit = true) : isDigit 10 c = true := by
  obtain ⟨h0, h9⟩ : c.val ≥ '0'.val ∧ c.val ≤ '9'.val := by
    simpa [Char.isDigit] using h
  have hle : 48 ≤ c.toNat ∧ c.toNat ≤ 57 := ⟨h0, h9⟩
  have hbounds : '0' ≤ c ∧ c ≤ '9' := ⟨h0, h9⟩
  have hvalue : c.toNat - '0'.toNat < 10 := by
    show c.toNat - 48 < 10
    omega
  simp only [isDigit, digit?, if_pos hbounds, if_pos hvalue, Option.isSome_some]

theorem isDigit_toDigits {n : Nat} {c : Char} (h : c ∈ Nat.toDigits 10 n) : isDigit 10 c = true :=
  isDigit_of_isDigit (Nat.isDigit_of_mem_toDigits (by decide) (by decide) h)

/-- **A numeral reads as its number.** -/
theorem number?_toDigits (n : Nat) : number? 10 (Nat.toDigits 10 n) = some n := by
  induction n using Nat.strongRecOn with
  | ind n ih =>
    by_cases hn : n < 10
    · rw [Nat.toDigits_of_lt_base hn]
      simp [number?, List.foldlM, digit?_digitChar 10 (by decide) n hn]
    · have hlast := digit?_digitChar 10 (by decide) (n % 10) (Nat.mod_lt _ (by decide))
      rw [Nat.toDigits_of_base_le (by decide) (by omega), number?_concat, ih (n / 10) (by omega),
        Option.bind_some, hlast, Option.map_some, Nat.div_add_mod']

/-- **A numeral has no leading zeros**, except that of zero itself. -/
theorem head_toDigits_ne_zero {n : Nat} (h : 0 < n) : (Nat.toDigits 10 n).head? ≠ some '0' := by
  induction n using Nat.strongRecOn with
  | ind n ih =>
    by_cases hn : n < 10
    · rw [Nat.toDigits_of_lt_base hn, List.head?_cons, ne_eq, Option.some.injEq,
        Nat.digitChar_eq_zero]
      omega
    · have hfront := ih (n / 10) (by omega) (by omega)
      rw [Nat.toDigits_of_base_le (by decide) (by omega), List.head?_append]
      cases hdigits : Nat.toDigits 10 (n / 10) with
      | nil => exact absurd hdigits Nat.toDigits_ne_nil
      | cons c cs =>
        rw [hdigits] at hfront
        exact hfront

/-! ### A fixed count of digits -/

@[simp] theorem length_fixed (base width n : Nat) : (fixed base width n).length = width := by
  induction width generalizing n with
  | zero => rfl
  | succ width ih => simp [fixed, ih]

theorem isDigit_fixed {base width n : Nat} (hbase : base ≤ 16) (hpos : 0 < base) {c : Char}
    (h : c ∈ fixed base width n) : isDigit base c = true := by
  induction width generalizing n with
  | zero => cases h
  | succ width ih =>
    rcases List.mem_append.1 h with h | h
    · exact ih h
    · rw [List.mem_singleton.1 h, isDigit, digit?_digitChar base hbase _ (Nat.mod_lt n hpos)]
      rfl

theorem isDigit_fixed_ten {width n : Nat} : ∀ c ∈ fixed 10 width n, isDigit 10 c = true :=
  fun _ => isDigit_fixed (by decide) (by decide)

theorem fixed_ne_nil {base width n : Nat} : fixed base (width + 1) n ≠ [] :=
  List.append_ne_nil_of_right_ne_nil _ (List.cons_ne_nil _ _)

/-- **A number of a fixed count of digits is read back** if the count suffices for it. -/
theorem number?_fixed {base width n : Nat} (hbase : base ≤ 16) (hpos : 0 < base)
    (hn : n < base ^ width) : number? base (fixed base width n) = some n := by
  induction width generalizing n with
  | zero => simp_all [fixed, number?]
  | succ width ih =>
    have hfront : n / base < base ^ width :=
      Nat.div_lt_of_lt_mul (by rwa [Nat.pow_succ, Nat.mul_comm] at hn)
    have hlast := digit?_digitChar base hbase _ (Nat.mod_lt n hpos)
    rw [fixed, number?_concat, ih hfront, Option.bind_some, hlast, Option.map_some,
      Nat.div_add_mod']

theorem number?_lt {base : Nat} {digits : List Char} {n : Nat}
    (h : number? base digits = some n) : n < base ^ digits.length := by
  induction digits using List.reverseRecOn generalizing n with
  | nil =>
    cases h
    exact Nat.one_pos
  | append_singleton digits c ih =>
    rw [number?_concat, Option.bind_eq_some_iff] at h
    obtain ⟨front, hfront, hlast⟩ := h
    obtain ⟨last, hdigit, rfl⟩ := Option.map_eq_some_iff.1 hlast
    rw [List.length_append, List.length_singleton, Nat.pow_succ]
    calc front * base + last < front * base + base := Nat.add_lt_add_left (lt_of_digit? hdigit) _
      _ = (front + 1) * base := (Nat.succ_mul _ _).symm
      _ ≤ base ^ digits.length * base := Nat.mul_le_mul_right _ (ih hfront)

/-! ### The beginning of a text -/

theorem length_leading_le (base most : Nat) (text : List Char) :
    (leading base most text).1.length ≤ most := by
  induction most generalizing text with
  | zero => simp [leading]
  | succ most ih =>
    cases text with
    | nil => simp [leading]
    | cons c rest =>
      unfold leading
      split
      · exact Nat.succ_le_succ (ih rest)
      · exact Nat.zero_le _

theorem leading_append {base : Nat} {digits rest : List Char}
    (h : ∀ c ∈ digits, isDigit base c = true) (hrest : ∀ c ∈ rest.head?, isDigit base c = false)
    (most : Nat) :
    leading base most (digits ++ rest) = (digits.take most, digits.drop most ++ rest) := by
  induction digits generalizing most with
  | nil =>
    cases most with
    | zero => rfl
    | succ most =>
      cases rest with
      | nil => rfl
      | cons c rest => simp [leading, hrest c rfl]
  | cons c digits ih =>
    cases most with
    | zero => rfl
    | succ most =>
      have hc := h c List.mem_cons_self
      simp [leading, hc, ih fun d hd => h d (List.mem_cons_of_mem _ hd)]

theorem leadingNumber?_append {most n : Nat} {digits rest : List Char}
    (hvalue : number? 10 digits = some n) (hne : digits ≠ []) (hmost : digits.length ≤ most)
    (h : ∀ c ∈ digits, isDigit 10 c = true) (hrest : ∀ c ∈ rest.head?, isDigit 10 c = false) :
    leadingNumber? most (digits ++ rest) = some (n, rest) := by
  rw [leadingNumber?, leading_append h hrest, List.take_of_length_le hmost,
    List.drop_of_length_le hmost]
  simp [hne, hvalue]

theorem fixedNumber?_fixed {width n : Nat} (hn : n < 10 ^ width) {rest : List Char}
    (hrest : ∀ c ∈ rest.head?, isDigit 10 c = false) :
    fixedNumber? width (fixed 10 width n ++ rest) = some (n, rest) := by
  have hlength : (fixed 10 width n).length ≤ width := Nat.le_of_eq (length_fixed ..)
  rw [fixedNumber?, leading_append isDigit_fixed_ten hrest, List.take_of_length_le hlength,
    List.drop_of_length_le hlength]
  simp [number?_fixed (by decide : 10 ≤ 16) (by decide) hn]

end ShortMessage.Text

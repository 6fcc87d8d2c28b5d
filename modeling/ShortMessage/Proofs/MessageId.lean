import ShortMessage.MessageId.Text
import ShortMessage.Proofs.Text.Numeral

/-!
# Identities read back

An identity is thirty-two digits, and each of the four forms has room for just those.

* `unhyphenated?_hyphenated`: the digits of a hyphenated text;
* `digits?_forms`, `ofText?_forms`: thirty-two digits, of either case, are read in each form;
* `ofText?_toText`: an identity is read back from the form that is written.
-/

namespace ShortMessage.MessageId

open Text

/-! ### Hyphens -/

theorem unhyphenated?_hyphenated (sizes : List Nat) {digits : List Char}
    (h : digits.length = sizes.sum) :
    unhyphenated? sizes (hyphenated sizes digits) = some digits := by
  induction sizes generalizing digits with
  | nil => rw [List.length_eq_zero_iff.1 h]; rfl
  | cons size sizes ih =>
    rw [List.sum_cons] at h
    cases sizes with
    | nil =>
      have hall : digits.take size = digits := List.take_of_length_le (by simp at h; omega)
      simp [hyphenated, unhyphenated?, hall, h]
    | cons next sizes =>
      have hsize : (digits.take size).length = size := by
        rw [List.length_take]
        omega
      have hrest := @ih (digits.drop size) (by rw [List.length_drop]; omega)
      rw [hyphenated, unhyphenated?, List.drop_left' hsize, List.take_left' hsize]
      · simp [hrest]
      · simp
      · simp

theorem length_hyphenated_groups {digits : List Char} (h : digits.length = 32) :
    (hyphenated groups digits).length = 36 := by
  simp [hyphenated, groups, h]

/-! ### The four forms -/

/-- **Thirty-two digits are an identity in each form**: bare, with hyphens, in braces, and with the
lead of the name space. -/
theorem digits?_forms {digits : List Char} (h : digits.length = 32) :
    ∀ form ∈ [digits, hyphenated groups digits, '{' :: hyphenated groups digits ++ ['}'],
      nameSpace ++ hyphenated groups digits], digits? form = some digits := by
  have hlength := length_hyphenated_groups h
  have hread : unhyphenated? groups (hyphenated groups digits) = some digits :=
    unhyphenated?_hyphenated groups h
  have hspace : nameSpace.length = 9 := by decide
  simp only [List.forall_mem_cons, List.not_mem_nil, IsEmpty.forall_iff, implies_true, and_true]
  have hlast : ('{' :: (hyphenated groups digits ++ ['}'])).getLast? = some '}' :=
    List.getLast?_concat (l := '{' :: hyphenated groups digits)
  refine ⟨if_pos h, ?_, ?_, ?_⟩
  · simp [digits?, hlength, hread]
  · simp [digits?, hlength, hread, hlast, List.take_left' hlength]
  · simp [digits?, hlength, hread, hspace]

/-- Digits of either case are read, in each form, as the identity of their number. -/
theorem ofText?_forms {id : MessageId} {digits : List Char} (h : digits.length = 32)
    (hvalue : number? 16 digits = some id.number.toNat) :
    ∀ form ∈ [digits, hyphenated groups digits, '{' :: hyphenated groups digits ++ ['}'],
      nameSpace ++ hyphenated groups digits], ofText? (.ofList form) = some id := by
  intro form hform
  rw [ofText?, String.toList_ofList, digits?_forms h form hform, Option.bind_eq_bind,
    Option.bind_some, hvalue, Option.bind_eq_bind, Option.bind_some, BitVec.ofNat_toNat,
    BitVec.setWidth_eq]
  rfl

/-- **An identity is read back.** -/
theorem ofText?_toText (id : MessageId) : ofText? id.toText = some id :=
  ofText?_forms (length_fixed ..)
    (number?_fixed (by decide) (by decide) (Nat.lt_of_lt_of_eq id.number.isLt (by decide))) _
    (List.mem_cons_of_mem _ List.mem_cons_self)

end ShortMessage.MessageId

import Mathlib.Algebra.GroupWithZero.Nat
import ShortMessage.Utf16

/-!
# Wide units read back

A character is one code unit outside the range of surrogates, or a high and a low surrogate.  So the
units of a text can be read from the left without a doubt, and its octets read back as the text
(`decode?_encode`).  There are two octets for each unit (`length_encode`).

* `unitsOf?_flatMap`: units from octets;
* `ofUnits?_append`: the units of one character, read before others.
-/

namespace ShortMessage.Utf16

/-! ### The numbers of characters -/

theorem toNat_cases (c : Char) :
    c.toNat < 0xD800 ∨ (0xDFFF < c.toNat ∧ c.toNat < 0x110000) :=
  c.valid

theorem scalar?_toNat (c : Char) : scalar? c.toNat = some c := by
  have hvalid : c.toNat.isValidChar := c.valid
  unfold scalar?
  rw [dif_pos hvalid]
  rfl

theorem lt_of_mem_units {c : Char} {u : Nat} (h : u ∈ units c) : u < 0x10000 := by
  have hc := toNat_cases c
  unfold units at h
  simp only at h
  split at h
  · next hlt =>
    obtain rfl := List.mem_singleton.1 h
    exact hlt
  · simp only [List.mem_cons, List.not_mem_nil, or_false] at h
    rcases h with h | h <;> omega

theorem length_units (c : Char) : (units c).length = unitCount c := by
  unfold units unitCount
  simp only
  split <;> rfl

/-! ### Octets -/

theorem unitsOf?_append {u : Nat} (hu : u < 0x10000) (rest : Octets) :
    unitsOf? (unitOctets u ++ rest) = (unitsOf? rest).map (u :: ·) := by
  have hback : 256 * (u / 256).toUInt8.toNat + (u % 256).toUInt8.toNat = u := by
    simp only [Nat.toUInt8_eq, UInt8.toNat_ofNat']
    omega
  show unitsOf? ((u / 256).toUInt8 :: (u % 256).toUInt8 :: rest) = _
  rw [unitsOf?, hback]

theorem unitsOf?_flatMap {us : List Nat} (h : ∀ u ∈ us, u < 0x10000) :
    unitsOf? (us.flatMap unitOctets) = some us := by
  induction us with
  | nil => rfl
  | cons u us ih =>
    have hu := h u List.mem_cons_self
    rw [List.flatMap_cons, unitsOf?_append hu, ih fun v hv => h v (List.mem_cons_of_mem _ hv)]
    rfl

theorem encode_eq (text : List Char) : encode text = (text.flatMap units).flatMap unitOctets := by
  unfold encode
  rw [List.flatMap_assoc]

/-! ### Units -/

/-- **The units of a character**, read before others, give the character. -/
theorem ofUnits?_append (c : Char) (rest : List Nat) :
    ofUnits? (units c ++ rest) = (ofUnits? rest).map (c :: ·) := by
  have hc := toNat_cases c
  unfold units
  simp only
  split
  · -- a unit of its own is no surrogate
    next hlt =>
    have hno : ¬ (0xD800 ≤ c.toNat ∧ c.toNat < 0xDC00) := by omega
    rw [List.singleton_append, ofUnits?.eq_def]
    simp only [if_neg hno, scalar?_toNat, Option.bind_eq_bind, Option.bind_some]
    cases ofUnits? rest <;> rfl
  · next hge =>
    have hhigh : 0xD800 ≤ 0xD800 + (c.toNat - 0x10000) / 0x400 ∧
        0xD800 + (c.toNat - 0x10000) / 0x400 < 0xDC00 := by omega
    have hlow : 0xDC00 ≤ 0xDC00 + (c.toNat - 0x10000) % 0x400 ∧
        0xDC00 + (c.toNat - 0x10000) % 0x400 < 0xE000 := by omega
    have hback : 0x10000 + (0xD800 + (c.toNat - 0x10000) / 0x400 - 0xD800) * 0x400 +
        (0xDC00 + (c.toNat - 0x10000) % 0x400 - 0xDC00) = c.toNat := by omega
    rw [List.cons_append, List.singleton_append, ofUnits?.eq_def]
    simp only [if_pos hhigh, if_pos hlow, hback, scalar?_toNat, Option.bind_eq_bind,
      Option.bind_some]
    cases ofUnits? rest <;> rfl

theorem ofUnits?_flatMap (text : List Char) : ofUnits? (text.flatMap units) = some text := by
  induction text with
  | nil => rfl
  | cons c cs ih =>
    rw [List.flatMap_cons, ofUnits?_append, ih]
    rfl

/-! ### Texts -/

/-- **The octets of a text read back as the text.** -/
theorem decode?_encode (text : List Char) : decode? (encode text) = some text := by
  have hunits : ∀ u ∈ text.flatMap units, u < 0x10000 := by
    intro u hu
    obtain ⟨c, -, hc⟩ := List.mem_flatMap.1 hu
    exact lt_of_mem_units hc
  unfold decode?
  rw [encode_eq, unitsOf?_flatMap hunits, Option.bind_some, ofUnits?_flatMap]

theorem length_encode (text : List Char) :
    (encode text).length = 2 * (text.map unitCount).sum := by
  have hoctets : ∀ us : List Nat, (us.flatMap unitOctets).length = 2 * us.length := by
    intro us
    induction us with
    | nil => rfl
    | cons u us ih =>
      have htwo : (unitOctets u).length = 2 := rfl
      rw [List.flatMap_cons, List.length_append, ih, List.length_cons, htwo]
      omega
  have hunits : (text.flatMap units).length = (text.map unitCount).sum := by
    rw [List.length_flatMap]
    simp only [length_units]
  rw [encode_eq, hoctets, hunits]

end ShortMessage.Utf16

import Mathlib.Data.List.Nodup
import ShortMessage.Json.Form

/-!
# Faithful forms

A form is faithful to a kind of value if each such value is read back from what it is written as,
and nothing else is ever read.  Then whatever is read, in whichever spelling, has one written form,
which is read as the same value.

* `Faithful`, `RoundTrips`, `Faithful.roundTrips`: the property, and what follows from it;
* `faithful_nat`, `faithful_list`, `faithful_option`, ..: forms of small values;
* `NamesRoundTrip`, `Spelling.namesRoundTrip`: forms of closed lists of names;
* `Json.row?_object`, `Json.row?_list`, `Json.row?_object_congr`: the fields of a record by name, by
  place, and among others;
* `RecordRoundTrips`, `RecordRoundTrips.of_row`: forms of records.
-/

namespace ShortMessage

open JsonForm

/-- **A form is faithful** to the values that fit: they are read back, and no others are read. -/
structure Faithful (α : Type) [JsonForm α] (fits : α → Prop) : Prop where
  read_write : ∀ a, fits a → read? (write a) = some a
  fits_of_read : ∀ value, ∀ a : α, read? value = some a → fits a

/-- **Reading and writing undo each other**: besides, whatever is read is written in a form that is
read as the same value and written as it stands. -/
structure RoundTrips (α : Type) [JsonForm α] (fits : α → Prop) : Prop extends Faithful α fits where
  canonical : ∀ value, ∀ a : α, read? value = some a →
    Json.canonical? α value = some (write a) ∧ read? (write a) = some a ∧
      Json.canonical? α (write a) = some (write a)

section

variable {α : Type} [JsonForm α] {fits others : α → Prop}

theorem Faithful.roundTrips (h : Faithful α fits) : RoundTrips α fits where
  toFaithful := h
  canonical value a hread := by
    have hback := h.read_write a (h.fits_of_read value a hread)
    refine ⟨?_, hback, ?_⟩
    · rw [Json.canonical?, hread, Option.map_some]
    · rw [Json.canonical?, hback, Option.map_some]

theorem Faithful.congr (h : Faithful α fits) (hiff : ∀ a, others a ↔ fits a) :
    Faithful α others where
  read_write a ha := h.read_write a ((hiff a).1 ha)
  fits_of_read value a hread := (hiff a).2 (h.fits_of_read value a hread)

end

/-! ### Small values -/

namespace Json

theorem integer?_eq_some_iff {low high n : Int} {value : Json} :
    value.integer? low high = some n ↔ value = .integer n ∧ low ≤ n ∧ n ≤ high := by
  cases value with
  | integer m =>
    simp only [integer?, Option.ite_none_right_eq_some, Option.some.injEq, integer.injEq]
    constructor
    · rintro ⟨hm, rfl⟩
      exact ⟨rfl, hm⟩
    · rintro ⟨rfl, hm⟩
      exact ⟨hm, rfl⟩
  | _ => simp [integer?]

theorem count?_eq_some_iff {high n : Nat} {value : Json} :
    value.count? high = some n ↔ value = .integer n ∧ n ≤ high := by
  simp only [count?, Option.map_eq_some_iff, integer?_eq_some_iff]
  constructor
  · rintro ⟨m, ⟨rfl, hlow, hhigh⟩, rfl⟩
    rw [Int.toNat_of_nonneg hlow]
    exact ⟨rfl, by omega⟩
  · rintro ⟨rfl, hn⟩
    exact ⟨n, ⟨rfl, by omega, by omega⟩, rfl⟩

end Json

theorem faithful_bool : Faithful Bool fun _ => True :=
  ⟨fun _ _ => rfl, fun _ _ _ => trivial⟩

theorem faithful_string : Faithful String fun _ => True :=
  ⟨fun _ _ => rfl, fun _ _ _ => trivial⟩

theorem faithful_nat : Faithful Nat (· < 0x10000000000000000) where
  read_write _ hn := Json.count?_eq_some_iff.2 ⟨rfl, Nat.le_of_lt_succ hn⟩
  fits_of_read _ _ h := Nat.lt_succ_of_le (Json.count?_eq_some_iff.1 h).2

theorem faithful_uint8 : Faithful UInt8 fun _ => True where
  read_write n _ := by
    show (Json.count? 0xFF (.integer n.toNat)).map UInt8.ofNat = some n
    rw [Json.count?_eq_some_iff.2 ⟨rfl, Nat.le_of_lt_succ n.toNat_lt⟩, Option.map_some,
      UInt8.ofNat_toNat]
  fits_of_read _ _ _ := trivial

theorem faithful_uint16 : Faithful UInt16 fun _ => True where
  read_write n _ := by
    show (Json.count? 0xFFFF (.integer n.toNat)).map UInt16.ofNat = some n
    rw [Json.count?_eq_some_iff.2 ⟨rfl, Nat.le_of_lt_succ n.toNat_lt⟩, Option.map_some,
      UInt16.ofNat_toNat]
  fits_of_read _ _ _ := trivial

section

variable {α : Type} [JsonForm α] {fits : α → Prop}

theorem faithful_list (h : Faithful α fits) : Faithful (List α) fun l => ∀ a ∈ l, fits a where
  read_write l hl := by
    show (l.map write).mapM read? = some l
    induction l with
    | nil => rfl
    | cons a l ih =>
      obtain ⟨ha, hl⟩ := List.forall_mem_cons.1 hl
      simp [h.read_write a ha, ih hl]
  fits_of_read value l hread := by
    cases value with
    | list values =>
      replace hread : values.mapM read? = some l := hread
      induction values generalizing l with
      | nil =>
        cases hread
        simp
      | cons value values ih =>
        simp only [List.mapM_cons, Option.bind_eq_bind, Option.bind_eq_some_iff] at hread
        obtain ⟨a, ha, rest, hrest, heq⟩ := hread
        cases heq
        exact List.forall_mem_cons.2 ⟨h.fits_of_read value a ha, ih rest hrest⟩
    | _ => cases hread

theorem read?_option_of_ne_null {value : Json} (h : value ≠ .null) :
    (read? value : Option (Option α)) = (read? value : Option α).map some := by
  cases value with
  | null => exact absurd rfl h
  | _ => rfl

/-- An absent value is null, so no present one may be written as null. -/
theorem faithful_option (h : Faithful α fits) (hnull : ∀ a : α, write a ≠ .null) :
    Faithful (Option α) fun o => ∀ a ∈ o, fits a where
  read_write o ho := by
    cases o with
    | none => rfl
    | some a =>
      show (read? (write a) : Option (Option α)) = some (some a)
      rw [read?_option_of_ne_null (hnull a), h.read_write a (ho a rfl), Option.map_some]
  fits_of_read value o hread := by
    rintro a rfl
    by_cases hvalue : value = .null
    · subst hvalue
      cases hread
    · rw [read?_option_of_ne_null hvalue, Option.map_eq_some_iff] at hread
      obtain ⟨b, hb, heq⟩ := hread
      exact Option.some.inj heq ▸ h.fits_of_read value b hb

end

/-! ### Names -/

/-- A closed list of names: a name may also be the only field of an object. -/
structure NamesRoundTrip (α : Type) [JsonForm α] : Prop extends RoundTrips α fun _ => True where
  as_object : ∀ name, (read? (.object [(name, .null)]) : Option α) = read? (.text name)

theorem Spelling.namesRoundTrip {α : Type} (s : Spelling α)
    (h : ∀ a, s.named? (s.name a) = some a) :
    @NamesRoundTrip α s.form :=
  letI := s.form
  have hfaithful : Faithful α fun _ => True := ⟨fun a _ => h a, fun _ _ _ => trivial⟩
  ⟨hfaithful.roundTrips, fun _ => rfl⟩

/-! ### Records -/

namespace Json

theorem mapM_eq_of_forall_mem {β γ : Type} {f g : β → Option γ} {l : List β}
    (h : ∀ b ∈ l, f b = g b) : l.mapM f = l.mapM g := by
  induction l with
  | nil => rfl
  | cons b l ih =>
    obtain ⟨hb, hl⟩ := List.forall_mem_cons.1 h
    simp [hb, ih hl]

theorem row?_object_congr {names : List String} {least : Nat} {fields others : List (String × Json)}
    (h : ∀ name ∈ names, field? fields name = field? others name) :
    row? names least (.object fields) = row? names least (.object others) :=
  mapM_eq_of_forall_mem h

theorem field?_nil (name : String) : field? [] name = some .null := rfl

theorem field?_cons_of_ne {key name : String} (h : key ≠ name) (value : Json)
    (fields : List (String × Json)) :
    field? ((key, value) :: fields) name = field? fields name := by
  rw [field?, field?, List.filter_cons_of_neg (by simpa using h)]

theorem field?_zip_cons {name : String} {names : List String} (h : name ∉ names) (value : Json)
    (values : List Json) : field? ((name, value) :: names.zip values) name = some value := by
  have hnone : (names.zip values).filter (·.1 = name) = [] := by
    refine List.filter_eq_nil_iff.2 fun field hfield heq => h ?_
    exact of_decide_eq_true heq ▸ (List.of_mem_zip hfield).1
  rw [field?, List.filter_cons_of_pos (by simp), hnone]

/-- **The fields of a record by name**: of those that are not there the values are null. -/
theorem row?_object {names : List String} (hnames : names.Nodup) (least : Nat) {values : List Json}
    (h : values.length ≤ names.length) :
    row? names least (.object (names.zip values)) =
      some (values ++ List.replicate (names.length - values.length) .null) := by
  show names.mapM (field? (names.zip values)) = _
  induction names generalizing values with
  | nil =>
    rw [List.length_eq_zero_iff.1 (Nat.le_zero.1 h)]
    rfl
  | cons name names ih =>
    obtain ⟨hname, hnames⟩ := List.nodup_cons.1 hnames
    cases values with
    | nil =>
      have hrest := @ih hnames [] (Nat.zero_le _)
      rw [List.zip_nil_right] at hrest ⊢
      simp [field?_nil, hrest, List.replicate_succ]
    | cons value values =>
      have hrest : names.mapM (field? ((name, value) :: names.zip values)) =
          names.mapM (field? (names.zip values)) :=
        mapM_eq_of_forall_mem fun other hother =>
          field?_cons_of_ne (ne_of_mem_of_not_mem hother hname).symm _ _
      simp [field?_zip_cons hname, hrest, ih hnames (Nat.le_of_succ_le_succ h)]

/-- **The fields of a record by place** are those by name. -/
theorem row?_list {names : List String} (hnames : names.Nodup) {least : Nat} {values : List Json}
    (hleast : least ≤ values.length) (h : values.length ≤ names.length) :
    row? names least (.list values) = row? names least (.object (names.zip values)) := by
  rw [row?_object hnames least h]
  exact if_pos ⟨hleast, h⟩

end Json

/-- A record: its fields may also stand in a list, and in an object only those that are named
matter, of which an absent one is null. -/
structure RecordRoundTrips (α : Type) [JsonForm α] (fits : α → Prop) (names : List String)
    (least : Nat) : Prop extends RoundTrips α fits where
  by_place : ∀ values : List Json, least ≤ values.length → values.length ≤ names.length →
    (read? (.list values) : Option α) = read? (.object (names.zip values))
  by_name : ∀ fields others : List (String × Json),
    (∀ name ∈ names, Json.field? fields name = Json.field? others name) →
      (read? (.object fields) : Option α) = read? (.object others)

/-- **The form of a record round-trips** if its cells are read one by one. -/
theorem RecordRoundTrips.of_row {α : Type} [JsonForm α] {fits : α → Prop} (names : List String)
    (least : Nat) (cells : α → List Json) {parse : List Json → Option α} (hnames : names.Nodup)
    (hcells : ∀ a, (cells a).length ≤ names.length)
    (hwrite : ∀ a, write a = .object (names.zip (cells a)))
    (hread : ∀ value, read? value = (Json.row? names least value).bind parse)
    (hparse : ∀ a, fits a →
      parse (cells a ++ List.replicate (names.length - (cells a).length) .null) = some a)
    (hfits : ∀ values a, parse values = some a → fits a) :
    RecordRoundTrips α fits names least := by
  have hfaithful : Faithful α fits := by
    refine ⟨fun a ha => ?_, fun value a h => ?_⟩
    · rw [hread, hwrite, Json.row?_object hnames least (hcells a), Option.bind_some, hparse a ha]
    · rw [hread, Option.bind_eq_some_iff] at h
      obtain ⟨values, -, hvalues⟩ := h
      exact hfits values a hvalues
  refine ⟨hfaithful.roundTrips, fun values hleast hmost => ?_, fun fields others h => ?_⟩
  · rw [hread, hread, Json.row?_list hnames hleast hmost]
  · rw [hread, hread, Json.row?_object_congr h]

end ShortMessage

import ShortMessage.Dispatcher.Storage
import ShortMessage.Proofs.Card.Slots

/-!
# Requests for the card

The dispatcher looks at a request for the card before the card does, and each of the two finds
faults of its own.  What a caller got wrong, in either of them, is a failure; where the card has no
slot for the request, the answer is no.  Only the answer yes leaves a trace, in one slot.

* `CardRequest`, `atCard`: copies to the card, updates and deletions;
* `CardRequest.Faulty`, `CardRequest.Hopeless`: what a caller got wrong, and when there is no slot;
* `CardRequest.Puts`: the slot that a request puts down;
* `CardLaw`, with one case for each answer; `copy_law`, `update_law`, `delete_law`;
* `card_answers`: every request is answered by this law, and an update to free is a deletion;
* `cardLaw_of_opened`: so is every request to a card that was opened, after any others.
-/

namespace ShortMessage

/-! ### What is asked first -/

theorem RecordStatus.ofCode_cases (code : Int) :
    (∃ s : RecordStatus, ofCode code = .ok s ∧ (s.code : Int) = code) ∨
      (ofCode code = .error (.invalidArgument (.unknownStatus code)) ∧
        code ∉ ([0, 1, 3, 5, 7] : List Int)) := by
  by_cases hmem : code ∈ ([0, 1, 3, 5, 7] : List Int)
  · refine Or.inl ?_
    simp only [List.mem_cons, List.not_mem_nil, or_false] at hmem
    rcases hmem with rfl | rfl | rfl | rfl | rfl
    · exact ⟨.free, rfl, rfl⟩
    · exact ⟨.read, rfl, rfl⟩
    · exact ⟨.unread, rfl, rfl⟩
    · exact ⟨.sent, rfl, rfl⟩
    · exact ⟨.unsent, rfl, rfl⟩
  · refine Or.inr ⟨?_, hmem⟩
    have hnone : ofCode? code = none := by
      unfold ofCode?
      split <;> first | rfl | exact absurd (by decide) hmem
    simp only [ofCode, hnone]

theorem RecordStatus.code_mem (s : RecordStatus) :
    (s.code : Int) ∈ ([0, 1, 3, 5, 7] : List Int) := by
  cases s <;> decide

theorem RecordStatus.code_mem_iff (s : RecordStatus) :
    (s.code : Int) ∈ ([1, 3, 5, 7] : List Int) ↔ s ≠ .free := by
  cases s <;> decide

theorem RecordStatus.code_ne_zero {s : RecordStatus} (hs : s ≠ .free) : (s.code : Int) ≠ 0 := by
  cases s <;> simp [code] at hs ⊢

theorem RecordStatus.isFree_eq_false {s : RecordStatus} (hs : s ≠ .free) : s.isFree = false :=
  decide_eq_false hs

theorem acceptUpdate_of_outside {index capacity size : Nat} {status : RecordStatus}
    {record : Octets} (h : ¬ (1 ≤ index ∧ index ≤ capacity)) :
    acceptUpdate index capacity status record size = .error (.notFound index) := by
  have hcheck : checkIndex index capacity = .error (.notFound index) := if_pos (by omega)
  rw [acceptUpdate, hcheck]
  rfl

theorem acceptUpdate_of_long {index capacity size : Nat} {status : RecordStatus} {record : Octets}
    (h : 1 ≤ index ∧ index ≤ capacity) (hs : status ≠ .free) (hrecord : record ≠ [])
    (hlong : size < record.length) :
    acceptUpdate index capacity status record size =
      .error (.invalidArgument (.recordTooLong record.length size)) := by
  have hcheck : checkRecord record size =
      .error (.invalidArgument (.recordTooLong record.length size)) := by
    unfold checkRecord
    rw [if_neg (by simpa using hrecord), if_pos hlong]
  rw [acceptUpdate, checkIndex_eq_ok_iff.2 h, RecordStatus.isFree_eq_false hs, hcheck]
  rfl

namespace Dispatcher

variable {σ : Type}

theorem cardRecord_ne_nil (serviceCentre : Option Octets) (pdu : Octets) :
    cardRecord serviceCentre pdu ≠ [] := by
  unfold cardRecord
  split <;> simp

theorem length_cardRecord (serviceCentre : Option Octets) (pdu : Octets) :
    (cardRecord serviceCentre pdu).length = max 1 (serviceCentre.getD []).length + pdu.length := by
  unfold cardRecord
  split
  · simp only [Option.getD_some, List.cons_append, List.length_cons, List.length_append]
    omega
  · next h =>
    have hempty : serviceCentre.getD [] = [] := by
      cases serviceCentre with
      | none => rfl
      | some address =>
        cases address with
        | nil => rfl
        | cons a address => exact absurd rfl (h a address)
    simp only [hempty, List.length_cons, List.length_nil]
    omega

/-! ### Requests -/

/-- A request for the card. -/
inductive CardRequest
  | copy (serviceCentre : Option Octets) (pdu : Octets) (status : Int)
  | update (index : Nat) (status : Int) (pdu : Octets)
  | delete (index : Nat)

/-- **What a dispatcher answers** to a request for its card. -/
def atCard (d : Dispatcher σ) : CardRequest → Except Failure Bool × Dispatcher σ
  | .copy serviceCentre pdu status => d.copyToCard serviceCentre pdu status
  | .update index status pdu => d.updateOnCard index status pdu
  | .delete index => d.deleteFromCard index

/-- The slots of a card, from one to its capacity. -/
def CardRequest.Within (c : Card) (index : Nat) : Prop :=
  1 ≤ index ∧ index ≤ c.capacity

instance (c : Card) : DecidablePred (CardRequest.Within c) := fun index =>
  inferInstanceAs (Decidable (1 ≤ index ∧ index ≤ c.capacity))

/-- **What a caller got wrong**: the PDU, the status number, or the length of the record.  An update
is not looked at more closely than its status and its slot ask for. -/
def CardRequest.Faulty (c : Card) : CardRequest → Prop
  | .copy serviceCentre pdu status =>
    pdu = [] ∨ status ∉ ([1, 3, 5, 7] : List Int) ∨
      c.recordSize < max 1 (serviceCentre.getD []).length + pdu.length
  | .update index status pdu =>
    status ∉ ([0, 1, 3, 5, 7] : List Int) ∨
      (status ≠ 0 ∧ (pdu = [] ∨ (Within c index ∧ c.recordSize < pdu.length)))
  | .delete _ => False

instance (c : Card) : DecidablePred (CardRequest.Faulty c)
  | .copy serviceCentre pdu status =>
    inferInstanceAs (Decidable (pdu = [] ∨ status ∉ ([1, 3, 5, 7] : List Int) ∨
      c.recordSize < max 1 (serviceCentre.getD []).length + pdu.length))
  | .update index status pdu =>
    inferInstanceAs (Decidable (status ∉ ([0, 1, 3, 5, 7] : List Int) ∨
      (status ≠ 0 ∧ (pdu = [] ∨ (CardRequest.Within c index ∧ c.recordSize < pdu.length)))))
  | .delete _ => inferInstanceAs (Decidable False)

/-- **The card has no slot for a request**: it is full, or no slot has the index. -/
def CardRequest.Hopeless (c : Card) : CardRequest → Prop
  | .copy .. => c.freeIndices = []
  | .update index .. | .delete index => ¬ Within c index

instance (c : Card) : DecidablePred (CardRequest.Hopeless c)
  | .copy .. => inferInstanceAs (Decidable (c.freeIndices = []))
  | .update index .. | .delete index =>
    inferInstanceAs (Decidable (¬ CardRequest.Within c index))

/-- A service centre's address as it stands on the card; a zero octet stands for none. -/
def cardAddress (serviceCentre : Option Octets) : Octets :=
  if serviceCentre.getD [] = [] then [0x00] else serviceCentre.getD []

/-- **The slot that a request puts down**: a copy takes the lowest free one. -/
inductive CardRequest.Puts (c : Card) : CardRequest → CardRecord → Prop
  | copy {serviceCentre : Option Octets} {pdu : Octets} {k : Nat} (s : RecordStatus)
      (hlowest : IsLeast {i | i ∈ c.freeIndices} k) :
    Puts c (.copy serviceCentre pdu s.code)
      ⟨k, s, fillUp (cardAddress serviceCentre ++ pdu) c.recordSize⟩
  | update {index : Nat} {pdu : Octets} (s : RecordStatus) (hs : s ≠ .free) :
    Puts c (.update index s.code pdu) ⟨index, s, fillUp pdu c.recordSize⟩
  | free {index : Nat} {pdu : Octets} :
    Puts c (.update index 0 pdu) (.erased index c.recordSize)
  | delete {index : Nat} : Puts c (.delete index) (.erased index c.recordSize)

/-- **How a request for the card is answered**, and what it leaves. -/
structure CardLaw (d : Dispatcher σ) (r : CardRequest) : Prop where
  refused_iff : (∃ cause, (d.atCard r).1 = .error (.invalidArgument cause)) ↔ r.Faulty d.card
  no_iff : (d.atCard r).1 = .ok false ↔ ¬ r.Faulty d.card ∧ r.Hopeless d.card
  yes_iff : (d.atCard r).1 = .ok true ↔ ¬ r.Faulty d.card ∧ ¬ r.Hopeless d.card
  kept : (d.atCard r).1 ≠ .ok true → (d.atCard r).2 = d
  puts : (d.atCard r).1 = .ok true → ∃ x c', r.Puts d.card x ∧ d.card.Replaces x c' ∧
    (d.atCard r).2 = { d with card := c' }
  numbered : (d.atCard r).2.card.Numbered

namespace CardLaw

variable {d : Dispatcher σ} {r : CardRequest}

theorem of_refused (hd : d.card.Numbered) (cause : BadArgument) (hfault : r.Faulty d.card)
    (h : d.atCard r = (.error (.invalidArgument cause), d)) : d.CardLaw r where
  refused_iff := by
    rw [h]
    exact ⟨fun _ => hfault, fun _ => ⟨cause, rfl⟩⟩
  no_iff := by
    rw [h]
    exact ⟨fun hno => (nomatch hno), fun hboth => absurd hfault hboth.1⟩
  yes_iff := by
    rw [h]
    exact ⟨fun hyes => (nomatch hyes), fun hboth => absurd hfault hboth.1⟩
  kept := by
    rw [h]
    exact fun _ => rfl
  puts := by
    rw [h]
    exact fun hyes => (nomatch hyes)
  numbered := by
    rw [h]
    exact hd

theorem of_no (hd : d.card.Numbered) (hfault : ¬ r.Faulty d.card) (hhope : r.Hopeless d.card)
    (h : d.atCard r = (.ok false, d)) : d.CardLaw r where
  refused_iff := by
    rw [h]
    exact ⟨fun ⟨_, hrefused⟩ => (nomatch hrefused), fun hyes => absurd hyes hfault⟩
  no_iff := by
    rw [h]
    exact ⟨fun _ => ⟨hfault, hhope⟩, fun _ => rfl⟩
  yes_iff := by
    rw [h]
    exact ⟨fun hyes => (nomatch hyes), fun hboth => absurd hhope hboth.2⟩
  kept := by
    rw [h]
    exact fun _ => rfl
  puts := by
    rw [h]
    exact fun hyes => (nomatch hyes)
  numbered := by
    rw [h]
    exact hd

theorem of_yes {x : CardRecord} {c' : Card} (hfault : ¬ r.Faulty d.card)
    (hhope : ¬ r.Hopeless d.card) (hputs : r.Puts d.card x) (hreplaces : d.card.Replaces x c')
    (hc' : c'.Numbered) (h : d.atCard r = (.ok true, { d with card := c' })) : d.CardLaw r where
  refused_iff := by
    rw [h]
    exact ⟨fun ⟨_, hrefused⟩ => (nomatch hrefused), fun hyes => absurd hyes hfault⟩
  no_iff := by
    rw [h]
    exact ⟨fun hno => (nomatch hno), fun hboth => absurd hboth.2 hhope⟩
  yes_iff := by
    rw [h]
    exact ⟨fun _ => ⟨hfault, hhope⟩, fun _ => rfl⟩
  kept := by
    rw [h]
    exact fun hno => absurd rfl hno
  puts := by
    rw [h]
    exact fun _ => ⟨x, c', hputs, hreplaces, rfl⟩
  numbered := by
    rw [h]
    exact hc'

end CardLaw

/-! ### The three kinds of requests -/

section requests

variable {d : Dispatcher σ}

theorem not_mem_of_not_mem_zero {status : Int} (h : status ∉ ([0, 1, 3, 5, 7] : List Int)) :
    status ∉ ([1, 3, 5, 7] : List Int) :=
  fun hmem => h (List.mem_cons_of_mem 0 hmem)

theorem checkCopy_of_status {pdu : Octets} {s : RecordStatus} (hpdu : pdu ≠ [])
    (hs : s ≠ .free) (hcode : RecordStatus.ofCode s.code = .ok s) :
    checkCopy pdu s.code = .ok s := by
  unfold checkCopy
  rw [if_neg (by simpa using hpdu), hcode]
  show (if s.isFree = true then _ else _) = _
  rw [RecordStatus.isFree_eq_false hs]
  rfl

theorem cardRecord_eq (serviceCentre : Option Octets) (pdu : Octets) :
    cardRecord serviceCentre pdu = cardAddress serviceCentre ++ pdu := by
  cases serviceCentre with
  | none => rfl
  | some address => cases address <;> rfl

/-- A copy that the dispatcher passes on: of its faults the card can find the length only. -/
theorem copy_law_of_check (hd : d.card.Numbered) {serviceCentre : Option Octets} {pdu : Octets}
    {s : RecordStatus} (hpdu : pdu ≠ []) (hs : s ≠ .free)
    (hcheck : checkCopy pdu s.code = .ok s) : d.CardLaw (.copy serviceCentre pdu s.code) := by
  by_cases hlen : (cardRecord serviceCentre pdu).length ≤ d.card.recordSize
  · have hw : (Card.Write.mk (cardRecord serviceCentre pdu) s).Valid d.card.recordSize :=
      ⟨hs, cardRecord_ne_nil _ _, hlen⟩
    rw [length_cardRecord] at hlen
    have hfault : ¬ (CardRequest.copy serviceCentre pdu s.code).Faulty d.card := by
      rintro (h | h | h)
      · exact hpdu h
      · exact h (s.code_mem_iff.2 hs)
      · omega
    cases hfree : d.card.freeIndices with
    | nil =>
      refine .of_no hd hfault hfree ?_
      simp only [atCard, copyToCard, hcheck, Card.write_of_full hw hd hfree]
      rfl
    | cons k ks =>
      obtain ⟨c', hwrite, hreplaces, hc', -⟩ := Card.write_of_free hw hd hfree
      have hlowest := hd.isLeast_freeIndices hfree
      rw [Card.Write.slot, cardRecord_eq] at hreplaces
      refine .of_yes hfault (fun hnone => ?_) (.copy s hlowest) hreplaces hc' ?_
      · rw [CardRequest.Hopeless, hfree] at hnone
        cases hnone
      · simp only [atCard, copyToCard, hcheck, hwrite]
        rfl
  · have hw : ¬ (Card.Write.mk (cardRecord serviceCentre pdu) s).Valid d.card.recordSize :=
      fun hvalid => hlen hvalid.2.2
    obtain ⟨cause, hwrite⟩ := Card.write_of_invalid hw
    rw [length_cardRecord] at hlen
    refine .of_refused hd cause (Or.inr (Or.inr (Nat.not_le.1 hlen))) ?_
    simp only [atCard, copyToCard, hcheck, hwrite]
    rfl

/-- **Copies**: the PDU is looked at first, then the status, and the length by the card. -/
theorem copy_law (hd : d.card.Numbered) (serviceCentre : Option Octets) (pdu : Octets)
    (status : Int) : d.CardLaw (.copy serviceCentre pdu status) := by
  by_cases hpdu : pdu = []
  · refine .of_refused hd .noPdu (Or.inl hpdu) ?_
    subst hpdu
    rfl
  have hempty : pdu.isEmpty = false := by simpa using hpdu
  rcases RecordStatus.ofCode_cases status with ⟨s, hcode, rfl⟩ | ⟨hcode, hnot⟩
  · by_cases hs : s = .free
    · refine .of_refused hd .freeOnCard (Or.inr (Or.inl ?_)) ?_
      · exact fun hmem => s.code_mem_iff.1 hmem hs
      · subst hs
        simp only [atCard, copyToCard, checkCopy, hempty]
        rfl
    · exact copy_law_of_check hd hpdu hs (checkCopy_of_status hpdu hs hcode)
  · refine .of_refused hd (.unknownStatus status)
      (Or.inr (Or.inl (not_mem_of_not_mem_zero hnot))) ?_
    simp only [atCard, copyToCard, checkCopy, hempty, hcode]
    rfl

/-- **Deletions** look at nothing but the slot. -/
theorem delete_law (hd : d.card.Numbered) (index : Nat) : d.CardLaw (.delete index) := by
  rcases d.card.erase_cases index with ⟨e, hcheck, herase⟩ | ⟨hcheck, herase⟩
  · have hout : ¬ CardRequest.Within d.card index := fun hwithin => by
      rw [checkIndex_eq_ok_iff.2 hwithin] at hcheck
      cases hcheck
    obtain rfl : Failure.notFound index = e := by
      unfold checkIndex at hcheck
      split at hcheck
      · exact Except.error.inj hcheck
      · cases hcheck
    refine .of_no hd (fun hfault => hfault) hout ?_
    simp only [atCard, deleteFromCard, herase]
    rfl
  · have hwithin := checkIndex_eq_ok_iff.1 hcheck
    refine .of_yes (fun hfault => hfault) (fun hout => hout hwithin) .delete
      (hd.replaces_put (Or.inl hwithin.1) _ _) (hd.put (Or.inl (Int.ofNat_lt.2 hwithin.1)) _ _) ?_
    simp only [atCard, deleteFromCard, herase]
    rfl

theorem atCard_update_free (d : Dispatcher σ) (index : Nat) (pdu : Octets) :
    d.atCard (.update index 0 pdu) = d.atCard (.delete index) := rfl

theorem CardLaw.update_free {index : Nat} (h : d.CardLaw (.delete index)) (pdu : Octets) :
    d.CardLaw (.update index 0 pdu) := by
  have hfaulty : (CardRequest.delete index).Faulty d.card ↔
      (CardRequest.update index 0 pdu).Faulty d.card := by
    refine ⟨False.elim, fun hfault => ?_⟩
    rcases hfault with hcode | hzero
    · exact hcode List.mem_cons_self
    · exact hzero.1 rfl
  refine ⟨h.refused_iff.trans hfaulty, h.no_iff.trans ?_, h.yes_iff.trans ?_, h.kept,
    fun hok => ?_, h.numbered⟩
  · exact and_congr_left fun _ => not_congr hfaulty
  · exact and_congr_left fun _ => not_congr hfaulty
  · obtain ⟨x, c', hx, hreplaces, hd'⟩ := h.puts hok
    cases hx
    exact ⟨_, c', .free, hreplaces, hd'⟩

theorem update_law_of_status (hd : d.card.Numbered) {index : Nat} {s : RecordStatus} {pdu : Octets}
    (hpdu : pdu ≠ []) (hs : s ≠ .free) (hcode : RecordStatus.ofCode s.code = .ok s) :
    d.CardLaw (.update index s.code pdu) := by
  have hempty : pdu.isEmpty = false := by simpa using hpdu
  have hanswer : d.atCard (.update index s.code pdu) =
      (cardAnswer (d.card.update index s pdu).1,
        { d with card := (d.card.update index s pdu).2 }) := by
    simp only [atCard, updateOnCard, hcode, RecordStatus.isFree_eq_false hs, hempty]
    rfl
  have hfaulty : (CardRequest.update index s.code pdu).Faulty d.card ↔
      CardRequest.Within d.card index ∧ d.card.recordSize < pdu.length := by
    simp only [CardRequest.Faulty, s.code_mem, RecordStatus.code_ne_zero hs, hpdu, not_true,
      false_or, ne_eq, not_false_eq_true, true_and]
  rcases d.card.update_cases index s pdu with ⟨e, haccept, hupdate⟩ | ⟨p, haccept, hupdate⟩
  · rw [hupdate] at hanswer
    by_cases hwithin : CardRequest.Within d.card index
    · have hlong : d.card.recordSize < pdu.length := by
        refine Nat.not_le.1 fun hlen => ?_
        obtain ⟨p, hok⟩ := acceptUpdate_eq_ok_iff.2 ⟨hwithin, Or.inr ⟨hpdu, hlen⟩⟩
        rw [haccept] at hok
        cases hok
      rw [acceptUpdate_of_long hwithin hs hpdu hlong] at haccept
      obtain rfl := Except.error.inj haccept
      exact .of_refused hd _ (hfaulty.2 ⟨hwithin, hlong⟩) hanswer
    · rw [acceptUpdate_of_outside hwithin] at haccept
      obtain rfl := Except.error.inj haccept
      exact .of_no hd (fun hfault => hwithin (hfaulty.1 hfault).1) hwithin hanswer
  · rw [hupdate] at hanswer
    obtain ⟨hwithin, hfits⟩ := acceptUpdate_eq_ok_iff.1 ⟨p, haccept⟩
    have hlen : pdu.length ≤ d.card.recordSize := (hfits.resolve_left hs).2
    have hslot : (⟨index, p.1, p.2⟩ : CardRecord) =
        ⟨index, s, fillUp pdu d.card.recordSize⟩ := by
      rw [(of_acceptUpdate haccept).2, RecordStatus.isFree_eq_false hs]
      rfl
    have hreplaces := hd.replaces_put (Or.inl hwithin.1) p.1 p.2
    rw [hslot] at hreplaces
    refine .of_yes (fun hfault => ?_) (fun hout => hout hwithin) (.update s hs) hreplaces
      (hd.put (Or.inl (Int.ofNat_lt.2 hwithin.1)) p.1 p.2) hanswer
    exact Nat.not_lt.2 hlen (hfaulty.1 hfault).2

/-- **Updates**: the status is looked at first, then the PDU, the slot and the length. -/
theorem update_law (hd : d.card.Numbered) (index : Nat) (status : Int) (pdu : Octets) :
    d.CardLaw (.update index status pdu) := by
  rcases RecordStatus.ofCode_cases status with ⟨s, hcode, rfl⟩ | ⟨hcode, hnot⟩
  · by_cases hs : s = .free
    · subst hs
      exact (delete_law hd index).update_free pdu
    by_cases hpdu : pdu = []
    · refine .of_refused hd .noPdu
        (Or.inr ⟨RecordStatus.code_ne_zero hs, Or.inl hpdu⟩) ?_
      subst hpdu
      simp only [atCard, updateOnCard, hcode, RecordStatus.isFree_eq_false hs]
      rfl
    · exact update_law_of_status hd hpdu hs hcode
  · refine .of_refused hd (.unknownStatus status) (Or.inl hnot) ?_
    simp only [atCard, updateOnCard, hcode]

theorem cardLaw_of_numbered (hd : d.card.Numbered) (r : CardRequest) : d.CardLaw r := by
  cases r with
  | copy serviceCentre pdu status => exact copy_law hd serviceCentre pdu status
  | update index status pdu => exact update_law hd index status pdu
  | delete index => exact delete_law hd index

/-- **Requests for the card.**  Each is refused exactly if the caller got something wrong, and else
answered no exactly if the card has no slot for it; only the answer yes leaves a trace, in the one
slot that it puts down.  An update to free is a deletion, whatever PDU it brings. -/
theorem card_answers (hd : d.card.Numbered) :
    (∀ r, d.CardLaw r) ∧
      ∀ index pdu, d.atCard (.update index 0 pdu) = d.atCard (.delete index) :=
  ⟨cardLaw_of_numbered hd, atCard_update_free d⟩

/-- On a card of two slots, the first of them taken: a copy without an address takes the second, an
update of a third slot is answered no, and a status that is none is refused. -/
theorem card_answers_two_slots :
    let kept : CardRecord := ⟨1, .sent, [0x05, 0xFF, 0xFF]⟩
    let d : Dispatcher Unit :=
      .new .standard 300 true () (.memory ⟨2, 3, [kept, .erased 2 3]⟩)
    d.card.Numbered ∧
      ((d.atCard (.copy (some []) [0x07] 3)).1 = .ok true ∧
        (d.atCard (.copy (some []) [0x07] 3)).2.card.rows =
          [kept.toRow, ⟨2, 3, [0x00, 0x07, 0xFF]⟩]) ∧
      ((d.atCard (.update 3 1 [0x09])).1 = .ok false ∧
        (d.atCard (.update 3 1 [0x09])).2 = d) ∧
      (∃ cause, (d.atCard (.update 1 4 [0x09])).1 = .error (.invalidArgument cause)) ∧
      d.atCard (.update 1 0 [0x09]) = d.atCard (.delete 1) := by
  intro kept d
  have hd : d.card.Numbered := ⟨rfl, by decide⟩
  have hno : (d.atCard (.update 3 1 [0x09])).1 = .ok false :=
    ((card_answers hd).1 _).no_iff.2 ⟨by decide, by decide⟩
  refine ⟨hd, ⟨?_, rfl⟩, ⟨hno, ?_⟩, ?_, (card_answers hd).2 1 [0x09]⟩
  · exact ((card_answers hd).1 _).yes_iff.2 ⟨by decide, by decide⟩
  · exact ((card_answers hd).1 _).kept (by rw [hno]; exact fun h => (nomatch h))
  · exact ((card_answers hd).1 _).refused_iff.2 (by decide)

/-! ### Requests one after the other -/

/-- A dispatcher after some requests for its card. -/
def afterRequests (d : Dispatcher σ) (rs : List CardRequest) : Dispatcher σ :=
  rs.foldl (fun d r => (d.atCard r).2) d

theorem numbered_afterRequests (hd : d.card.Numbered) (rs : List CardRequest) :
    (d.afterRequests rs).card.Numbered := by
  induction rs generalizing d with
  | nil => exact hd
  | cons r rs ih => exact ih (cardLaw_of_numbered hd r).numbered

/-- **A card that was opened** answers by the law, whatever it was asked before. -/
theorem cardLaw_of_opened {settings : CardSettings} {shelf : TableShelf} (hshelf : shelf.Numbered)
    (h : Card.ofSettings settings shelf = .ok d.card) (rs : List CardRequest) (r : CardRequest) :
    (d.afterRequests rs).CardLaw r :=
  cardLaw_of_numbered (numbered_afterRequests (Card.numbered_ofSettings hshelf h) rs) r

end requests

end Dispatcher

end ShortMessage

import ShortMessage.CommandLine.Run
import ShortMessage.Proofs.Dispatcher.OnCard
import ShortMessage.Proofs.Octets

/-!
# Records that are listed and written back

The list of a card shows the octets of each record in hexadecimal.  However a person spells that
text anew, with blanks put in and with letters of either case, it is read as the same octets, so the
commands hand on to the card what was listed.  An update of a slot with the record that is listed
for it leaves the list as it was.

* `readAll_of_putBack`: a card on which a listed record is put down in its own slot;
* `writeCard_of_respells`, `updateCard_of_respells`: what the commands hand on;
* `respelled_read_back`: respelled octets are read back, and records are put back.
-/

namespace ShortMessage

/-! ### A record that is put back -/

theorem RecordStatus.eq_of_code_eq {s s' : RecordStatus} (h : (s.code : Int) = s'.code) :
    s' = s := by
  have hread := s.ofCode?_code
  rw [h, s'.ofCode?_code] at hread
  exact Option.some.inj hread

namespace SlotTable.Row

theorem slot_of_record {x : Row} {r : CardRecord} (h : x.record = .ok r) : x.slot = r.index := by
  unfold record at h
  split at h
  · rw [← Except.ok.inj h]
  · cases h

theorem exists_of_mem_mapM {rows : List Row} {records : List CardRecord}
    (h : rows.mapM record = .ok records) {r : CardRecord} (hr : r ∈ records) :
    ∃ x ∈ rows, x.record = .ok r := by
  induction rows generalizing records with
  | nil =>
    cases h
    cases hr
  | cons x rows ih =>
    rw [List.mapM_cons] at h
    cases hx : x.record with
    | error f =>
      rw [hx] at h
      cases h
    | ok first =>
      cases hrest : rows.mapM record with
      | error f =>
        rw [hx, hrest] at h
        cases h
      | ok rest =>
        rw [hx, hrest] at h
        cases h
        rcases List.mem_cons.1 hr with rfl | hr
        · exact ⟨x, List.mem_cons_self, hx⟩
        · obtain ⟨y, hy, hrecord⟩ := ih hrest hr
          exact ⟨y, List.mem_cons_of_mem _ hy, hrecord⟩

/-- A change that no listed row shows leaves the list. -/
theorem mapM_filter_map {rows : List Row} {listed : Row → Bool} {change : Row → Row}
    (hlisted : ∀ x ∈ rows, listed (change x) = listed x)
    (hrecord : ∀ x ∈ rows, listed x = true → (change x).record = x.record) :
    ((rows.map change).filter listed).mapM record = (rows.filter listed).mapM record := by
  induction rows with
  | nil => rfl
  | cons x rows ih =>
    obtain ⟨hx, hrows⟩ := List.forall_mem_cons.1 hlisted
    obtain ⟨hxr, hrowsr⟩ := List.forall_mem_cons.1 hrecord
    rw [List.map_cons, List.filter_cons, List.filter_cons, hx]
    split
    · next h => rw [List.mapM_cons, List.mapM_cons, hxr h, ih hrows hrowsr]
    · exact ih hrows hrowsr

end SlotTable.Row

namespace Card

variable {c c' : Card} {r : CardRecord}

/-- Is a row listed: is it occupied, and within the capacity? -/
def lists (c : Card) (x : SlotTable.Row) : Bool :=
  x.status ≠ 0 ∧ x.index ≤ c.capacity

theorem Numbered.readAll_eq (hc : c.Numbered) :
    c.readAll = (c.rows.filter c.lists).mapM SlotTable.Row.record := by
  obtain ⟨s, hs⟩ := hc.exists_mirrored
  have hread : c.readAll = s.readAll := by
    cases hs with
    | memory h => exact h.readAll.symm
    | table place => rfl
  rw [hread, hs.rows]
  unfold lists
  rw [hs.capacity]
  rfl

/-- **A listed record that is put down in its own slot** leaves the list. -/
theorem readAll_of_putBack (hc : c.Numbered) (hc' : c'.Numbered) (h : c.Replaces r c')
    {records : List CardRecord} (hread : c.readAll = .ok records) (hr : r ∈ records)
    (hs : r.status ≠ .free) : c'.readAll = .ok records := by
  rw [hc.readAll_eq] at hread
  obtain ⟨x, hx, hrecord⟩ := SlotTable.Row.exists_of_mem_mapM hread hr
  obtain ⟨hmem, hlisted⟩ := List.mem_filter.1 hx
  have hindex : x.index = r.index := by
    rw [← hc.coe_slot hmem, SlotTable.Row.slot_of_record hrecord]
  have hsame : ∀ y ∈ c.rows, y.index = r.index → y = x := fun y hy heq =>
    SlotTable.Row.eq_of_index_eq hc.ordered hy hmem (heq.trans hindex.symm)
  have hput : c.lists r.toRow = true := by
    have hocc : r.toRow.status ≠ 0 := fun hzero =>
      hs (of_decide_eq_true (r.status_toRow_eq_zero_iff.1 hzero))
    have hle : (r.index : Int) ≤ c.capacity := hindex ▸ (of_decide_eq_true hlisted).2
    exact decide_eq_true ⟨hocc, hle⟩
  have hlists : c'.lists = c.lists := by
    unfold lists
    rw [h.capacity]
  rw [hc'.readAll_eq, h.rows, hlists, SlotTable.Row.mapM_filter_map, hread]
  · intro y hy
    split
    · next heq => rw [hput, hsame y hy heq, hlisted]
    · rfl
  · intro y hy _
    split
    · next heq => rw [CardRecord.record_toRow, hsame y hy heq, hrecord]
    · rfl

end Card

theorem Service.card_withDispatcher (s : Service) (d : Dispatcher LoopbackRadio) :
    (s.withDispatcher d).dispatcher.card = d.card := by
  have hstart : ∀ (due : List LoopbackRadio.Completion) (s : Service),
      (due.foldl (fun s c => s.start (.complete c)) s).dispatcher = s.dispatcher := by
    intro due
    induction due with
    | nil => exact fun s => rfl
    | cons c due ih => exact fun s => ih _
  unfold withDispatcher
  rw [hstart]

/-- A record that fills a slot: not a free one, and neither shorter nor longer. -/
structure CardRecord.Fills (r : CardRecord) (size : Nat) : Prop where
  occupied : r.status ≠ .free
  nonempty : r.data ≠ []
  length_eq : r.data.length = size

theorem CardRecord.Fills.fillUp_eq {r : CardRecord} {size : Nat} (h : r.Fills size) :
    fillUp r.data size = r.data := by
  unfold fillUp
  rw [h.length_eq, Nat.sub_self]
  exact List.append_nil r.data

/-- **The records of a new card fill their slots**, whatever it was called for. -/
theorem Card.New.fills {capacity recordSize : Nat} {c₀ : Card} (h : New capacity recordSize c₀)
    (hsize : 0 < recordSize) (calls : List Card.Call) {records : List CardRecord}
    (hread : (c₀.after calls).readAll = .ok records) {r : CardRecord} (hr : r ∈ records) :
    0 < r.index ∧ r.Fills recordSize := by
  obtain ⟨records', hread', -, hmem⟩ := (h.serves calls).read
  obtain rfl : records' = records := Except.ok.inj (hread'.symm.trans hread)
  obtain ⟨hcontents, hocc, -⟩ := (hmem r).1 hr
  have hfilled := filled_contents hcontents
  rw [h.size.2] at hfilled
  have hindex := h.contents_eq calls r.index
  rw [hcontents] at hindex
  split at hindex
  · next hi =>
    refine ⟨hi.1, fun hfree => hocc (decide_eq_true hfree), fun hnil => ?_, hfilled.length⟩
    have hlength := hfilled.length
    rw [hnil, List.length_nil] at hlength
    omega
  · cases hindex

namespace Dispatcher

theorem CardRequest.Puts.eq_of_update {c : Card} {index : Nat} {code : Int} {pdu : Octets}
    {x : CardRecord} (h : Puts c (.update index code pdu) x) (hcode : code ≠ 0) :
    ∃ s : RecordStatus, code = s.code ∧ x = ⟨index, s, fillUp pdu c.recordSize⟩ := by
  cases h with
  | update s hs => exact ⟨s, rfl, rfl⟩
  | free => exact absurd rfl hcode

theorem CardRequest.Puts.eq_of_copy {c : Card} {address : Option Octets} {code : Int}
    {pdu : Octets} {x : CardRecord} (h : Puts c (.copy address pdu code) x) :
    ∃ (s : RecordStatus) (k : Nat), code = s.code ∧ IsLeast {i | i ∈ c.freeIndices} k ∧
      x = ⟨k, s, fillUp (cardAddress address ++ pdu) c.recordSize⟩ := by
  cases h with
  | copy s hlowest => exact ⟨s, _, rfl, hlowest, rfl⟩

variable {σ : Type} {d : Dispatcher σ} {r : CardRecord}

theorem updateOnCard_putBack (hd : d.card.Numbered) {records : List CardRecord}
    (hread : d.cardRecords = .ok records) (hr : r ∈ records) (hindex : 0 < r.index)
    (hfills : r.Fills d.card.recordSize) :
    (d.updateOnCard r.index r.status.code r.data).1 = .ok true ∧
      (d.updateOnCard r.index r.status.code r.data).2.cardRecords = .ok records := by
  have hwithin : CardRequest.Within d.card r.index := by
    have hlisted := hread
    rw [cardRecords, hd.readAll_eq] at hlisted
    obtain ⟨x, hx, hrecord⟩ := SlotTable.Row.exists_of_mem_mapM hlisted hr
    obtain ⟨hmem, hlisted⟩ := List.mem_filter.1 hx
    have hle : x.index ≤ d.card.capacity := (of_decide_eq_true hlisted).2
    rw [← hd.coe_slot hmem, SlotTable.Row.slot_of_record hrecord] at hle
    exact ⟨hindex, Int.ofNat_le.1 hle⟩
  have hlaw := cardLaw_of_numbered hd (.update r.index r.status.code r.data)
  have hyes : (d.atCard (.update r.index r.status.code r.data)).1 = .ok true := by
    refine hlaw.yes_iff.2 ⟨?_, fun hout => hout hwithin⟩
    rintro (hcode | ⟨-, hnil | ⟨-, hlong⟩⟩)
    · exact hcode r.status.code_mem
    · exact hfills.nonempty hnil
    · exact absurd hfills.length_eq (Nat.ne_of_gt hlong)
  refine ⟨hyes, ?_⟩
  obtain ⟨x, c', hputs, hreplaces, hafter⟩ := hlaw.puts hyes
  obtain rfl : x = r := by
    obtain ⟨status, hcode, rfl⟩ := hputs.eq_of_update (RecordStatus.code_ne_zero hfills.occupied)
    rw [hfills.fillUp_eq, RecordStatus.eq_of_code_eq hcode]
  have hnumbered := hlaw.numbered
  rw [hafter] at hnumbered
  show (d.atCard (.update x.index x.status.code x.data)).2.cardRecords = _
  rw [hafter]
  exact Card.readAll_of_putBack hd hnumbered hreplaces hread hr hfills.occupied

theorem copyToCard_putDown (hd : d.card.Numbered) {a : UInt8} {rest : Octets} (hrest : rest ≠ [])
    (hdata : r.data = a :: rest) (hfills : r.Fills d.card.recordSize)
    (hroom : d.card.freeIndices ≠ []) :
    (d.copyToCard (some [a]) rest r.status.code).1 = .ok true ∧
      ∃ k, IsLeast {i | i ∈ d.card.freeIndices} k ∧
        d.card.Replaces ⟨k, r.status, r.data⟩
          (d.copyToCard (some [a]) rest r.status.code).2.card := by
  have hlength := hfills.length_eq
  rw [hdata, List.length_cons] at hlength
  have hlaw := cardLaw_of_numbered hd (.copy (some [a]) rest r.status.code)
  have hyes : (d.atCard (.copy (some [a]) rest r.status.code)).1 = .ok true := by
    refine hlaw.yes_iff.2 ⟨?_, hroom⟩
    rintro (hnil | hcode | hlong)
    · exact hrest hnil
    · exact hcode (r.status.code_mem_iff.2 hfills.occupied)
    · have hone : max 1 (Option.getD (some [a]) []).length = 1 := rfl
      rw [hone] at hlong
      omega
  refine ⟨hyes, ?_⟩
  obtain ⟨x, c', hputs, hreplaces, hafter⟩ := hlaw.puts hyes
  obtain ⟨status, k, hcode, hlowest, rfl⟩ := hputs.eq_of_copy
  have hslot : cardAddress (some [a]) ++ rest = r.data := hdata.symm
  rw [hslot, hfills.fillUp_eq, RecordStatus.eq_of_code_eq hcode] at hreplaces
  refine ⟨k, hlowest, ?_⟩
  show d.card.Replaces _ (d.atCard (.copy (some [a]) rest r.status.code)).2.card
  rw [hafter]
  exact hreplaces

end Dispatcher

namespace CommandLine

open Octets

/-! ### Commands -/

variable {text : String} {bytes : Octets}

theorem readHex_of_respells (h : RespellsHex text bytes) : readHex text = .ok bytes := by
  unfold readHex
  rw [ofHex_of_writes (writes_of_respells h)]
  rfl

theorem writeCard_of_respells (s : Service) (status : Int) (h : RespellsHex text bytes) :
    writeCard s text status none =
      changed s "写入成功" "写入失败" (s.dispatcher.copyToCard none bytes status) := by
  unfold writeCard
  rw [readHex_of_respells h]
  rfl

theorem writeCard_of_respells_address (s : Service) (status : Int) (h : RespellsHex text bytes)
    {address : String} {smsc : Octets} (haddress : RespellsHex address smsc) :
    writeCard s text status (some address) =
      changed s "写入成功" "写入失败" (s.dispatcher.copyToCard (some smsc) bytes status) := by
  unfold writeCard
  rw [readHex_of_respells h, Option.mapM_some, readHex_of_respells haddress]
  rfl

theorem updateCard_of_respells (s : Service) (index : Nat) (status : Int)
    (h : RespellsHex text bytes) :
    updateCard s index status text =
      changed s "更新成功" "更新失败" (s.dispatcher.updateOnCard index status bytes) := by
  unfold updateCard
  rw [readHex_of_respells h]

theorem changed_of_yes {s : Service} {yes no : String}
    {r : Except Failure Bool × Dispatcher LoopbackRadio} (h : r.1 = .ok true) :
    changed s yes no r = (.ok [yes], s.withDispatcher r.2) := by
  unfold changed
  rw [h]
  rfl

/-- **A listed record is updated to itself**: its slot, its status and its respelled text leave the
list of the card as it was. -/
theorem updateCard_putBack {s : Service} {records : List CardRecord} {r : CardRecord}
    (hcard : s.dispatcher.card.Numbered) (hread : s.dispatcher.cardRecords = .ok records)
    (hr : r ∈ records) (hindex : 0 < r.index) (hfills : r.Fills s.dispatcher.card.recordSize)
    (h : RespellsHex text r.data) :
    ∃ s', updateCard s r.index r.status.code text = (.ok ["更新成功"], s') ∧
      s'.dispatcher.cardRecords = .ok records ∧ listCard s' = listCard s := by
  obtain ⟨hyes, hkept⟩ := Dispatcher.updateOnCard_putBack hcard hread hr hindex hfills
  let s' := s.withDispatcher (s.dispatcher.updateOnCard r.index r.status.code r.data).2
  have hread' : s'.dispatcher.cardRecords = .ok records := by
    unfold Dispatcher.cardRecords
    rw [Service.card_withDispatcher]
    exact hkept
  refine ⟨s', ?_, hread', ?_⟩
  · rw [updateCard_of_respells s r.index r.status.code h, changed_of_yes hyes]
  · unfold listCard
    rw [hread, hread']

/-- **A record is written to a free slot**, its first octet being given as the address. -/
theorem writeCard_putDown {s : Service} {r : CardRecord} {a : UInt8} {rest : Octets}
    (hcard : s.dispatcher.card.Numbered) (hrest : rest ≠ []) (hdata : r.data = a :: rest)
    (hfills : r.Fills s.dispatcher.card.recordSize) (hroom : s.dispatcher.card.freeIndices ≠ [])
    {address : String} (haddress : RespellsHex address [a]) (h : RespellsHex text rest) :
    ∃ s' k, writeCard s text r.status.code (some address) = (.ok ["写入成功"], s') ∧
      IsLeast {i | i ∈ s.dispatcher.card.freeIndices} k ∧
        s.dispatcher.card.Replaces ⟨k, r.status, r.data⟩ s'.dispatcher.card := by
  obtain ⟨hyes, k, hk, hreplaces⟩ :=
    Dispatcher.copyToCard_putDown hcard hrest hdata hfills hroom
  refine ⟨s.withDispatcher (s.dispatcher.copyToCard (some [a]) rest r.status.code).2, k, ?_, hk,
    ?_⟩
  · rw [writeCard_of_respells_address s r.status.code h haddress, changed_of_yes hyes]
  · rwa [Service.card_withDispatcher]

/-- **Octets that are shown are read back, however their text is respelled**: with blanks put in
anywhere, and with letters in either case.  So the commands that change a card hand on the octets
whose text they are given, and a record that fills a slot can be put back as it is listed, into its
own slot or into a free one.  All records of a new card are such, whatever it was called for. -/
theorem respelled_read_back :
    (∀ (text : String) (bytes : Octets), RespellsHex text bytes → ofHex text = .ok bytes) ∧
    (∀ (s : Service) (status : Int) (text : String) (bytes : Octets), RespellsHex text bytes →
      writeCard s text status none =
        changed s "写入成功" "写入失败" (s.dispatcher.copyToCard none bytes status)) ∧
    (∀ (s : Service) (status : Int) (text address : String) (bytes smsc : Octets),
      RespellsHex text bytes → RespellsHex address smsc →
        writeCard s text status (some address) =
          changed s "写入成功" "写入失败" (s.dispatcher.copyToCard (some smsc) bytes status)) ∧
    (∀ (s : Service) (index : Nat) (status : Int) (text : String) (bytes : Octets),
      RespellsHex text bytes →
        updateCard s index status text =
          changed s "更新成功" "更新失败" (s.dispatcher.updateOnCard index status bytes)) ∧
    (∀ (capacity recordSize : Nat) (c₀ : Card) (calls : List Card.Call) (records : List CardRecord),
      Card.New capacity recordSize c₀ → 0 < recordSize →
      (c₀.after calls).readAll = .ok records → (c₀.after calls).Numbered ∧
        ∀ r ∈ records, 0 < r.index ∧ r.Fills (c₀.after calls).recordSize) ∧
    ∀ (s : Service) (records : List CardRecord) (r : CardRecord), s.dispatcher.card.Numbered →
      s.dispatcher.cardRecords = .ok records → r ∈ records → 0 < r.index →
      r.Fills s.dispatcher.card.recordSize →
        (∀ text, RespellsHex text r.data →
          ∃ s', updateCard s r.index r.status.code text = (.ok ["更新成功"], s') ∧
            s'.dispatcher.cardRecords = .ok records ∧ listCard s' = listCard s) ∧
        ∀ (text address : String) (a : UInt8) (rest : Octets), rest ≠ [] → r.data = a :: rest →
          s.dispatcher.card.freeIndices ≠ [] → RespellsHex address [a] → RespellsHex text rest →
            ∃ s' k, writeCard s text r.status.code (some address) = (.ok ["写入成功"], s') ∧
              IsLeast {i | i ∈ s.dispatcher.card.freeIndices} k ∧
              s.dispatcher.card.Replaces ⟨k, r.status, r.data⟩ s'.dispatcher.card := by
  refine ⟨fun _ _ h => ofHex_of_writes (writes_of_respells h),
    fun s status _ _ h => writeCard_of_respells s status h,
    fun s status _ _ _ _ h haddress => writeCard_of_respells_address s status h haddress,
    fun s index status _ _ h => updateCard_of_respells s index status h, ?_, ?_⟩
  · intro capacity recordSize c₀ calls records hnew hsize hread
    have hkept : (c₀.after calls).recordSize = recordSize := by
      rw [(Card.size_after c₀ calls).2, hnew.size.2]
    refine ⟨hnew.numbered.after calls, fun r hr => ?_⟩
    rw [hkept]
    exact hnew.fills hsize calls hread hr
  · intro s records r hcard hread hr hindex hfills
    refine ⟨fun text h => updateCard_putBack hcard hread hr hindex hfills h, ?_⟩
    intro text address a rest hrest hdata hroom haddress h
    exact writeCard_putDown hcard hrest hdata hfills hroom haddress h

/-- A record is listed, its text is spread out and written small, and it is put back. -/
theorem respelled_read_back_spread :
    let r : CardRecord := ⟨1, .read, [0x07, 0xAF]⟩
    let card : Card := .memory ⟨2, 2, [r, .erased 2 2]⟩
    let s : Service :=
      ⟨.standard, .new .standard 300 true (.new true) card, 10, 0, 0, [], [], [], false, []⟩
    listCard s = .ok ["[1] read 07AF"] ∧
      (∃ s', updateCard s 1 1 " 0\t7 a\u3000F" = (.ok ["更新成功"], s') ∧
        listCard s' = listCard s) ∧
      ∃ s' k, writeCard s "aF" 1 (some "0 7") = (.ok ["写入成功"], s') ∧
        card.Replaces ⟨k, .read, [0x07, 0xAF]⟩ s'.dispatcher.card := by
  intro r card s
  have hspread : RespellsHex " 0\t7 a\u3000F" [0x07, 0xAF] :=
    .blank rfl <| .char (Or.inl rfl) <| .blank rfl <| .char (Or.inl rfl) <| .blank rfl <|
      .char (Or.inr (Or.inl rfl)) <| .blank rfl <| .char (Or.inl rfl) .nil
  have haddress : RespellsHex "0 7" [0x07] :=
    .char (Or.inl rfl) <| .blank rfl <| .char (Or.inl rfl) .nil
  have hrest : RespellsHex "aF" [0xAF] := .char (Or.inr (Or.inl rfl)) <| .char (Or.inl rfl) .nil
  obtain ⟨hupdate, hwrite⟩ := respelled_read_back.2.2.2.2.2 s [r] r ⟨rfl, by decide⟩ rfl
    List.mem_cons_self (by decide) ⟨by decide, by decide, rfl⟩
  obtain ⟨s', hupdated, -, hlist⟩ := hupdate _ hspread
  obtain ⟨s'', k, hwritten, -, hreplaces⟩ :=
    hwrite "aF" "0 7" 0x07 [0xAF] (by decide) rfl (by decide) haddress hrest
  have hline : recordLine r = "[1] read 07AF" := by decide +kernel
  have hlisted : listCard s = .ok [recordLine r] := rfl
  exact ⟨by rw [hlisted, hline], ⟨s', hupdated, hlist⟩, s'', k, hwritten, hreplaces⟩

end CommandLine

end ShortMessage

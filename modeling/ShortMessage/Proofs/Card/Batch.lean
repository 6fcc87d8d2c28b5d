import ShortMessage.Proofs.Card.Slots

/-!
# Batches of writes

Writes that come in together are served one after the other, in an order that nobody chooses.  The
order decides which of them gets which slot, and which are left without one; it does not decide
which slots are taken.

* `Card.serve`, `Card.takenBy`: writes one after the other, each with its answer, and their slots;
* `Shares`: what every write of a batch gets, and what it leaves alone;
* `Shares.refuse`, `Shares.store`: one more write in front;
* `shares_serve`: a batch gets as many of the free slots as it has valid writes, from the lowest on;
* `batch_takes_lowest`: so it does in every order; `writeAll_takes`: a batch of one status.
-/

namespace ShortMessage.Card

/-- Serves writes one after the other, and notes each with its answer. -/
def serve (c : Card) : List Write → List (Write × Except Failure Nat) × Card
  | [] => ([], c)
  | w :: ws =>
    let (answer, c) := c.write w.record w.status
    let (served, c) := c.serve ws
    ((w, answer) :: served, c)

/-- The slots that the writes have taken, in the order in which they were served. -/
def takenBy (served : List (Write × Except Failure Nat)) : List Nat :=
  served.filterMap fun p => p.2.toOption

@[simp]
theorem takenBy_ok (w : Write) (k : Nat) (served : List (Write × Except Failure Nat)) :
    takenBy ((w, .ok k) :: served) = k :: takenBy served := rfl

@[simp]
theorem takenBy_error (w : Write) (e : Failure) (served : List (Write × Except Failure Nat)) :
    takenBy ((w, .error e) :: served) = takenBy served := rfl

/-- **What a batch gets**, when it is served in its order: every write that takes a slot finds its
record there, a valid one that takes none has found the card full, and the other slots are left
alone. -/
structure Shares (c : Card) (ws : List Write) (taken : List Nat) : Prop where
  answered : (c.serve ws).1.map Prod.fst = ws
  takes : takenBy (c.serve ws).1 = taken
  stored : ∀ w (k : Nat), (w, .ok k) ∈ (c.serve ws).1 → w.Valid c.recordSize ∧
    (c.serve ws).2.row? k = some (w.slot c.recordSize k).toRow
  full : ∀ w e, (w, .error e) ∈ (c.serve ws).1 → w.Valid c.recordSize →
    e = .capacityExceeded c.capacity
  refused : ∀ w e, (w, .error e) ∈ (c.serve ws).1 → ¬ w.Valid c.recordSize →
    ∃ cause, e = .invalidArgument cause
  others : ∀ i : Int, (∀ k ∈ taken, i ≠ k) → (c.serve ws).2.row? i = c.row? i

/-- The lowest free slots of a card, as many as asked for. -/
structure Lowest (c : Card) (n : Nat) (taken : List Nat) : Prop where
  length : taken.length = n
  ascending : taken.Pairwise (· < ·)
  free : ∀ i ∈ taken, i ∈ c.freeIndices
  lowest : ∀ i ∈ taken, ∀ j ∈ c.freeIndices, j ∉ taken → i < j

variable {c : Card} {w : Write} {ws : List Write} {taken : List Nat}

theorem Numbered.lowest_take (hc : c.Numbered) (n : Nat) :
    c.Lowest (min n c.freeIndices.length) (c.freeIndices.take n) := by
  have hord := hc.pairwise_freeIndices
  refine ⟨List.length_take, hord.sublist (List.take_sublist n _),
    fun i hi => List.mem_of_mem_take hi, fun i hi j hj hnot => ?_⟩
  rw [← List.take_append_drop n c.freeIndices] at hord hj
  have hdrop := (List.mem_append.1 hj).resolve_left hnot
  exact (List.pairwise_append.1 hord).2.2 i hi j hdrop

/-! ### One more write in front -/

theorem serve_cons {answer : Except Failure Nat} {c' : Card}
    (h : c.write w.record w.status = (answer, c')) (ws : List Write) :
    c.serve (w :: ws) = ((w, answer) :: (c'.serve ws).1, (c'.serve ws).2) := by
  simp only [serve, h]

/-- A write that fails leaves everything to the others. -/
theorem Shares.refuse {e : Failure} (h : c.write w.record w.status = (.error e, c))
    (hvalid : w.Valid c.recordSize → e = .capacityExceeded c.capacity)
    (hinvalid : ¬ w.Valid c.recordSize → ∃ cause, e = .invalidArgument cause)
    (hrest : c.Shares ws taken) : c.Shares (w :: ws) taken := by
  have hserve := serve_cons h ws
  refine ⟨?_, ?_, fun w' k hmem => ?_, fun w' e' hmem => ?_, fun w' e' hmem => ?_, ?_⟩
  · rw [hserve, List.map_cons, hrest.answered]
  · rw [hserve]
    exact hrest.takes
  · rw [hserve] at hmem ⊢
    rcases List.mem_cons.1 hmem with heq | hmem
    · cases heq
    · exact hrest.stored w' k hmem
  · rw [hserve] at hmem
    rcases List.mem_cons.1 hmem with heq | hmem
    · cases heq
      exact hvalid
    · exact hrest.full w' e' hmem
  · rw [hserve] at hmem
    rcases List.mem_cons.1 hmem with heq | hmem
    · cases heq
      exact hinvalid
    · exact hrest.refused w' e' hmem
  · rw [hserve]
    exact hrest.others

/-- A write that takes a slot keeps it, as the others do not take it again. -/
theorem Shares.store {k : Nat} {c' : Card} (h : c.write w.record w.status = (.ok k, c'))
    (hw : w.Valid c.recordSize) (hc' : c.Replaces (w.slot c.recordSize k) c')
    (hrow : ∃ x, c.row? k = some x) (hk : k ∉ taken) (hrest : c'.Shares ws taken) :
    c.Shares (w :: ws) (k :: taken) := by
  have hserve := serve_cons h ws
  refine ⟨?_, ?_, fun w' k' hmem => ?_, fun w' e' hmem => ?_, fun w' e' hmem => ?_,
    fun i hi => ?_⟩
  · rw [hserve, List.map_cons, hrest.answered]
  · rw [hserve, takenBy_ok, hrest.takes]
  · rw [hserve] at hmem ⊢
    rcases List.mem_cons.1 hmem with heq | hmem
    · cases heq
      obtain ⟨x, hx⟩ := hrow
      have hkept : ∀ j ∈ taken, (k : Int) ≠ j := fun j hj heq => hk (Int.ofNat_inj.1 heq ▸ hj)
      refine ⟨hw, ?_⟩
      rw [hrest.others k hkept, hc'.row?, w.index_slot, if_pos rfl, hx]
      rfl
    · rw [← hc'.recordSize]
      exact hrest.stored w' k' hmem
  · rw [hserve] at hmem
    rcases List.mem_cons.1 hmem with heq | hmem
    · cases heq
    · rw [← hc'.recordSize, ← hc'.capacity]
      exact hrest.full w' e' hmem
  · rw [hserve] at hmem
    rcases List.mem_cons.1 hmem with heq | hmem
    · cases heq
    · rw [← hc'.recordSize]
      exact hrest.refused w' e' hmem
  · obtain ⟨hik, htaken⟩ := List.forall_mem_cons.1 hi
    rw [hserve, hrest.others i htaken, hc'.row?, w.index_slot, if_neg hik.symm]

/-! ### The whole batch -/

/-- **A batch gets the lowest free slots**, one for each of its valid writes while there are any. -/
theorem shares_serve (hc : c.Numbered) (ws : List Write) :
    c.Shares ws (c.freeIndices.take (ws.countP (·.Valid c.recordSize))) := by
  induction ws generalizing c with
  | nil =>
    exact ⟨rfl, rfl, fun _ _ h => (nomatch h), fun _ _ h => (nomatch h), fun _ _ h => (nomatch h),
      fun _ _ => rfl⟩
  | cons w ws ih =>
    by_cases hw : w.Valid c.recordSize
    · rw [List.countP_cons_of_pos (by simpa using hw)]
      cases hfree : c.freeIndices with
      | nil =>
        have hrest := ih hc
        rw [hfree, List.take_nil] at hrest
        rw [List.take_nil]
        exact hrest.refuse (write_of_full hw hc hfree) (fun _ => rfl) fun hnot => absurd hw hnot
      | cons k ks =>
        obtain ⟨c', hwrite, hreplaces, hc', hfree'⟩ := write_of_free hw hc hfree
        have hrest := ih hc'
        rw [hfree', hreplaces.recordSize] at hrest
        rw [List.take_succ_cons]
        refine hrest.store hwrite hw hreplaces ?_ fun hmem => ?_
        · exact hc.exists_row?_of_mem_freeIndices (hfree ▸ List.mem_cons_self)
        · have hnodup := hc.nodup_freeIndices
          rw [hfree] at hnodup
          exact (List.nodup_cons.1 hnodup).1 (List.mem_of_mem_take hmem)
    · rw [List.countP_cons_of_neg (by simpa using hw)]
      obtain ⟨cause, hwrite⟩ := write_of_invalid hw
      exact (ih hc).refuse hwrite (fun hvalid => absurd hvalid hw) fun _ => ⟨cause, rfl⟩

/-- **A batch takes the lowest free slots, in whatever order it is served.**  Of its valid writes as
many succeed as there are free slots, or all; together they take the lowest of these, each finds its
record in the slot that it got, the remaining valid ones find the card full, and every other slot
stays as it is. -/
theorem batch_takes_lowest (hc : c.Numbered) (batch : List Write) :
    ∃ taken, c.Lowest (min (batch.countP (·.Valid c.recordSize)) c.freeIndices.length) taken ∧
      ∀ order : List Write, order.Perm batch → c.Shares order taken := by
  refine ⟨_, hc.lowest_take _, fun order hperm => ?_⟩
  rw [← hperm.countP_eq]
  exact shares_serve hc order

/-- Three valid writes and one that is too long, for two free slots, in the reverse order. -/
theorem batch_takes_lowest_reversed :
    let c : Card := .memory ⟨3, 2, [.erased 1 2, ⟨2, .read, [7, 255]⟩, .erased 3 2]⟩
    let batch : List Write := [⟨[1], .read⟩, ⟨[1, 2, 3], .read⟩, ⟨[4], .sent⟩, ⟨[5], .unread⟩]
    c.Numbered ∧ c.Lowest 2 [1, 3] ∧ c.Shares batch.reverse [1, 3] ∧
      (c.serve batch.reverse).1 =
        [(⟨[5], .unread⟩, .ok 1), (⟨[4], .sent⟩, .ok 3),
          (⟨[1, 2, 3], .read⟩, .error (.invalidArgument (.recordTooLong 3 2))),
          (⟨[1], .read⟩, .error (.capacityExceeded 3))] := by
  intro c batch
  have hc : c.Numbered := ⟨rfl, by decide⟩
  obtain ⟨taken, hlowest, hshares⟩ := batch_takes_lowest hc batch
  have hreversed := hshares batch.reverse (List.reverse_perm batch)
  obtain rfl : [1, 3] = taken := hreversed.takes
  exact ⟨hc, hlowest, hreversed, rfl⟩

/-! ### A batch of one status -/

theorem writeAll_eq (c : Card) (status : RecordStatus) (records : List Octets) :
    (c.writeAll status records).1.1 = takenBy (c.serve (records.map (Write.mk · status))).1 ∧
      (c.writeAll status records).1.2 +
        (takenBy (c.serve (records.map (Write.mk · status))).1).length = records.length ∧
      (c.writeAll status records).2 = (c.serve (records.map (Write.mk · status))).2 := by
  induction records generalizing c with
  | nil => exact ⟨rfl, rfl, rfl⟩
  | cons record records ih =>
    obtain ⟨htaken, hfailed, hcard⟩ := ih (c.write record status).2
    simp only [writeAll, List.map_cons, serve, List.length_cons]
    cases hanswer : (c.write record status).1 with
    | ok index =>
      simp only [takenBy_ok, List.length_cons]
      exact ⟨congrArg (index :: ·) htaken, congrArg (· + 1) hfailed, hcard⟩
    | error e =>
      simp only [takenBy_error]
      refine ⟨htaken, ?_, hcard⟩
      rw [Nat.add_right_comm]
      exact congrArg (· + 1) hfailed

/-- **A batch of one status**: as many of the lowest free slots as there are records that fit. -/
theorem writeAll_takes (hc : c.Numbered) {status : RecordStatus} (hs : status ≠ .free)
    (records : List Octets) :
    let fits := records.countP fun record => record ≠ [] ∧ record.length ≤ c.recordSize
    (c.writeAll status records).1.1 = c.freeIndices.take fits ∧
      (c.writeAll status records).1.2 + min fits c.freeIndices.length = records.length := by
  intro fits
  obtain ⟨htaken, hfailed, -⟩ := c.writeAll_eq status records
  have hshares := (shares_serve hc (records.map (Write.mk · status))).takes
  have hfits : (records.map (Write.mk · status)).countP
      (fun w => decide (w.Valid c.recordSize)) = fits := by
    rw [List.countP_map]
    refine List.countP_congr fun record _ => ?_
    simp [Write.Valid, hs]
  rw [hfits] at hshares
  rw [hshares] at htaken hfailed
  rw [List.length_take] at hfailed
  exact ⟨htaken, hfailed⟩

end ShortMessage.Card

import ShortMessage.Proofs.Fallback.Reference

/-!
# What the operations do to the entries

Every operation on a fallback registry files one entry in place of another, or does nothing, or
takes entries out.  `Files` says the first of these once, so that a chain of operations on one
reference counts as one (`Files.trans`).

* `files_register`, `files_move`, `files_detach`, `files_markResent`: the operations as filings;
* `report_of_not_awaiting`, `report_of_awaiting`, `report_cases`: what a carrier's report does;
* `Numbered.of_files`, `Numbered.retire`: entries stay under their references.
-/

namespace ShortMessage

namespace Content

/-! ### Contents without some parts -/

theorem kind_without (c : Content) (gone : List Nat) : (c.without gone).kind = c.kind := by
  cases c <;> rfl

theorem mem_of_exhaustedBy {c : Content} {gone : List Nat} (h : c.exhaustedBy gone = true) :
    ∀ i ∈ c.indices, i ∈ gone := by
  cases c with
  | sms destination serviceCentre parts =>
    intro i hi
    obtain ⟨p, hp, rfl⟩ := List.mem_map.1 hi
    have hnil : parts.filter (·.index ∉ gone) = [] := List.isEmpty_iff.1 h
    have hp' := List.filter_eq_nil_iff.1 hnil p hp
    simpa using hp'
  | mms pdu locationUrl =>
    intro i hi
    obtain rfl := List.mem_singleton.1 hi
    exact of_decide_eq_true h

theorem indices_without {c : Content} {gone : List Nat} (h : c.exhaustedBy gone = false) :
    (c.without gone).indices = c.indices.filter (· ∉ gone) := by
  cases c with
  | sms destination serviceCentre parts =>
    simp only [without, indices, List.filter_map]
    rfl
  | mms pdu locationUrl =>
    have h0 : 0 ∉ gone := of_decide_eq_false h
    simp [without, indices, h0]

theorem indices_without_sublist (c : Content) (gone : List Nat) :
    (c.without gone).indices.Sublist c.indices := by
  cases c with
  | sms destination serviceCentre parts => exact List.filter_sublist.map _
  | mms pdu locationUrl => exact .refl _

end Content

namespace Fallback

variable {f f' f'' : Fallback} {e e' : Entry} {r : MessageRef}

/-! ### Filing one entry -/

/-- `f'` is `f` with an entry filed under its reference. -/
structure Files (f : Fallback) (e : Entry) (f' : Fallback) : Prop where
  entry? : ∀ r, f'.entry? r = if r = e.ref then some e else f.entry? r
  next : f.Numbered → f'.next.Usable
  counters : f'.counters = f.counters

theorem Files.self (h : f.Files e f') : f'.entry? e.ref = some e := by
  rw [h.entry?, if_pos rfl]

theorem Files.of_ne (h : f.Files e f') (hr : r ≠ e.ref) : f'.entry? r = f.entry? r := by
  rw [h.entry?, if_neg hr]

theorem Numbered.of_files (h : f.Numbered) (hf : f.Files e f') (he : e.ref.Usable) :
    f'.Numbered := by
  refine ⟨fun r e' hr => ?_, fun r e' hr => ?_, hf.next h⟩ <;> rw [hf.entry?] at hr
  · split at hr
    · next heq =>
      obtain rfl := Option.some.inj hr
      exact heq.symm
    · exact h.ref_eq r e' hr
  · split at hr
    · next heq => rwa [heq]
    · exact h.usable r e' hr

theorem Files.trans (h : f.Files e f') (h' : f'.Files e' f'') (href : e'.ref = e.ref)
    (he : e.ref.Usable) : f.Files e' f'' := by
  refine ⟨fun r => ?_, fun hf => h'.next (hf.of_files h he), h'.counters.trans h.counters⟩
  rw [h'.entry?]
  split
  · rfl
  · next hr => rw [h.of_ne (href ▸ hr)]

theorem Files.size_le (h : f.Files e f') : f'.entries.size ≤ f.entries.size + 1 := by
  have hsub : f'.entries.keys ⊆ e.ref :: f.entries.keys := by
    intro r hr
    by_cases heq : r = e.ref
    · exact heq ▸ List.mem_cons_self
    · obtain ⟨x, hx⟩ := Registry.contains_eq_true_iff.1 (mem_keys.1 hr)
      have hold : f.entry? r = some x := (h.of_ne heq).symm.trans hx
      exact List.mem_cons_of_mem _ (mem_keys.2 (Registry.contains_eq_true_iff.2 ⟨x, hold⟩))
  have hlen := f'.nodup_keys.length_le_of_subset hsub
  rwa [List.length_cons, Registry.length_keys, Registry.length_keys] at hlen

theorem numbered_new : new.Numbered :=
  ⟨fun _ _ h => (nomatch h), fun _ _ h => (nomatch h), MessageRef.usable_first⟩

theorem files_register (f : Fallback) (message : MessageId) (content : Content) :
    f.Files ⟨f.nextFree, message, content, .awaitingReport⟩ (f.register message content).2 :=
  ⟨fun _ => Registry.get?_insert _ _ _ _,
    fun h => MessageRef.usable_following (usable_nextFree h), rfl⟩

theorem files_move (f : Fallback) (e : Entry) (phase : Phase) :
    f.Files { e with phase } (f.move e phase) :=
  ⟨fun _ => Registry.get?_insert _ _ _ _, fun h => h.next, rfl⟩

theorem files_detach (h : f.entry? r = some e) (hp : e.phase = .awaitingReport)
    (gone : List Nat) :
    f.Files
      { e with
          content := e.content.without gone
          phase := if e.content.exhaustedBy gone then .concluded else .awaitingReport }
      (f.detach r gone).2 := by
  unfold detach
  simp only [h]
  rw [if_neg (not_not_intro hp)]
  exact files_move f { e with content := e.content.without gone } _

/-- A resend leaves its entry as if it had concluded at once. -/
theorem markResent_move (h : f.Numbered) (he : f.entry? r = some e) :
    (f.move e .awaitingResend).markResent r = f.move e .concluded := by
  obtain rfl := h.ref_eq r e he
  unfold markResent
  simp only [(files_move f e .awaitingResend).self, if_true]
  unfold move
  rw [Registry.insert_insert_self]

theorem files_markResent (h : f.Numbered) (he : f.entry? r = some e) :
    f.Files { e with phase := .concluded } ((f.move e .awaitingResend).markResent r) := by
  rw [markResent_move h he]
  exact files_move f e .concluded

/-! ### Reports and sweeps -/

theorem report_of_not_awaiting {kind : Kind}
    (h : ∀ e, f.entry? r = some e → e.content.kind = kind → e.phase ≠ .awaitingReport)
    (success : Bool) :
    f.report kind r success = (.ignored, { f with
      counters := f.counters ++
        if (f.entry? r).any (·.content.kind = kind) then [] else [.staleSignal .fallback] }) := by
  unfold report
  cases he : f.entry? r with
  | none => rfl
  | some e =>
    rw [Option.filter_some, Option.any_some]
    by_cases hk : e.content.kind = kind
    · simp only [decide_eq_true hk, if_true, if_pos (h e he hk), List.append_nil]
    · simp only [decide_eq_false hk, Bool.false_eq_true, if_false]

theorem report_of_awaiting (he : f.entry? r = some e) (hp : e.phase = .awaitingReport)
    (success : Bool) :
    f.report e.content.kind r success =
      if success then (.succeeded { e with phase := .succeeded }, f.move e .concluded)
      else (.resend { e with phase := .awaitingResend }, f.move e .awaitingResend) := by
  unfold report
  rw [he, Option.filter_some, if_pos (decide_eq_true rfl)]
  simp only [hp, ne_eq, not_true_eq_false, if_false]

/-- **A carrier's report** is ignored, or it decides about an entry that waits for it. -/
theorem report_cases (f : Fallback) (kind : Kind) (r : MessageRef) (success : Bool) :
    ((∀ e, f.entry? r = some e → e.content.kind = kind → e.phase ≠ .awaitingReport) ∧
      (f.report kind r success).1 = .ignored ∧
      (f.report kind r success).2.entries = f.entries ∧
      (f.report kind r success).2.next = f.next) ∨
    ∃ e, f.entry? r = some e ∧ e.content.kind = kind ∧ e.phase = .awaitingReport ∧
      f.report kind r success =
        if success then (.succeeded { e with phase := .succeeded }, f.move e .concluded)
        else (.resend { e with phase := .awaitingResend }, f.move e .awaitingResend) := by
  by_cases h : ∃ e, f.entry? r = some e ∧ e.content.kind = kind ∧ e.phase = .awaitingReport
  · obtain ⟨e, he, rfl, hp⟩ := h
    exact Or.inr ⟨e, he, rfl, hp, report_of_awaiting he hp success⟩
  · have hno : ∀ e, f.entry? r = some e → e.content.kind = kind → e.phase ≠ .awaitingReport :=
      fun e he hk hp => h ⟨e, he, hk, hp⟩
    rw [report_of_not_awaiting hno]
    exact Or.inl ⟨hno, rfl, rfl, rfl⟩

theorem counters_report (f : Fallback) (kind : Kind) (r : MessageRef) (success : Bool) :
    ∃ new, (f.report kind r success).2.counters = f.counters ++ new ∧
      ∀ k ∈ new, k = .staleSignal .fallback := by
  have hkept : ∃ new, f.counters = f.counters ++ new ∧ ∀ k ∈ new, k = .staleSignal .fallback :=
    ⟨[], (List.append_nil _).symm, fun k hk => (nomatch hk)⟩
  unfold report
  split
  · exact ⟨_, rfl, fun k hk => List.mem_singleton.1 hk⟩
  · split
    · exact hkept
    · split <;> exact hkept

theorem Numbered.of_entries_eq (h : f.Numbered) (hentries : f'.entries = f.entries)
    (hnext : f'.next = f.next) : f'.Numbered := by
  have hentry : ∀ r, f'.entry? r = f.entry? r := fun r => by
    unfold Fallback.entry?
    rw [hentries]
  exact ⟨fun r e hr => h.ref_eq r e (hentry r ▸ hr), fun r e hr => h.usable r e (hentry r ▸ hr),
    hnext ▸ h.next⟩

theorem entry?_retire (f : Fallback) (isTracked : MessageId → Bool) (r : MessageRef) :
    Fallback.entry? (f.retire isTracked).2 r = (f.entry? r).filter fun e => isTracked e.message :=
  Registry.get?_retain _ _ _

theorem Numbered.retire (h : f.Numbered) (isTracked : MessageId → Bool) :
    (f.retire isTracked).2.Numbered := by
  refine ⟨fun r e hr => ?_, fun r e hr => ?_, h.next⟩ <;>
    rw [entry?_retire, Option.filter_eq_some_iff] at hr
  · exact h.ref_eq r e hr.1
  · exact h.usable r e hr.1

end Fallback

end ShortMessage

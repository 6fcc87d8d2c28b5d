import Mathlib.Data.List.Induction
import ShortMessage.Proofs.Fallback.Entries

/-!
# Runs of a fallback registry

Every call on a fallback registry is an `Event`, and a run is a list of events handled one after the
other.  An entry goes its own way: what an event makes of it depends on the entry and the event
alone (`entry?_handle`), and only a registration adds one, under a reference that was free.

* `Event`, `handle`, `run`: the calls and their runs;
* `Entry.after`: what an event makes of an entry;
* `numbered_run`: every entry of a run is filed under its own reference;
* `Admissible`: a run whose registrations find a free reference; `admissible_of_length`: one that is
  not longer than there are references.
-/

namespace ShortMessage.Fallback

/-- A call on a fallback registry. -/
inductive Event
  | register (message : MessageId) (content : Content)
  | report (kind : Kind) (ref : MessageRef) (success : Bool)
  | markResent (ref : MessageRef)
  | detach (ref : MessageRef) (gone : List Nat)
  | retire (isTracked : MessageId → Bool)

/-- What one event makes of a registry. -/
def handle (f : Fallback) : Event → Fallback
  | .register message content => (f.register message content).2
  | .report kind ref success => (f.report kind ref success).2
  | .markResent ref => f.markResent ref
  | .detach ref gone => (f.detach ref gone).2
  | .retire isTracked => (f.retire isTracked).2

/-- A registry after a list of events. -/
def run (f : Fallback) (es : List Event) : Fallback :=
  es.foldl handle f

/-- **What an event makes of an entry** that was there before; nothing is left of one that is
retired. -/
def Entry.after (e : Entry) : Event → Option Entry
  | .register .. => some e
  | .report kind ref success =>
    if ref = e.ref ∧ kind = e.content.kind ∧ e.phase = .awaitingReport then
      some { e with phase := if success then .concluded else .awaitingResend }
    else some e
  | .markResent ref =>
    if ref = e.ref ∧ e.phase = .awaitingResend then some { e with phase := .concluded } else some e
  | .detach ref gone =>
    if ref = e.ref ∧ e.phase = .awaitingReport then
      some
        { e with
            content := e.content.without gone
            phase := if e.content.exhaustedBy gone then .concluded else .awaitingReport }
    else some e
  | .retire isTracked => if isTracked e.message then some e else none

/-- **How an event moves an entry on**, with the phase that the entry must be in for it. -/
inductive Entry.Moves (e : Entry) : Event → Option Entry → Prop
  | stays {ev : Event}
      (hreport : e.phase = .awaitingReport → ∀ success, ev ≠ .report e.content.kind e.ref success)
      (hdetach : e.phase = .awaitingReport → ∀ gone, ev ≠ .detach e.ref gone) :
    Moves e ev (some e)
  | decided (success : Bool) (hp : e.phase = .awaitingReport) :
    Moves e (.report e.content.kind e.ref success)
      (some { e with phase := if success then .concluded else .awaitingResend })
  | resent (hp : e.phase = .awaitingResend) :
    Moves e (.markResent e.ref) (some { e with phase := .concluded })
  | detached (gone : List Nat) (hp : e.phase = .awaitingReport) :
    Moves e (.detach e.ref gone)
      (some
        { e with
            content := e.content.without gone
            phase := if e.content.exhaustedBy gone then .concluded else .awaitingReport })
  | retired {isTracked : MessageId → Bool} (hgone : isTracked e.message = false) :
    Moves e (.retire isTracked) none

variable {f : Fallback} {r : MessageRef} {e : Entry} {m : MessageId} {c : Content}

theorem Entry.moves_after (e : Entry) (ev : Event) : e.Moves ev (e.after ev) := by
  cases ev with
  | register m c =>
    exact .stays (fun _ _ h => by cases h) (fun _ _ h => by cases h)
  | report kind ref success =>
    simp only [after]
    split
    · next h =>
      obtain ⟨rfl, rfl, hp⟩ := h
      exact .decided success hp
    · next h =>
      refine .stays (fun hp success' heq => h ?_) (fun _ _ heq => by cases heq)
      obtain ⟨rfl, rfl, -⟩ := Event.report.inj heq
      exact ⟨rfl, rfl, hp⟩
  | markResent ref =>
    simp only [after]
    split
    · next h =>
      obtain ⟨rfl, hp⟩ := h
      exact .resent hp
    · exact .stays (fun _ _ heq => by cases heq) (fun _ _ heq => by cases heq)
  | detach ref gone =>
    simp only [after]
    split
    · next h =>
      obtain ⟨rfl, hp⟩ := h
      exact .detached gone hp
    · next h =>
      refine .stays (fun _ _ heq => by cases heq) (fun hp gone' heq => h ?_)
      obtain ⟨rfl, -⟩ := Event.detach.inj heq
      exact ⟨rfl, hp⟩
  | retire isTracked =>
    simp only [after]
    split
    · exact .stays (fun _ _ heq => by cases heq) (fun _ _ heq => by cases heq)
    · next h => exact .retired (by simpa using h)

@[simp] theorem run_nil (f : Fallback) : f.run [] = f := rfl

theorem run_cons (f : Fallback) (ev : Event) (es : List Event) :
    f.run (ev :: es) = (f.handle ev).run es := rfl

theorem run_append (f : Fallback) (es fs : List Event) : f.run (es ++ fs) = (f.run es).run fs :=
  List.foldl_append

theorem run_concat (f : Fallback) (es : List Event) (ev : Event) :
    f.run (es ++ [ev]) = (f.run es).handle ev :=
  run_append f es [ev]

/-! ### What an event does to an entry -/

/-- The reference that an event is about. -/
def Event.ref? : Event → Option MessageRef
  | .report _ ref _ | .markResent ref | .detach ref _ => some ref
  | .register .. | .retire _ => none

/-- **An event about one reference** leaves all entries as they are, or moves the entry there on. -/
inductive Acts (f : Fallback) (ev : Event) (ref : MessageRef) (f' : Fallback) : Prop
  | stays (hentries : f'.entries = f.entries) (hnext : f'.next = f.next)
      (hafter : ∀ e, f.entry? ref = some e → e.after ev = some e)
  | moves {e e' : Entry} {phase : Phase} (he : f.entry? ref = some e)
      (hafter : e.after ev = some { e' with phase }) (href : e'.ref = ref)
      (hmove : f' = f.move e' phase)

variable {f' : Fallback} {ev : Event} {ref : MessageRef}

theorem Entry.after_of_ref_ne (hev : ev.ref? = some ref) (hne : e.ref ≠ ref) :
    e.after ev = some e := by
  cases ev with
  | register m c => cases hev
  | retire isTracked => cases hev
  | report kind ref' success =>
    obtain rfl := Option.some.inj hev
    exact if_neg fun h => hne h.1.symm
  | markResent ref' =>
    obtain rfl := Option.some.inj hev
    exact if_neg fun h => hne h.1.symm
  | detach ref' gone =>
    obtain rfl := Option.some.inj hev
    exact if_neg fun h => hne h.1.symm

theorem Acts.entry? (h : Acts f ev ref f') (hf : f.Numbered) (hev : ev.ref? = some ref)
    (r : MessageRef) : f'.entry? r = (f.entry? r).bind fun e => e.after ev := by
  have hother : r ≠ ref → f.entry? r = (f.entry? r).bind fun e => e.after ev := by
    intro hr
    cases he : f.entry? r with
    | none => rfl
    | some e =>
      have href := hf.ref_eq r e he
      exact (Entry.after_of_ref_ne hev (by rwa [href])).symm
  cases h with
  | stays hentries hnext hafter =>
    have hsame : f'.entry? r = f.entry? r := by
      unfold Fallback.entry?
      rw [hentries]
    rw [hsame]
    by_cases hr : r = ref
    · cases he : f.entry? r with
      | none => rfl
      | some e => exact (hafter e (hr ▸ he)).symm
    · exact hother hr
  | @moves e e' phase he hafter href hmove =>
    obtain rfl := href
    rw [hmove, Files.entry? (files_move f e' phase)]
    by_cases hr : r = e'.ref
    · rw [if_pos hr, hr, he]
      exact hafter.symm
    · rw [if_neg hr]
      exact hother hr

theorem Acts.next (h : Acts f ev ref f') : f'.next = f.next := by
  cases h with
  | stays hentries hnext hafter => exact hnext
  | moves he hafter href hmove =>
    rw [hmove]
    rfl

theorem Acts.size_le (h : Acts f ev ref f') : f'.entries.size ≤ f.entries.size + 1 := by
  cases h with
  | stays hentries hnext hafter =>
    rw [hentries]
    exact Nat.le_succ _
  | moves he hafter href hmove =>
    rw [hmove]
    exact Registry.size_insert_le _ _ _

theorem acts_report (hf : f.Numbered) (kind : Kind) (ref : MessageRef) (success : Bool) :
    Acts f (.report kind ref success) ref (f.report kind ref success).2 := by
  rcases f.report_cases kind ref success with ⟨hno, -, hentries, hnext⟩ | ⟨e, he, hk, hp, hrep⟩
  · refine .stays hentries hnext fun e he => if_neg ?_
    rintro ⟨-, rfl, hp⟩
    exact hno e he rfl hp
  · have href := hf.ref_eq ref e he
    have hmove : (f.report kind ref success).2 =
        f.move e (if success then .concluded else .awaitingResend) := by
      rw [hrep]
      cases success <;> rfl
    exact .moves he (if_pos ⟨href.symm, hk.symm, hp⟩) href hmove

theorem acts_markResent (hf : f.Numbered) (ref : MessageRef) :
    Acts f (.markResent ref) ref (f.markResent ref) := by
  unfold markResent
  cases he : f.entry? ref with
  | none => exact .stays rfl rfl fun e he' => by rw [he] at he'; cases he'
  | some e =>
    have href := hf.ref_eq ref e he
    simp only
    split
    · next hp => exact .moves he (if_pos ⟨href.symm, hp⟩) href rfl
    · next hp =>
      refine .stays rfl rfl fun e' he' => if_neg fun h => hp ?_
      rw [he] at he'
      obtain rfl := Option.some.inj he'
      exact h.2

theorem acts_detach (hf : f.Numbered) (ref : MessageRef) (gone : List Nat) :
    Acts f (.detach ref gone) ref (f.detach ref gone).2 := by
  unfold detach
  cases he : f.entry? ref with
  | none => exact .stays rfl rfl fun e he' => by rw [he] at he'; cases he'
  | some e =>
    have href := hf.ref_eq ref e he
    simp only
    split
    · next hp =>
      refine .stays rfl rfl fun e' he' => if_neg fun h => hp ?_
      rw [he] at he'
      obtain rfl := Option.some.inj he'
      exact h.2
    · next hp =>
      exact @Acts.moves _ _ _ _ e { e with content := e.content.without gone } _ he
        (if_pos ⟨href.symm, not_not.1 hp⟩) href rfl

/-- **What an event does to the entries**: it makes of each what it does, except for the entry that
it registers. -/
theorem entry?_handle (hf : f.Numbered) {ev : Event} {r : MessageRef}
    (hev : ∀ m c, ev = .register m c → r ≠ f.nextFree) :
    entry? (f.handle ev) r = (f.entry? r).bind fun e => e.after ev := by
  cases ev with
  | register m c =>
    show entry? (f.register m c).2 r = _
    rw [(files_register f m c).of_ne (hev m c rfl)]
    cases f.entry? r <;> rfl
  | report kind ref success => exact Acts.entry? (acts_report hf kind ref success) hf rfl r
  | markResent ref => exact Acts.entry? (acts_markResent hf ref) hf rfl r
  | detach ref gone => exact Acts.entry? (acts_detach hf ref gone) hf rfl r
  | retire isTracked =>
    show Fallback.entry? (f.retire isTracked).2 r = _
    rw [entry?_retire]
    cases f.entry? r with
    | none => rfl
    | some e =>
      rw [Option.filter_some]
      rfl

theorem entry?_register_self (f : Fallback) (m : MessageId) (c : Content) :
    entry? (f.register m c).2 f.nextFree = some ⟨f.nextFree, m, c, .awaitingReport⟩ :=
  (files_register f m c).self

theorem next_handle (hf : f.Numbered) (hev : ∀ m c, ev ≠ .register m c) :
    (f.handle ev).next = f.next := by
  cases ev with
  | register m c => exact absurd rfl (hev m c)
  | report kind ref success => exact (acts_report hf kind ref success).next
  | markResent ref => exact (acts_markResent hf ref).next
  | detach ref gone => exact (acts_detach hf ref gone).next
  | retire isTracked => rfl

theorem size_handle_le (hf : f.Numbered) (ev : Event) :
    (f.handle ev).entries.size ≤ f.entries.size + 1 := by
  cases ev with
  | register m c => exact Registry.size_insert_le _ _ _
  | report kind ref success => exact (acts_report hf kind ref success).size_le
  | markResent ref => exact (acts_markResent hf ref).size_le
  | detach ref gone => exact (acts_detach hf ref gone).size_le
  | retire isTracked => exact Nat.le_succ_of_le (List.length_filter_le _ _)

/-! ### References of a run -/

theorem Entry.ref_of_after {e' : Entry} (h : e.after ev = some e') : e'.ref = e.ref := by
  have hmoves := e.moves_after ev
  rw [h] at hmoves
  cases hmoves <;> rfl

theorem Numbered.handle (hf : f.Numbered) (ev : Event) : (f.handle ev).Numbered := by
  by_cases hreg : ∃ m c, ev = .register m c
  · obtain ⟨m, c, rfl⟩ := hreg
    exact hf.of_files (files_register f m c) (usable_nextFree hf)
  · have hentry : ∀ r e', entry? (f.handle ev) r = some e' →
        ∃ e, f.entry? r = some e ∧ e'.ref = e.ref := by
      intro r e' he'
      rw [entry?_handle hf fun m c heq => absurd ⟨m, c, heq⟩ hreg, Option.bind_eq_some_iff] at he'
      obtain ⟨e, he, hafter⟩ := he'
      exact ⟨e, he, Entry.ref_of_after hafter⟩
    refine ⟨fun r e' he' => ?_, fun r e' he' => ?_, ?_⟩
    · obtain ⟨e, he, href⟩ := hentry r e' he'
      rw [href, hf.ref_eq r e he]
    · obtain ⟨e, he, -⟩ := hentry r e' he'
      exact hf.usable r e he
    · rw [next_handle hf fun m c heq => hreg ⟨m, c, heq⟩]
      exact hf.next

theorem Numbered.run (hf : f.Numbered) (es : List Event) : (f.run es).Numbered := by
  induction es generalizing f with
  | nil => exact hf
  | cons ev es ih => exact ih (hf.handle ev)

theorem numbered_run (es : List Event) : (new.run es).Numbered :=
  numbered_new.run es

/-! ### Runs that can happen -/

/-- **A run that can happen**: a registration finds a free reference – the search for one would not
end otherwise. -/
def Admissible (f : Fallback) (es : List Event) : Prop :=
  ∀ pre m c post, es = pre ++ .register m c :: post → (f.run pre).HasRoom

theorem Admissible.of_append {es fs : List Event} (h : f.Admissible (es ++ fs)) :
    f.Admissible es :=
  fun pre m c post heq => h pre m c (post ++ fs) (by rw [heq]; simp)

theorem Admissible.drop {es fs : List Event} (h : f.Admissible (es ++ fs)) :
    (f.run es).Admissible fs := by
  rintro pre m c post rfl
  rw [← run_append]
  exact h (es ++ pre) m c post (by simp)

theorem Admissible.entry?_nextFree {pre post : List Event} (hf : f.Numbered)
    (h : f.Admissible (pre ++ .register m c :: post)) :
    entry? (f.run pre) (f.run pre).nextFree = none :=
  nextFree_free (hf.run pre) (h pre m c post rfl)

theorem size_run_le (hf : f.Numbered) (es : List Event) :
    (f.run es).entries.size ≤ f.entries.size + es.length := by
  induction es generalizing f with
  | nil => exact Nat.le_refl _
  | cons ev es ih =>
    have hhead := size_handle_le hf ev
    have htail := ih (hf.handle ev)
    rw [run_cons, List.length_cons]
    omega

theorem admissible_of_length {es : List Event} (h : es.length ≤ MessageRef.count) :
    new.Admissible es := by
  rintro pre m c post rfl
  have hsize := size_run_le numbered_new pre
  have hnew : new.entries.size = 0 := rfl
  rw [List.length_append, List.length_cons] at h
  exact hasRoom_of_size_lt (by omega)

end ShortMessage.Fallback

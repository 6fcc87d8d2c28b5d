import ShortMessage.Dispatcher.Send
import ShortMessage.Proofs.Fallback.Entries
import ShortMessage.Proofs.Segment

/-!
# Contents and their pieces

The parts of a content are numbered from 0 on, and its pieces carry the numbers of its parts.

* `Content.Indexed`, `Content.Sendable`: the numbering, and what is sent at all;
* `Content.map_index_cargos`, `Content.kind_of_mem_cargos`: the pieces of a content;
* `sendable_content` and its like: whatever a request cuts can be sent.
-/

namespace ShortMessage

/-- The kind of message that a piece belongs to. -/
def Cargo.kind : Cargo → Kind
  | .part .. => .sms
  | .multimedia .. => .mms

namespace Content

variable {c : Content}

/-- The parts are numbered from 0 on. -/
def Indexed (c : Content) : Prop :=
  c.indices = List.range c.indices.length

theorem Indexed.nodup (h : c.Indexed) : c.indices.Nodup := by
  unfold Indexed at h
  rw [h]
  exact List.nodup_range

theorem Indexed.mem_indices (h : c.Indexed) {i : Nat} (hi : i < c.indices.length) :
    i ∈ c.indices := by
  unfold Indexed at h
  rw [h]
  exact List.mem_range.2 hi

theorem map_index_cargos (c : Content) : c.cargos.map Cargo.index = c.indices := by
  cases c with
  | sms destination serviceCentre parts => simp [cargos, indices, Cargo.index, Function.comp_def]
  | mms pdu locationUrl => rfl

theorem kind_of_mem_cargos {g : Cargo} (h : g ∈ c.cargos) : g.kind = c.kind := by
  cases c with
  | sms destination serviceCentre parts =>
    obtain ⟨p, -, rfl⟩ := List.mem_map.1 h
    rfl
  | mms pdu locationUrl =>
    obtain rfl := List.mem_singleton.1 h
    rfl

theorem cargos_without_sublist (c : Content) (gone : List Nat) :
    (c.without gone).cargos.Sublist c.cargos := by
  cases c with
  | sms destination serviceCentre parts => exact List.filter_sublist.map _
  | mms pdu locationUrl => exact .refl _

/-- What is left of a content that some parts do not use up. -/
theorem mem_cargos_without {gone : List Nat} (h : c.exhaustedBy gone = false) {g : Cargo}
    (hg : g ∈ (c.without gone).cargos) : g ∈ c.cargos ∧ g.index ∉ gone := by
  cases c with
  | sms destination serviceCentre parts =>
    obtain ⟨p, hp, rfl⟩ := List.mem_map.1 hg
    obtain ⟨hp, hno⟩ := List.mem_filter.1 hp
    exact ⟨List.mem_map_of_mem hp, of_decide_eq_true hno⟩
  | mms pdu locationUrl =>
    obtain rfl := List.mem_singleton.1 hg
    exact ⟨hg, of_decide_eq_false h⟩

end Content

/-! ### What requests send -/

/-- **A content that can be sent**: it is of the kind that was asked for and has parts, numbered
from 0 on. -/
structure Content.Sendable (kind : Kind) (c : Content) : Prop where
  kind_eq : c.kind = kind
  nonempty : c.indices ≠ []
  indexed : c.Indexed

theorem sendable_content {r : SendRequest} {l : SegmentLimits} {c : Content}
    (h : r.content l = .ok c) : c.Sendable .sms := by
  unfold SendRequest.content at h
  cases hcheck : r.check with
  | error e => rw [hcheck] at h; cases h
  | ok u =>
    cases hseg : l.segment r.payload with
    | error e => rw [hcheck, hseg] at h; cases h
    | ok parts =>
      rw [hcheck, hseg] at h
      obtain rfl := Except.ok.inj h
      refine ⟨rfl, ?_, ?_⟩
      · show parts.map Part.index ≠ []
        rw [ne_eq, List.map_eq_nil_iff]
        exact (SegmentLimits.nonempty_of_segment hseg).2
      · show parts.map Part.index = List.range (parts.map Part.index).length
        rw [List.length_map]
        exact SegmentLimits.map_index_segment hseg

namespace Dispatcher

variable {σ : Type} {d : Dispatcher σ} {c : Content}

theorem sendable_multimediaContent {pdu : Octets} {locationUrl : Option String}
    (h : multimediaContent pdu locationUrl = .ok c) : c.Sendable .mms := by
  unfold multimediaContent at h
  split at h
  · cases h
  · obtain rfl := Except.ok.inj h
    exact ⟨rfl, List.cons_ne_nil _ _, rfl⟩

theorem sendable_storedTextContent {name : String} {serviceCentre : Option String}
    (h : d.storedTextContent name serviceCentre = .ok c) : c.Sendable .sms := by
  unfold storedTextContent at h
  cases ha : d.namedIn name with
  | error e => rw [ha] at h; cases h
  | ok a =>
    rw [ha] at h
    simp only [bind, Except.bind] at h
    split at h
    · cases h
    · exact sendable_content h

theorem sendable_storedMultimediaContent {name : String}
    (h : d.storedMultimediaContent name = .ok c) : c.Sendable .mms := by
  unfold storedMultimediaContent at h
  cases ha : d.namedIn name with
  | error e => rw [ha] at h; cases h
  | ok a =>
    rw [ha] at h
    simp only [bind, Except.bind] at h
    split at h
    · cases h
    · exact sendable_multimediaContent h

end Dispatcher

end ShortMessage

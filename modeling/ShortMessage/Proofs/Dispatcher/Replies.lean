import ShortMessage.Proofs.Dispatcher.Interrupted
import ShortMessage.Proofs.Tracker.Settling

/-!
# What a radio answers, and what follows from it

Handing pieces over moves the radio on, and the signals that it echoes go to the tracker; so the
answers to a list of hand-overs say all that the hand-overs do (`offerVia_eq`).  The pieces that the
circuit domain refuses fail after all answers are in (`offerCircuit_eq`).

* `Reply`, `Radio.replies`: the answers to hand-overs that are made one after the other;
* `Dispatcher.answered`, `offerVia_eq`, `offerCircuit_eq`: what hand-overs do;
* `Tracker.callBackAll`, `Tracker.failAll`: the echoes, and the failures after them;
* `pending_of_silent`, `failed_of_mem`, `parts_of_unmentioned`: what becomes of a part.
-/

namespace ShortMessage

namespace Verdict

/-- The radio took what it was offered. -/
def isAccepted : Verdict → Bool
  | .refused => false
  | .accepted _ => true

/-- The signals that come back before a call ends. -/
def echo : Verdict → List Signal
  | .refused => []
  | .accepted echo => echo

theorem isAccepted_eq_false_iff {v : Verdict} : v.isAccepted = false ↔ v = .refused := by
  cases v <;> simp [isAccepted]

end Verdict

/-- A hand-over and the answer of the radio. -/
structure Reply where
  handOver : HandOver
  verdict : Verdict
deriving DecidableEq

namespace Reply

/-- The message that a reply belongs to. -/
def message (r : Reply) : MessageId :=
  r.handOver.message

/-- The part that a reply is about. -/
def index (r : Reply) : Nat :=
  r.handOver.index

/-- What a reply leaves in the record. -/
def attempt (r : Reply) : Attempt :=
  ⟨r.handOver, r.verdict.isAccepted⟩

/-- What the radio has called back with its answer. -/
def said (r : Reply) : List (Callback × Signal) :=
  r.verdict.echo.map (r.handOver.callback, ·)

/-- The pieces that were refused. -/
def refused (rs : List Reply) : List Cargo :=
  (rs.filter (!·.verdict.isAccepted)).map (·.handOver.cargo)

/-- The parts that were taken, by their indices. -/
def taken (rs : List Reply) : List Nat :=
  (rs.filter (·.verdict.isAccepted)).map index

/-- Everything that was called back. -/
def echoes (rs : List Reply) : List (Callback × Signal) :=
  rs.flatMap said

end Reply

/-- What a radio answers to hand-overs that are made one after the other, and what it has become
then. -/
def Radio.replies {σ : Type} [Radio σ] (radio : σ) : List HandOver → List Reply × σ
  | [] => ([], radio)
  | h :: hs =>
    let (verdict, radio) := Radio.offer radio h
    let (rest, radio) := Radio.replies radio hs
    (⟨h, verdict⟩ :: rest, radio)

theorem Radio.map_handOver_replies {σ : Type} [Radio σ] (radio : σ) (hs : List HandOver) :
    (Radio.replies radio hs).1.map Reply.handOver = hs := by
  induction hs generalizing radio with
  | nil => rfl
  | cons h hs ih => exact congrArg (h :: ·) (ih _)

/-! ### Echoes and failures -/

namespace Tracker

variable {t : Tracker} {m : MessageId} {i j : Nat} {l : List Nat} {rs : List Reply}

/-- A list of callbacks, one after the other. -/
def callBackAll (t : Tracker) (said : List (Callback × Signal)) : Tracker :=
  said.foldl (fun t x => t.callBack x.1 x.2) t

/-- A generic failure of the listed parts, one after the other. -/
def failAll (t : Tracker) (m : MessageId) (l : List Nat) : Tracker :=
  l.foldl (fun t i => t.signal m i (.sent .genericFailure)) t

theorem callBackAll_append (t : Tracker) (said said' : List (Callback × Signal)) :
    t.callBackAll (said ++ said') = (t.callBackAll said).callBackAll said' :=
  List.foldl_append

theorem parts_signal_of_ne {c' : Context} {s : Signal} (hij : i ≠ j)
    (hc' : (t.signal m i s).context? m = some c') :
    ∃ c, t.context? m = some c ∧ c'.parts[j]? = c.parts[j]? := by
  cases hc : t.context? m with
  | none =>
    rw [signal_stale (by rw [hc]; exact nofun), context?_count, hc] at hc'
    cases hc'
  | some c =>
    refine ⟨c, rfl, ?_⟩
    by_cases hi : i < c.parts.length
    · rw [signal_eq hc hi, context?_conclude, if_pos rfl] at hc'
      rw [(Context.takeAggregate_eq_of_remains hc').1, Context.takeAggregate_parts,
        c.parts_signal_of_ne hij]
    · rw [signal_stale fun c'' hc'' => ?_, context?_count, hc] at hc'
      · obtain rfl := Option.some.inj hc'
        rfl
      · rw [hc] at hc''
        obtain rfl := Option.some.inj hc''
        exact Nat.not_lt.1 hi

theorem parts_callBack_of_ne {b : Callback} {s : Signal} {c' : Context} (hj : b.index ≠ j)
    (hc' : (t.callBack b s).context? b.message = some c') :
    ∃ c, t.context? b.message = some c ∧ c'.parts[j]? = c.parts[j]? := by
  unfold callBack at hc'
  split at hc'
  · exact parts_signal_of_ne hj hc'
  · exact ⟨c', hc', rfl⟩

theorem Pending.callBack {b : Callback} (hp : t.Pending b.message j) (hj : b.index ≠ j)
    (s : Signal) : (t.callBack b s).Pending b.message j := by
  unfold Tracker.callBack
  split
  · exact hp.signal_of_ne hj s
  · exact hp

theorem Pending.callBackAll {said : List (Callback × Signal)} (hp : t.Pending m j)
    (h : ∀ x ∈ said, x.1.message = m ∧ x.1.index ≠ j) : (t.callBackAll said).Pending m j := by
  induction said generalizing t with
  | nil => exact hp
  | cons x said ih =>
    obtain ⟨rfl, hj⟩ := h x List.mem_cons_self
    exact ih (hp.callBack hj x.2) fun y hy => h y (List.mem_cons_of_mem _ hy)

theorem parts_callBackAll_of_ne {said : List (Callback × Signal)} {c' : Context}
    (h : ∀ x ∈ said, x.1.message = m ∧ x.1.index ≠ j)
    (hc' : (t.callBackAll said).context? m = some c') :
    ∃ c, t.context? m = some c ∧ c'.parts[j]? = c.parts[j]? := by
  induction said generalizing t with
  | nil => exact ⟨c', hc', rfl⟩
  | cons x said ih =>
    obtain ⟨rfl, hj⟩ := h x List.mem_cons_self
    obtain ⟨c, hc, hsame⟩ := ih (fun y hy => h y (List.mem_cons_of_mem _ hy)) hc'
    obtain ⟨c₀, hc₀, hsame₀⟩ := parts_callBack_of_ne hj hc
    exact ⟨c₀, hc₀, hsame.trans hsame₀⟩

theorem Pending.failAll (hp : t.Pending m j) (hj : j ∉ l) : (t.failAll m l).Pending m j := by
  induction l generalizing t with
  | nil => exact hp
  | cons i l ih =>
    rw [List.mem_cons, not_or] at hj
    exact ih (hp.signal_of_ne (Ne.symm hj.1) _) hj.2

theorem parts_failAll_of_not_mem {c' : Context} (hj : j ∉ l)
    (hc' : (t.failAll m l).context? m = some c') :
    ∃ c, t.context? m = some c ∧ c'.parts[j]? = c.parts[j]? := by
  induction l generalizing t with
  | nil => exact ⟨c', hc', rfl⟩
  | cons i l ih =>
    rw [List.mem_cons, not_or] at hj
    obtain ⟨c, hc, hsame⟩ := ih hj.2 hc'
    obtain ⟨c₀, hc₀, hsame₀⟩ := parts_signal_of_ne (Ne.symm hj.1) hc
    exact ⟨c₀, hc₀, hsame.trans hsame₀⟩

/-- Pending parts fail together. -/
theorem failAll_eq_settle {c : Context} (hc : t.context? m = some c) (hl : l ≠ []) (hnd : l.Nodup)
    (hp : ∀ i ∈ l, t.Pending m i) : t.failAll m l = (t.settle m l .genericFailure).2 :=
  foldl_signal_sent hc hl hnd (fun i hi => (pending_iff hc).1 (hp i hi)) _

theorem parts_failAll_of_mem {c' : Context} (hnd : l.Nodup) (hp : ∀ i ∈ l, t.Pending m i)
    (hi : i ∈ l) (hc' : (t.failAll m l).context? m = some c') :
    c'.parts[i]? = some (.failed .genericFailure) := by
  obtain ⟨c, hc, hpart⟩ := hp i hi
  rw [failAll_eq_settle hc (List.ne_nil_of_mem hi) hnd hp, context?_settle hc] at hc'
  rw [(Context.takeAggregate_eq_of_remains hc').1, Context.takeAggregate_parts,
    Context.settle_parts, if_pos ⟨hpart, hi⟩]
  rfl

end Tracker

/-! ### What becomes of a part -/

namespace Reply

variable {rs : List Reply} {m : MessageId} {i : Nat}

theorem of_mem_echoes {x : Callback × Signal} (h : x ∈ echoes rs) :
    ∃ r ∈ rs, x.1 = r.handOver.callback ∧ r.verdict.echo ≠ [] := by
  obtain ⟨r, hr, hx⟩ := List.mem_flatMap.1 h
  obtain ⟨s, hs, rfl⟩ := List.mem_map.1 hx
  exact ⟨r, hr, rfl, List.ne_nil_of_mem hs⟩

theorem echoes_about (hm : ∀ r ∈ rs, r.message = m)
    (hi : ∀ r ∈ rs, r.index = i → r.verdict.echo = []) :
    ∀ x ∈ echoes rs, x.1.message = m ∧ x.1.index ≠ i := by
  intro x hx
  obtain ⟨r, hr, hback, hecho⟩ := of_mem_echoes hx
  rw [hback]
  exact ⟨hm r hr, fun hindex => hecho (hi r hr hindex)⟩

end Reply

namespace Tracker

variable {t : Tracker} {m : MessageId} {i : Nat} {l : List Nat} {rs : List Reply} {c' : Context}

section

variable (hm : ∀ r ∈ rs, r.message = m)
include hm

/-- A part about which the radio says nothing stays pending, unless it fails in the end. -/
theorem pending_of_silent (hp : t.Pending m i)
    (hi : ∀ r ∈ rs, r.index = i → r.verdict.echo = []) (hl : i ∉ l) :
    ((t.callBackAll (Reply.echoes rs)).failAll m l).Pending m i :=
  (hp.callBackAll (Reply.echoes_about hm hi)).failAll hl

theorem failed_of_mem (hnd : l.Nodup)
    (hl : ∀ j ∈ l, t.Pending m j ∧ ∀ r ∈ rs, r.index = j → r.verdict.echo = []) (hi : i ∈ l)
    (hc' : ((t.callBackAll (Reply.echoes rs)).failAll m l).context? m = some c') :
    c'.parts[i]? = some (.failed .genericFailure) := by
  refine parts_failAll_of_mem hnd (fun j hj => ?_) hi hc'
  obtain ⟨hp, hsilent⟩ := hl j hj
  exact hp.callBackAll (Reply.echoes_about hm hsilent)

theorem parts_of_unmentioned (hi : ∀ r ∈ rs, r.index ≠ i) (hl : i ∉ l)
    (hc' : ((t.callBackAll (Reply.echoes rs)).failAll m l).context? m = some c') :
    ∃ c, t.context? m = some c ∧ c'.parts[i]? = c.parts[i]? := by
  obtain ⟨c, hc, hsame⟩ := parts_failAll_of_not_mem hl hc'
  have habout := Reply.echoes_about hm fun r hr hindex => absurd hindex (hi r hr)
  obtain ⟨c₀, hc₀, hsame₀⟩ := parts_callBackAll_of_ne habout hc
  exact ⟨c₀, hc₀, hsame.trans hsame₀⟩

end

theorem callBackAll_of_silent (h : ∀ r ∈ rs, r.verdict.echo = []) (t : Tracker) :
    t.callBackAll (Reply.echoes rs) = t := by
  have hnone : Reply.echoes rs = [] := by
    refine List.flatMap_eq_nil_iff.2 fun r hr => ?_
    unfold Reply.said
    rw [h r hr]
    rfl
  rw [hnone]
  rfl

end Tracker

namespace Dispatcher

variable {σ : Type} {d : Dispatcher σ}

theorem foldl_callBack_echo (d : Dispatcher σ) (b : Callback) (echo : List Signal) :
    echo.foldl (fun d s => d.callBack b s) d =
      { d with tracker := d.tracker.callBackAll (echo.map (b, ·)) } := by
  induction echo generalizing d with
  | nil => rfl
  | cons s echo ih =>
    rw [List.foldl_cons, ih]
    rfl

theorem failAll_eq (d : Dispatcher σ) (m : MessageId) (cargos : List Cargo) :
    d.failAll m cargos = { d with tracker := d.tracker.failAll m (cargos.map Cargo.index) } := by
  unfold failAll Tracker.failAll
  rw [List.foldl_map]

variable [Radio σ]

/-- A dispatcher that has made hand-overs and heard what came back. -/
def answered (d : Dispatcher σ) (hs : List HandOver) : Dispatcher σ :=
  let rs := (Radio.replies d.radio hs).1
  { d with
      radio := (Radio.replies d.radio hs).2
      attempts := d.attempts ++ rs.map Reply.attempt
      counted := d.counted ++ dispatches (rs.map Reply.attempt)
      tracker := d.tracker.callBackAll (Reply.echoes rs) }

theorem offer_eq (d : Dispatcher σ) (h : HandOver) :
    d.offer h = ((Radio.offer d.radio h).1.isAccepted, d.answered [h]) := by
  unfold offer answered Radio.replies
  cases hv : Radio.offer d.radio h with
  | mk verdict radio =>
    cases verdict with
    | refused =>
      simp [Radio.replies, Verdict.isAccepted, Reply.attempt, Reply.echoes, Reply.said,
        Verdict.echo, dispatches, Tracker.callBackAll]
    | accepted echo =>
      simp only [foldl_callBack_echo]
      simp [Radio.replies, Verdict.isAccepted, Reply.attempt, Reply.echoes, Reply.said,
        Verdict.echo, dispatches, count]
      rfl

theorem answered_nil (d : Dispatcher σ) : d.answered [] = d := by
  unfold answered
  simp [Radio.replies, Reply.echoes, dispatches, Tracker.callBackAll]

theorem answered_cons (d : Dispatcher σ) (h : HandOver) (hs : List HandOver) :
    d.answered (h :: hs) = (d.answered [h]).answered hs := by
  let r : Reply := ⟨h, (Radio.offer d.radio h).1⟩
  let rs := (Radio.replies (Radio.offer d.radio h).2 hs).1
  have hattempts : d.attempts ++ (r :: rs).map Reply.attempt =
      (d.attempts ++ [r].map Reply.attempt) ++ rs.map Reply.attempt := by
    rw [List.append_assoc]
    rfl
  have hcounted : d.counted ++ dispatches ((r :: rs).map Reply.attempt) =
      (d.counted ++ dispatches ([r].map Reply.attempt)) ++ dispatches (rs.map Reply.attempt) := by
    rw [List.append_assoc, ← dispatches_append]
    rfl
  have htracker : d.tracker.callBackAll (Reply.echoes (r :: rs)) =
      (d.tracker.callBackAll (Reply.echoes [r])).callBackAll (Reply.echoes rs) := by
    rw [← Tracker.callBackAll_append]
    unfold Reply.echoes
    rw [← List.flatMap_append]
    rfl
  show Dispatcher.mk .. = Dispatcher.mk ..
  simp only [Dispatcher.mk.injEq]
  exact ⟨rfl, rfl, rfl, rfl, rfl, htracker, rfl, hattempts, rfl, hcounted⟩

/-- **Handing pieces over** does what the radio's answers say. -/
theorem offerVia_eq (d : Dispatcher σ) (route : Route) (m : MessageId) (ref : Option MessageRef)
    (cargos : List Cargo) :
    d.offerVia route m ref cargos =
      (Reply.refused (Radio.replies d.radio (cargos.map (Cargo.via route m ref))).1,
        d.answered (cargos.map (Cargo.via route m ref))) := by
  unfold offerVia
  induction cargos generalizing d with
  | nil => rw [List.map_nil, answered_nil]; rfl
  | cons c cs ih =>
    rw [List.map_cons, answered_cons]
    unfold offerAll
    simp only [offer_eq, ih]
    refine Prod.ext ?_ rfl
    unfold Reply.refused
    simp only [Radio.replies, List.filter_cons]
    cases (Radio.offer d.radio (c.via route m ref)).1 <;> rfl

/-- **The circuit domain**: what it refuses fails when all answers are in. -/
theorem offerCircuit_eq (d : Dispatcher σ) (m : MessageId) (cargos : List Cargo) :
    let hs := cargos.map (Cargo.via .circuit m none)
    let rs := (Radio.replies d.radio hs).1
    d.offerCircuit m cargos =
      { d.answered hs with
          tracker := (d.tracker.callBackAll (Reply.echoes rs)).failAll m
            ((Reply.refused rs).map Cargo.index) } := by
  intro hs rs
  unfold offerCircuit
  rw [offerVia_eq]
  exact failAll_eq _ _ _

end Dispatcher

end ShortMessage

import ShortMessage.Dispatcher.Storage
import ShortMessage.Proofs.Dispatcher.Refusal
import ShortMessage.Proofs.Registry

/-!
# Calls to the archive

A call to the archive is checked, carried out, and then the name that the archive answers is looked
at.  What is found out before the archive is asked leaves everything as it was; a name that is found
to be empty comes too late, for the message is kept by then.  The names that an archive gives out by
itself are never empty, so only a name that an import brings can be.

* `ArchiveCall`, `atArchive`: the calls, and what is answered;
* `ArchiveCall.fault?`, `ArchiveCall.on`, `atArchive_eq`: the three parts of every call;
* `Archive.SameContent`: what an archive keeps, in whatever order;
* `ArchiveCall.Strays`, `failed_call_leaves_trace_iff`: which failed calls leave a trace;
* `Holds`, `holds_afterCalls`: where a message that is kept comes from.
-/

namespace ShortMessage

theorem Archive.nameOf_ne_empty (n : Nat) : nameOf n ≠ "" := by
  intro h
  have hlength := congrArg String.length h
  simp [nameOf] at hlength

/-- **The same content**: the same messages, conversations and flags under the same names, and
whether the archive keeps what is sent and received by itself. -/
structure Archive.SameContent (a b : Archive) : Prop where
  messages : ∀ name, b.messages.get? name = a.messages.get? name
  conversations : ∀ number, b.conversations.get? number = a.conversations.get? number
  flags : ∀ name, b.flags.get? name = a.flags.get? name
  autoPersists : b.autoPersists = a.autoPersists

theorem Archive.SameContent.refl (a : Archive) : a.SameContent a :=
  ⟨fun _ => rfl, fun _ => rfl, fun _ => rfl, rfl⟩

/-- Putting a message down changes the content unless just that message was there. -/
theorem Archive.sameContent_put_iff {a : Archive} {name : String} {m : Message} :
    a.SameContent (a.put name m) ↔ a.messages.get? name = some m := by
  have hget : ∀ k, (a.put name m).messages.get? k =
      if k = name then some m else a.messages.get? k :=
    fun k => Registry.get?_insert a.messages name k m
  refine ⟨fun h => ?_, fun h => ⟨fun k => ?_, fun _ => rfl, fun _ => rfl, rfl⟩⟩
  · rw [← h.messages name, hget, if_pos rfl]
  · rw [hget]
    split
    · next hk => rw [hk, h]
    · rfl

namespace Dispatcher

variable {σ : Type}

/-! ### The calls -/

/-- A call to the archive. -/
inductive ArchiveCall
  | addTextDraft (destination body : String)
  | addMultimediaDraft (pdu : Octets)
  | importText (m : ImportedText)
  | importMultimedia (m : ImportedMultimedia)
  | updateFlags (name : String) (change : Flags)
  | deleteStored (name : String)
  | deleteConversation (number : Int)
  | setAutoPersisting (enabled : Bool)

/-- What a call to the archive answers: the name of the message that is kept, or whether there was
one. -/
inductive ArchiveReply
  | name (name : String)
  | found (there : Bool)
  | done
deriving DecidableEq

/-- **What a dispatcher answers** to a call to its archive. -/
def atArchive (d : Dispatcher σ) : ArchiveCall → Except Failure ArchiveReply × Dispatcher σ
  | .addTextDraft destination body => (d.addTextDraft destination body).map (.map .name) id
  | .addMultimediaDraft pdu => (d.addMultimediaDraft pdu).map (.map .name) id
  | .importText m => (d.importText m).map (.map .name) id
  | .importMultimedia m => (d.importMultimedia m).map (.map .name) id
  | .updateFlags name change => (d.updateFlags name change).map (.map .found) id
  | .deleteStored name => (d.deleteStored name).map (.map .found) id
  | .deleteConversation number => (d.deleteConversation number).map (.map .found) id
  | .setAutoPersisting enabled => (d.setAutoPersisting enabled).map (.map fun _ => .done) id

namespace ArchiveCall

/-- What a caller got wrong, if anything. -/
def fault? : ArchiveCall → Option BadArgument
  | .addMultimediaDraft pdu => if pdu = [] then some .noMultimediaPdu else none
  | .importText m => if m.address = "" then some .noImportAddress else none
  | .importMultimedia m => if m.pdu = [] then some .noMultimediaPdu else none
  | .updateFlags name change =>
    if name = "" then some .noMessageName
    else if change.isUnset then some .noFlagChange else none
  | .deleteStored name => if name = "" then some .noMessageName else none
  | .addTextDraft .. | .deleteConversation _ | .setAutoPersisting _ => none

/-- What a call does to an archive, and what the archive answers. -/
def on : ArchiveCall → Archive → ArchiveReply × Archive
  | .addTextDraft destination body, a => (a.add (.text ⟨destination, body⟩)).map .name id
  | .addMultimediaDraft pdu, a => (a.add (.multimedia ⟨pdu, none⟩)).map .name id
  | .importText m, a => (a.importText m).map .name id
  | .importMultimedia m, a => (a.importMultimedia m).map .name id
  | .updateFlags name change, a => (a.updateFlags name change).map .found id
  | .deleteStored name, a => (a.delete name).map .found id
  | .deleteConversation number, a => (a.deleteConversation number).map .found id
  | .setAutoPersisting enabled, a => (.done, a.setAutoPersisting enabled)

/-- An import that brings the empty name, with a message that is not kept under it yet. -/
inductive Strays (a : Archive) : ArchiveCall → Archive.Message → Prop
  | intro {m : ImportedMultimedia} (hname : m.name = some "") (hpdu : m.pdu ≠ [])
    (hnew : a.messages.get? "" ≠ some (.multimedia ⟨m.pdu, none⟩)) :
    Strays a (.importMultimedia m) (.multimedia ⟨m.pdu, none⟩)

end ArchiveCall

/-- A reply as the dispatcher passes it on: the empty name is a failure. -/
def passedOn (reply : ArchiveReply) : Except Failure ArchiveReply :=
  if reply = .name "" then .error (.internal .unnamedMessage) else .ok reply

/-- What a caller got wrong is told first, then whether there is an archive; the archive is changed
before its reply is looked at. -/
def askArchive (d : Dispatcher σ) (fault : Option BadArgument)
    (op : Archive → ArchiveReply × Archive) : Except Failure ArchiveReply × Dispatcher σ :=
  match fault, d.archive with
  | some cause, _ => (.error (.invalidArgument cause), d)
  | none, none => (.error (.unavailable .archive), d)
  | none, some a => (passedOn (op a).1, d.withArchive (op a).2)

/-- What is checked before the archive is asked. -/
def refusal : Option BadArgument → Except Failure Unit
  | some cause => .error (.invalidArgument cause)
  | none => .ok ()

theorem refuseIf_eq {bad : Bool} {p : Prop} [Decidable p] (h : bad = true ↔ p)
    (cause : BadArgument) : refuseIf bad cause = refusal (if p then some cause else none) := by
  unfold refuseIf
  by_cases hp : p
  · rw [if_pos (h.2 hp), if_pos hp]
    rfl
  · rw [if_neg fun hbad => hp (h.1 hbad), if_neg hp]
    rfl

theorem checkFlagChange_eq (name : String) (change : Flags) :
    checkFlagChange name change = refusal (ArchiveCall.fault? (.updateFlags name change)) := by
  simp only [checkFlagChange, ArchiveCall.fault?, refuseIf_eq toList_isEmpty_iff,
    refuseIf_eq (Iff.refl (change.isUnset = true))]
  by_cases hname : name = ""
  · rw [if_pos hname, if_pos hname]
    rfl
  · rw [if_neg hname, if_neg hname]
    rfl

theorem map_onArchive {α : Type} (d : Dispatcher σ) (fault : Option BadArgument)
    (op : Archive → α × Archive) (reply : α → ArchiveReply) (hreply : ∀ x, reply x ≠ .name "") :
    (d.onArchive (refusal fault) op).map (Except.map reply) id =
      d.askArchive fault fun a => (op a).map reply id := by
  unfold onArchive askArchive
  cases fault with
  | some cause => rfl
  | none =>
    cases d.archive with
    | none => rfl
    | some a => exact congrArg (·, _) (if_neg (hreply (op a).1)).symm

theorem map_addNamed (d : Dispatcher σ) (fault : Option BadArgument)
    (op : Archive → String × Archive) :
    (d.addNamed (refusal fault) op).map (Except.map .name) id =
      d.askArchive fault fun a => (op a).map .name id := by
  have hnamed (name : String) : (checkNamed (.ok name)).map .name = passedOn (.name name) := by
    by_cases hname : name = ""
    · subst hname
      rfl
    · have hlist : name.toList.isEmpty = false := by simpa [toList_isEmpty_iff] using hname
      simp [checkNamed, hlist, passedOn, hname, Except.map]
  unfold addNamed onArchive askArchive
  cases fault with
  | some cause => rfl
  | none =>
    cases d.archive with
    | none => rfl
    -- whatever becomes of the reply, the archive after the call is the one that `op` leaves
    | some a => exact congrArg (·, _) (hnamed (op a).1)

/-- **Every call asks the archive** in the same three steps. -/
theorem atArchive_eq (d : Dispatcher σ) (call : ArchiveCall) :
    d.atArchive call = d.askArchive call.fault? call.on := by
  cases call with
  | addTextDraft destination body => exact map_addNamed d none (·.add (.text ⟨destination, body⟩))
  | addMultimediaDraft pdu =>
    simp only [atArchive, addMultimediaDraft, refuseIf_eq List.isEmpty_iff]
    exact map_addNamed d _ _
  | importText m =>
    simp only [atArchive, importText, refuseIf_eq toList_isEmpty_iff]
    exact map_addNamed d _ _
  | importMultimedia m =>
    simp only [atArchive, importMultimedia, refuseIf_eq List.isEmpty_iff]
    exact map_addNamed d _ _
  | updateFlags name change =>
    simp only [atArchive, updateFlags, checkFlagChange_eq]
    exact map_onArchive d _ _ .found fun _ => nofun
  | deleteStored name =>
    simp only [atArchive, deleteStored, refuseIf_eq toList_isEmpty_iff]
    exact map_onArchive d _ _ .found fun _ => nofun
  | deleteConversation number =>
    exact map_onArchive d none (·.deleteConversation number) .found fun _ => nofun
  | setAutoPersisting enabled =>
    exact map_onArchive d none (fun a => ((), a.setAutoPersisting enabled)) (fun _ => .done)
      fun _ => nofun

theorem atArchive_cases (d : Dispatcher σ) (call : ArchiveCall) :
    (∃ f, d.atArchive call = (.error f, d)) ∨
      ∃ a, call.fault? = none ∧ d.archive = some a ∧
        d.atArchive call = (passedOn (call.on a).1, d.withArchive (call.on a).2) := by
  rw [atArchive_eq]
  unfold askArchive
  cases call.fault? with
  | some cause => exact Or.inl ⟨_, rfl⟩
  | none =>
    cases d.archive with
    | none => exact Or.inl ⟨_, rfl⟩
    | some a => exact Or.inr ⟨a, rfl, rfl, rfl⟩

/-! ### What a failed call leaves -/

namespace ArchiveCall

variable {a : Archive} {call : ArchiveCall}

theorem reply_eq_empty_iff :
    (call.on a).1 = .name "" ↔ ∃ m, call = .importMultimedia m ∧ m.name = some "" := by
  have hadd (x : Archive.Message) : (a.add x).1 ≠ "" := Archive.nameOf_ne_empty _
  cases call with
  | importMultimedia m =>
    cases hname : m.name with
    | none => simp [on, Archive.importMultimedia, hname, hadd]
    | some name => simp [on, Archive.importMultimedia, hname]
  | addTextDraft destination body => simp [on, hadd]
  | addMultimediaDraft pdu => simp [on, hadd]
  | importText m => simp [on, Archive.importText, hadd]
  | updateFlags name change => simp [on]
  | deleteStored name => simp [on]
  | deleteConversation number => simp [on]
  | setAutoPersisting enabled => simp [on]

theorem on_of_name {m : ImportedMultimedia} {name : String} (h : m.name = some name) :
    on (.importMultimedia m) a = (.name name, a.put name (.multimedia ⟨m.pdu, none⟩)) := by
  simp [on, Archive.importMultimedia, h]

theorem strays_of_reply (hfault : call.fault? = none) (hreply : (call.on a).1 = .name "") :
    ∃ x, call.on a = (.name "", a.put "" x) ∧
      (a.messages.get? "" ≠ some x → call.Strays a x) := by
  obtain ⟨m, rfl, hname⟩ := reply_eq_empty_iff.1 hreply
  have hpdu : m.pdu ≠ [] := fun hnil => by simp [fault?, hnil] at hfault
  exact ⟨_, on_of_name hname, .intro hname hpdu⟩

end ArchiveCall

/-- Nothing was done to an archive that can be seen from outside. -/
def SameArchive (d d' : Dispatcher σ) : Prop :=
  Option.Rel Archive.SameContent d.archive d'.archive

theorem SameArchive.refl (d : Dispatcher σ) : d.SameArchive d := by
  unfold SameArchive
  cases d.archive with
  | none => exact .none
  | some a => exact .some (.refl a)

theorem sameArchive_withArchive_iff {d : Dispatcher σ} {a b : Archive} (ha : d.archive = some a) :
    d.SameArchive (d.withArchive b) ↔ a.SameContent b := by
  unfold SameArchive
  rw [ha]
  refine ⟨fun h => ?_, fun h => .some h⟩
  cases h with
  | some h => exact h

/-- **Failed calls that leave a trace** are the imports that bring the empty name, and no others.
The message is kept under that name. -/
theorem failed_call_leaves_trace_iff (d : Dispatcher σ) (call : ArchiveCall) :
    ((∃ f, (d.atArchive call).1 = .error f) ∧ ¬ d.SameArchive (d.atArchive call).2) ↔
      ∃ a x, d.archive = some a ∧ call.Strays a x ∧
        d.atArchive call = (.error (.internal .unnamedMessage), d.withArchive (a.put "" x)) := by
  constructor
  · rintro ⟨⟨f, hf⟩, htrace⟩
    rcases d.atArchive_cases call with ⟨g, hcall⟩ | ⟨a, hfault, ha, hcall⟩
    · rw [hcall] at htrace
      exact absurd (SameArchive.refl d) htrace
    rw [hcall] at hf htrace
    have hempty : (call.on a).1 = .name "" := by
      by_contra hne
      rw [passedOn, if_neg hne] at hf
      cases hf
    obtain ⟨x, hon, hstray⟩ := ArchiveCall.strays_of_reply hfault hempty
    rw [hon] at htrace hcall
    rw [sameArchive_withArchive_iff ha, Archive.sameContent_put_iff] at htrace
    exact ⟨a, x, ha, hstray htrace, hcall⟩
  · rintro ⟨a, x, ha, hstray, hcall⟩
    rw [hcall, sameArchive_withArchive_iff ha, Archive.sameContent_put_iff]
    refine ⟨⟨_, rfl⟩, ?_⟩
    cases hstray with
    | intro hname hpdu hnew => exact hnew

/-- An import under the empty name fails, its message is kept, and no call can delete it by its
name. -/
theorem failed_import_leaves_message :
    let d : Dispatcher Unit :=
      (new .standard 300 true () (.memory (.new 1 1))).withArchive .empty
    let asked := d.atArchive (.importMultimedia ⟨[1, 2], some "", none, false, false⟩)
    asked.1 = .error (.internal .unnamedMessage) ∧
      (∃ a, asked.2.archive = some a ∧ a.messages.get? "" = some (.multimedia ⟨[1, 2], none⟩)) ∧
      ¬ d.SameArchive asked.2 ∧
      asked.2.atArchive (.deleteStored "") =
        (.error (.invalidArgument .noMessageName), asked.2) := by
  intro d asked
  refine ⟨rfl, ⟨_, rfl, rfl⟩, fun hsame => ?_, rfl⟩
  have hget := Archive.sameContent_put_iff.1 ((sameArchive_withArchive_iff rfl).1 hsame)
  cases hget

/-! ### Where a message that is kept comes from -/

/-- A message that is kept in the archive. -/
def Holds (d : Dispatcher σ) (name : String) (x : Archive.Message) : Prop :=
  ∃ a, d.archive = some a ∧ a.messages.get? name = some x

/-- **A call adds** nothing but a message under the name that it answers. -/
theorem ArchiveCall.get?_messages_on {call : ArchiveCall} {a : Archive} {name : String}
    {x : Archive.Message} (h : (call.on a).2.messages.get? name = some x) :
    a.messages.get? name = some x ∨ (call.on a).1 = .name name := by
  have hput {k : String} {y : Archive.Message}
      (h : (a.messages.insert k y).get? name = some x) :
      a.messages.get? name = some x ∨ ArchiveReply.name k = .name name := by
    rw [Registry.get?_insert] at h
    split at h
    · next hk => exact Or.inr (by rw [hk])
    · exact Or.inl h
  cases call with
  | addTextDraft destination body => exact hput h
  | addMultimediaDraft pdu => exact hput h
  | importText m => exact hput h
  | importMultimedia m =>
    cases hname : m.name with
    | some k =>
      rw [on_of_name hname] at h ⊢
      exact hput h
    | none =>
      simp only [on, Archive.importMultimedia, hname] at h ⊢
      exact hput h
  | updateFlags k change =>
    refine Or.inl ?_
    simp only [on, Archive.updateFlags] at h
    split at h <;> exact h
  | deleteStored k =>
    refine Or.inl ?_
    simp only [on, Archive.delete, Prod.map_snd, id_eq, Registry.get?_erase] at h
    split at h
    · cases h
    · exact h
  | deleteConversation number =>
    refine Or.inl ?_
    simp only [on, Archive.deleteConversation] at h
    split at h
    · exact h
    · simp only [Prod.map_snd, id_eq, Registry.get?_retain, Option.filter_eq_some_iff] at h
      exact h.1
  | setAutoPersisting enabled => exact Or.inl h

/-- **A message that is kept after a call** was kept before it, or the call answered its name, or it
strayed in under the empty name. -/
theorem holds_atArchive {d : Dispatcher σ} {call : ArchiveCall} {name : String}
    {x : Archive.Message} (h : (d.atArchive call).2.Holds name x) :
    d.Holds name x ∨ (d.atArchive call).1 = .ok (.name name) ∨
      name = "" ∧ ∃ a, d.archive = some a ∧ call.Strays a x := by
  rcases d.atArchive_cases call with ⟨f, hcall⟩ | ⟨a, hfault, ha, hcall⟩
  · rw [hcall] at h
    exact Or.inl h
  by_cases hbefore : a.messages.get? name = some x
  · exact Or.inl ⟨a, ha, hbefore⟩
  rw [hcall] at h ⊢
  obtain ⟨a', ha', hx⟩ := h
  obtain rfl := Option.some.inj ha'
  have hreply := (ArchiveCall.get?_messages_on hx).resolve_left hbefore
  refine Or.inr ?_
  by_cases hname : name = ""
  · subst hname
    obtain ⟨y, hon, hstray⟩ := ArchiveCall.strays_of_reply hfault hreply
    rw [hon] at hx
    obtain rfl := Option.some.inj ((Registry.get?_insert_self ..).symm.trans hx)
    exact Or.inr ⟨rfl, a, ha, hstray hbefore⟩
  · left
    rw [hreply, passedOn, if_neg]
    simpa using hname

/-- A dispatcher after some calls to its archive. -/
def afterCalls (d : Dispatcher σ) (calls : List ArchiveCall) : Dispatcher σ :=
  calls.foldl (fun d call => (d.atArchive call).2) d

/-- **Messages that are kept after any calls** were kept before, or their name was answered by one
of the calls, except for those that strayed in. -/
theorem holds_afterCalls {d : Dispatcher σ} {calls : List ArchiveCall} {name : String}
    {x : Archive.Message} (h : (d.afterCalls calls).Holds name x) :
    d.Holds name x ∨ ∃ pre call post, calls = pre ++ call :: post ∧
      (((d.afterCalls pre).atArchive call).1 = .ok (.name name) ∨
        name = "" ∧ ∃ a, (d.afterCalls pre).archive = some a ∧ call.Strays a x) := by
  induction calls using List.reverseRecOn with
  | nil => exact Or.inl h
  | append_singleton pre call ih =>
    rw [afterCalls, List.foldl_concat] at h
    rcases holds_atArchive h with hbefore | hcall
    · refine (ih hbefore).imp_right ?_
      rintro ⟨early, earlier, post, rfl, hearlier⟩
      exact ⟨early, earlier, post ++ [call], by simp, hearlier⟩
    · exact Or.inr ⟨pre, call, [], rfl, hcall⟩

end Dispatcher

end ShortMessage

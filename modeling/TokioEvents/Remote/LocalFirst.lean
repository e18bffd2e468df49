/-
  TokioEvents.Remote.LocalFirst

  Whether what goes over the network was first published locally, under the same id.

  `publish_remote_delayed` and `publish_remote_scheduled` publish locally and go on to
  the network with the id they got.  `publish_remote` never asks the local bus: it
  draws an id of its own, sends, and returns it.
-/

import TokioEvents.Remote.Effects

namespace TokioEvents

/-- The local dispatcher has taken the event of the call under this id. -/
def Publication.TakenAs (publication : Publication) (s : RemoteBus) (eventId : Uuid) : Prop :=
  ∃ n call metadata, publication.call = some n ∧ s.bus.calls[n]? = some call ∧
    call.envelope = publication.remote.envelope publication.event metadata ∧
    metadata.eventId = eventId ∧ n ∈ s.accepted

/-- The event of call `k` is passed to the transport under this id, at once or by a task
    that sleeps before. -/
def Publication.SentAs (publication : Publication) (s : RemoteBus) (k : Nat) (eventId : Uuid) :
    Prop :=
  ∃ payload, publication.remote.serializeEvent publication.event = .ok payload ∧
    (⟨k, publication.remote.remoteTopic, payload, eventId.hyphenated⟩ : NetworkMessage)
      ∈ s.wire ++ s.outbox

/-- The local bus has refused the event, or was shutting down when the call began. -/
def Publication.Refused (publication : Publication) (bus : MemoryBus) : Prop :=
  publication.shuttingDown = true ∨ ∃ n call e, publication.call = some n ∧
    bus.calls[n]? = some call ∧ call.phase = .returned (.error e)

/-- The local bus and the network agree about call `k`: if it returns `Ok`, both have the
    event under the id it returns, and of an event that was refused nothing is sent. -/
structure Publication.Agrees (publication : Publication) (s : RemoteBus) (k : Nat) : Prop where
  taken : ∀ eventId, publication.phase = .returned (.ok eventId) → publication.TakenAs s eventId
  sent : ∀ eventId, publication.phase = .returned (.ok eventId) → s.transport = true →
    publication.SentAs s k eventId
  refused : publication.Refused s.bus → ∀ message ∈ s.wire ++ s.outbox, message.publication ≠ k

/-- The local publish of a call. -/
def PublicationPhase.call : PublicationPhase → Option Nat
  | .publishing _ call => some call
  | _ => none

/-- The id that the call has returned. -/
def PublicationPhase.returnedId : PublicationPhase → Option Uuid
  | .returned (.ok eventId) => some eventId
  | _ => none

theorem PublicationPhase.eq_of_returnedId {phase : PublicationPhase} {eventId : Uuid}
    (h : phase.returnedId = some eventId) : phase = .returned (.ok eventId) := by
  unfold returnedId at h
  split at h <;> cases h
  rfl

namespace RemoteBus

/-- The local bus and the network agree about every call. -/
def Agrees (s : RemoteBus) : Prop :=
  ∀ (k : Nat) publication, s.publications[k]? = some publication → publication.Agrees s k

/-- The publish call is the local publish of a call that goes over the network. -/
def Publishing (s : RemoteBus) (n : Nat) : Prop :=
  ∃ publication ∈ s.publications, publication.phase.call = some n

instance (s : RemoteBus) (n : Nat) : Decidable (s.Publishing n) :=
  inferInstanceAs (Decidable (∃ publication ∈ s.publications, publication.phase.call = some n))

/-- `publish_remote` does not get beyond its serialization, or it meets a transport and a
    bus that is running. -/
def MeetsNetwork (s : RemoteBus) : Except Error Bytes → Prop
  | .ok _ => s.transport = true ∧ s.bus.shutdownState = .running
  | .error _ => True

instance (s : RemoteBus) : (payload : Except Error Bytes) → Decidable (s.MeetsNetwork payload)
  | .ok _ => inferInstanceAs (Decidable (_ ∧ _))
  | .error _ => isTrue trivial

/-- What is asked of a step: `publish_remote` sends only while the bus is running, and its
    transport fails; and the dispatcher drops no event of the other two. -/
def LocalFirst (config : EventBusConfig) (s : RemoteBus) : Action → Prop
  | .publication (.publish remote event .immediate _ _ _) =>
    s.MeetsNetwork (remote.serializeEvent event)
  | .publication (.sent k (.ok _)) => ∀ publication ∈ s.publications[k]?,
    publication.kind ≠ .immediate
  | .bus (.publisher (.dispatch n now)) => s.Publishing n → ∀ call ∈ s.bus.calls[n]?,
    ¬ s.bus.DropsEvent config call.envelope now
  | _ => True

instance (config : EventBusConfig) (s : RemoteBus) :
    (a : Action) → Decidable (s.LocalFirst config a)
  | .publication (.publish remote event .immediate _ _ _) =>
    inferInstanceAs (Decidable (s.MeetsNetwork (remote.serializeEvent event)))
  | .publication (.sent k (.ok _)) => inferInstanceAs (Decidable (∀ publication ∈
    s.publications[k]?, publication.kind ≠ .immediate))
  | .bus (.publisher (.dispatch n now)) => inferInstanceAs (Decidable (s.Publishing n →
    ∀ call ∈ s.bus.calls[n]?, ¬ s.bus.DropsEvent config call.envelope now))
  | .publication (.publish _ _ (.delayed _) _ _ _)
  | .publication (.publish _ _ (.scheduled _) _ _ _) | .publication (.sent _ (.error _))
  | .publication (.published _ _) | .publication (.dropped _) | .publication (.wake _)
  | .consumer _ => isTrue trivial
  | .bus (.publisher (.publish _ _)) | .bus (.publisher (.acquire _))
  | .bus (.publisher (.send _)) | .bus (.publisher (.cancel _)) | .bus (.publisher (.wake _))
  | .bus (.worker _) | .bus (.handler _ _) | .bus (.subscriber _)
  | .bus (.shutdown _) => isTrue trivial

variable {config : EventBusConfig} {s s' : RemoteBus} {k n : Nat} {publication : Publication}

/-! ## The local publish of a call -/

/-- The publish call is a blocking one, of the event of the call. -/
def OfPublication (bus : MemoryBus) (n : Nat) (publication : Publication) : Prop :=
  ∃ call metadata, bus.calls[n]? = some call ∧ call.nonBlocking = false ∧
    call.envelope = publication.remote.envelope publication.event metadata

/-- If the publish call has returned `Ok`, the dispatcher has taken its event. -/
def OkTaken (bus : MemoryBus) (accepted : List Nat) (n : Nat) : Prop :=
  ∀ call eventId, bus.calls[n]? = some call → call.phase = .returned (.ok eventId) → n ∈ accepted

theorem OfPublication.step {bus bus' : MemoryBus} {b : MemoryBus.Action}
    (h : OfPublication bus n publication) (hb : bus.step config b = some bus') :
    OfPublication bus' n publication := by
  obtain ⟨call, metadata, hcall, hblocking, henvelope⟩ := h
  obtain ⟨phase, hcall'⟩ := MemoryBus.call_step hb hcall
  exact ⟨_, metadata, hcall', hblocking, henvelope⟩

theorem okTaken_of_phase {bus bus' : MemoryBus} {accepted : List Nat} {call : PublishCall}
    {phase : PublishPhase} (hcall : bus.calls[n]? = some call)
    (hphase : ∀ eventId, phase = .returned (.ok eventId) → n ∈ accepted)
    (hcalls : bus'.calls = bus.calls.set n { call with phase := phase }) :
    OkTaken bus' accepted n := by
  intro call' eventId hcall' hreturned
  obtain rfl := eq_of_set hcall hcalls hcall'
  exact hphase eventId hreturned

/-- **A blocking call** returns `Ok` only after its event is taken, if it is not dropped. -/
theorem OkTaken.step {b : MemoryBus.Action} {bus' : MemoryBus} {call : PublishCall}
    (h : OkTaken s.bus s.accepted n) (hI : s.CallsInOrder) (hcall : s.bus.calls[n]? = some call)
    (hblocking : call.nonBlocking = false) (hb : s.bus.step config b = some bus')
    (hdispatch : ∀ now, b = .publisher (.dispatch n now) →
      ¬ s.bus.DropsEvent config call.envelope now) :
    OkTaken bus' (s.setBus bus').accepted n := by
  by_cases htarget : ∃ p, b = .publisher p ∧ p.target = some n
  · obtain ⟨p, rfl, htarget⟩ := htarget
    cases p with
    | publish envelope nonBlocking => cases htarget
    | wake index => cases htarget
    | acquire m =>
      cases htarget
      obtain ⟨call', hcall', -, rfl⟩ := MemoryBus.acquire_eq_some hb
      exact okTaken_of_phase hcall' (by simp) rfl
    | cancel m =>
      cases htarget
      obtain ⟨call', hcall', -, rfl⟩ := MemoryBus.cancel_eq_some hb
      exact okTaken_of_phase hcall' (by simp) rfl
    | dispatch m now =>
      cases htarget
      obtain ⟨-, hout⟩ := MemoryBus.dispatch_blocking hcall hblocking hb
      cases hout with
      | refused e => exact okTaken_of_phase hcall (by simp) rfl
      | @scheduled dispatcher hdispatcher =>
        refine okTaken_of_phase hcall (fun _ _ => List.mem_append_right _ ?_) rfl
        rw [hI.sender dispatcher hdispatcher]
        exact List.mem_map.mpr ⟨⟨n, call.envelope⟩, List.mem_append_right _ List.mem_cons_self, rfl⟩
      | dropped hdrops => exact absurd hdrops (hdispatch now rfl)
      | awaits => exact okTaken_of_phase hcall (by simp) rfl
      | entered => exact okTaken_of_phase hcall (fun _ _ => mem_accepted_enqueue s) rfl
    | send m =>
      cases htarget
      obtain ⟨-, ⟨-, rfl⟩ | ⟨-, e, rfl⟩⟩ := MemoryBus.send_blocking hcall hb
      · exact okTaken_of_phase hcall (fun _ _ => mem_accepted_enqueue s) rfl
      · exact okTaken_of_phase hcall (by simp) rfl
  · have hsame := MemoryBus.call_of_other hb hcall fun p hp ht => htarget ⟨p, hp, ht⟩
    intro call' eventId hcall' hreturned
    cases hsame.symm.trans hcall'
    exact List.mem_append_left _ (List.mem_append_left _ (h call eventId hcall hreturned))

/-! ## The calls -/

/-- The local bus has not refused the event: it was running when the call began, and the
    local publish, if there is one, has returned `Ok`. -/
def Cleared (bus : MemoryBus) (publication : Publication) : Prop :=
  publication.shuttingDown = false ∧ ∀ n, publication.call = some n →
    ∃ call eventId, bus.calls[n]? = some call ∧ call.phase = .returned (.ok eventId)

/-- Call `k` is in its local publish. -/
structure InLocalPublish (s : RemoteBus) (k : Nat) (publication : Publication) (payload : Bytes)
    (n : Nat) : Prop where
  kind : publication.kind ≠ .immediate
  call : publication.call = some n
  payload : publication.remote.serializeEvent publication.event = .ok payload
  event : OfPublication s.bus n publication
  taken : OkTaken s.bus s.accepted n
  unsent : ∀ message ∈ s.wire ++ s.outbox, message.publication ≠ k
  refused : publication.shuttingDown = true → ∃ call e, s.bus.calls[n]? = some call ∧
    call.phase = .returned (.error e)

/-- How far call `k` has come. -/
structure CallInOrder (s : RemoteBus) (k : Nat) (publication : Publication) : Prop where
  immediate : publication.kind = .immediate → publication.call = none
  publishing : ∀ payload n, publication.phase = .publishing payload n →
    InLocalPublish s k publication payload n
  sending : ∀ eventId, publication.phase = .sending eventId → publication.SentAs s k eventId ∧
    (publication.kind ≠ .immediate → publication.TakenAs s eventId)
  returned : ∀ eventId, publication.phase = .returned (.ok eventId) →
    publication.TakenAs s eventId ∧ (s.transport = true → publication.SentAs s k eventId)
  cleared : ∀ message ∈ s.wire ++ s.outbox, message.publication = k →
    Cleared s.bus publication

/-- An event that was refused is not sent. -/
theorem CallInOrder.agrees (h : CallInOrder s k publication) : publication.Agrees s k where
  taken eventId hphase := (h.returned eventId hphase).1
  sent eventId hphase := (h.returned eventId hphase).2
  refused hrefused message hmem hk := by
    obtain ⟨hrunning, hok⟩ := h.cleared message hmem hk
    rcases hrefused with hshutting | ⟨n, call, e, hn, hcall, herror⟩
    · rw [hrunning] at hshutting
      cases hshutting
    · obtain ⟨call', eventId, hcall', hreturned⟩ := hok n hn
      cases hcall.symm.trans hcall'
      rw [herror] at hreturned
      cases hreturned

/-- What goes on without a hand in the call: messages of other calls, and the local bus. -/
structure Onward (s : RemoteBus) (k : Nat) (s' : RemoteBus) : Prop where
  calls : ∀ (n : Nat) call, s.bus.calls[n]? = some call →
    ∃ phase, s'.bus.calls[n]? = some { call with phase := phase }
  settled : ∀ (n : Nat) call, s.bus.calls[n]? = some call → call.pending = false →
    s'.bus.calls[n]? = some call
  accepted : s.accepted ⊆ s'.accepted
  transport : s'.transport = s.transport
  kept : ∀ message ∈ s.wire ++ s.outbox, message ∈ s'.wire ++ s'.outbox
  new : ∀ message ∈ s'.wire ++ s'.outbox, message.publication = k → message ∈ s.wire ++ s.outbox

theorem pending_returned {call : PublishCall} {result : PublishResult}
    (h : call.phase = .returned result) : call.pending = false := by
  simp [PublishCall.pending, h]

theorem Onward.takenAs {eventId : Uuid} (h : Onward s k s')
    (htaken : publication.TakenAs s eventId) : publication.TakenAs s' eventId := by
  obtain ⟨n, call, metadata, hn, hcall, henvelope, hid, haccepted⟩ := htaken
  obtain ⟨phase, hcall'⟩ := h.calls n call hcall
  exact ⟨n, _, metadata, hn, hcall', henvelope, hid, h.accepted haccepted⟩

theorem Onward.sentAs {eventId : Uuid} (h : Onward s k s')
    (hsent : publication.SentAs s k eventId) : publication.SentAs s' k eventId := by
  obtain ⟨payload, hpayload, hmem⟩ := hsent
  exact ⟨payload, hpayload, h.kept _ hmem⟩

theorem Onward.cleared (h : Onward s k s') (hcleared : Cleared s.bus publication) :
    Cleared s'.bus publication := by
  refine ⟨hcleared.1, fun n hn => ?_⟩
  obtain ⟨call, eventId, hcall, hreturned⟩ := hcleared.2 n hn
  exact ⟨call, eventId, h.settled n call hcall (pending_returned hreturned), hreturned⟩

theorem Onward.inLocalPublish {payload : Bytes} (h : Onward s k s')
    (hlocal : InLocalPublish s k publication payload n) (htaken : OkTaken s'.bus s'.accepted n) :
    InLocalPublish s' k publication payload n where
  kind := hlocal.kind
  call := hlocal.call
  payload := hlocal.payload
  event := by
    obtain ⟨call, metadata, hcall, hblocking, henvelope⟩ := hlocal.event
    obtain ⟨phase, hcall'⟩ := h.calls n call hcall
    exact ⟨_, metadata, hcall', hblocking, henvelope⟩
  taken := htaken
  unsent message hmem hk := hlocal.unsent message (h.new message hmem hk) hk
  refused hshutting := by
    obtain ⟨call, e, hcall, hreturned⟩ := hlocal.refused hshutting
    exact ⟨call, e, h.settled n call hcall (pending_returned hreturned), hreturned⟩

/-- **A call on which the step has no hand.** -/
theorem CallInOrder.onward (h : CallInOrder s k publication) (hO : Onward s k s')
    (htaken : ∀ payload n, publication.phase = .publishing payload n →
      OkTaken s'.bus s'.accepted n) : CallInOrder s' k publication where
  immediate := h.immediate
  publishing payload n hphase :=
    hO.inLocalPublish (h.publishing payload n hphase) (htaken payload n hphase)
  sending eventId hphase :=
    have ⟨hsent, htaken⟩ := h.sending eventId hphase
    ⟨hO.sentAs hsent, fun hkind => hO.takenAs (htaken hkind)⟩
  returned eventId hphase :=
    have ⟨htaken, hsent⟩ := h.returned eventId hphase
    ⟨hO.takenAs htaken, fun htransport => hO.sentAs (hsent (hO.transport.symm.trans htransport))⟩
  cleared message hmem hk := hO.cleared (h.cleared message (hO.new message hmem hk) hk)

/-- The calls, and the messages that were sent. -/
structure InOrder (s : RemoteBus) : Prop where
  call : ∀ (k : Nat) publication, s.publications[k]? = some publication →
    CallInOrder s k publication
  bound : ∀ message ∈ s.wire ++ s.outbox, message.publication < s.publications.length

theorem inOrder_build (transport : Bool) : (build config transport).InOrder where
  call := by simp [build]
  bound := by simp [build]

theorem Onward.of_localStep {a : Action} (h : LocalStep config s a s')
    (htransport : s'.transport = s.transport)
    (hkept : ∀ message ∈ s.wire ++ s.outbox, message ∈ s'.wire ++ s'.outbox)
    (hnew : ∀ message ∈ s'.wire ++ s'.outbox, message.publication = k →
      message ∈ s.wire ++ s.outbox) : Onward s k s' := by
  cases h with
  | move hbus haccepted =>
    refine ⟨fun n call => MemoryBus.call_step hbus, fun n call => MemoryBus.call_of_over hbus, ?_,
      htransport, hkept, hnew⟩
    rw [haccepted, List.append_assoc]
    exact List.subset_append_left _ _
  | keep hbus haccepted =>
    have hcalls : s'.bus.calls = s.bus.calls := by rw [hbus]
    refine ⟨fun n call hcall => ⟨call.phase, hcalls ▸ hcall⟩, fun n call hcall _ => hcalls ▸ hcall,
      ?_, htransport, hkept, hnew⟩
    rw [haccepted]
    exact fun _ h => h

theorem OkTaken.localStep {a : Action} {payload : Bytes} (hI : s.CallsInOrder)
    (hC : s.LocalFirst config a) (h : LocalStep config s a s') (hmem : publication ∈ s.publications)
    (hphase : publication.phase = .publishing payload n)
    (hlocal : InLocalPublish s k publication payload n) : OkTaken s'.bus s'.accepted n := by
  cases h with
  | @move b hbus haccepted haction =>
    obtain ⟨call, metadata, hcall, hblocking, henvelope⟩ := hlocal.event
    have htaken : OkTaken s'.bus (s.setBus s'.bus).accepted n := by
      refine hlocal.taken.step hI hcall hblocking hbus ?_
      rintro now rfl
      rcases haction with rfl | ⟨hnot, -⟩
      · exact hC ⟨publication, hmem, by rw [hphase]; rfl⟩ call hcall
      · exact absurd rfl (hnot n now)
    rw [haccepted]
    exact htaken
  | keep hbus haccepted =>
    rw [hbus, haccepted]
    exact hlocal.taken

/-- **One step**: call `k` goes on or begins, or there is no such call, and the others stay
    as they are. -/
theorem InOrder.move {a : Action} (hI : s.InOrder) (hC : s.LocalFirst config a)
    (hcalls : s.CallsInOrder) (h : LocalStep config s a s')
    (htransport : s'.transport = s.transport)
    (hkept : ∀ message ∈ s.wire ++ s.outbox, message ∈ s'.wire ++ s'.outbox)
    (hnew : ∀ message ∈ s'.wire ++ s'.outbox, message ∈ s.wire ++ s.outbox ∨
      message.publication = k ∧ k < s'.publications.length)
    (hother : ∀ (j : Nat) other, j ≠ k → s'.publications[j]? = some other →
      s.publications[j]? = some other)
    (hlength : s.publications.length ≤ s'.publications.length)
    (hat : ∀ publication', s'.publications[k]? = some publication' →
      CallInOrder s' k publication') : s'.InOrder where
  call j other hget := by
    by_cases hj : j = k
    · subst hj
      exact hat other hget
    · have hold := hother j other hj hget
      refine (hI.call j other hold).onward (.of_localStep h htransport hkept ?_) ?_
      · intro message hmem hmessage
        rcases hnew message hmem with hbefore | ⟨hk, -⟩
        · exact hbefore
        · exact absurd (hmessage.symm.trans hk) hj
      · intro payload n hphase
        exact .localStep hcalls hC h (List.mem_of_getElem? hold) hphase
          ((hI.call j other hold).publishing payload n hphase)
  bound message hmem := by
    rcases hnew message hmem with hbefore | ⟨rfl, hlt⟩
    · exact lt_of_lt_of_le (hI.bound message hbefore) hlength
    · exact hlt

/-- A step that begins no call and moves none on. -/
theorem InOrder.keep {a : Action} (hI : s.InOrder) (hC : s.LocalFirst config a)
    (hcalls : s.CallsInOrder) (h : LocalStep config s a s')
    (htransport : s'.transport = s.transport) (hpublications : s'.publications = s.publications)
    (hmessages : (s'.wire ++ s'.outbox).Perm (s.wire ++ s.outbox)) : s'.InOrder := by
  refine hI.move (k := s.publications.length) hC hcalls h htransport
    (fun _ hmem => hmessages.mem_iff.mpr hmem) (fun _ hmem => .inl (hmessages.mem_iff.mp hmem))
    (fun j other _ hget => hpublications ▸ hget) (le_of_eq (by rw [hpublications])) ?_
  intro publication' hget
  simp [hpublications] at hget

/-- A call goes on. -/
theorem InOrder.goOn {a : Action} {publication' : Publication} (hI : s.InOrder)
    (hC : s.LocalFirst config a) (hcalls : s.CallsInOrder) (h : LocalStep config s a s')
    (hpublication : s.publications[k]? = some publication)
    (htransport : s'.transport = s.transport)
    (hpublications : s'.publications = s.publications.set k publication')
    (hkept : ∀ message ∈ s.wire ++ s.outbox, message ∈ s'.wire ++ s'.outbox)
    (hnew : ∀ message ∈ s'.wire ++ s'.outbox, message ∈ s.wire ++ s.outbox ∨
      message.publication = k)
    (hat : CallInOrder s' k publication') : s'.InOrder := by
  obtain ⟨hlt, -⟩ := List.getElem?_eq_some_iff.mp hpublication
  have hlength : s'.publications.length = s.publications.length := by
    rw [hpublications, List.length_set]
  refine hI.move (k := k) hC hcalls h htransport hkept
    (fun message hmem => (hnew message hmem).imp_right fun hk => ⟨hk, hlength ▸ hlt⟩) ?_
    (le_of_eq hlength.symm) ?_
  · intro j other hj hget
    rwa [hpublications, List.getElem?_set_ne (Ne.symm hj)] at hget
  · intro other hget
    rw [hpublications, List.getElem?_set_self hlt] at hget
    cases hget
    exact hat

/-- A call begins. -/
theorem InOrder.begin {a : Action} {publication' : Publication} (hI : s.InOrder)
    (hC : s.LocalFirst config a) (hcalls : s.CallsInOrder) (h : LocalStep config s a s')
    (htransport : s'.transport = s.transport)
    (hpublications : s'.publications = s.publications ++ [publication'])
    (hkept : ∀ message ∈ s.wire ++ s.outbox, message ∈ s'.wire ++ s'.outbox)
    (hnew : ∀ message ∈ s'.wire ++ s'.outbox, message ∈ s.wire ++ s.outbox ∨
      message.publication = s.publications.length)
    (hat : CallInOrder s' s.publications.length publication') : s'.InOrder := by
  have hlength : s'.publications.length = s.publications.length + 1 := by
    rw [hpublications, List.length_append, List.length_singleton]
  refine hI.move (k := s.publications.length) hC hcalls h htransport hkept
    (fun message hmem => (hnew message hmem).imp_right fun hk => ⟨hk, by omega⟩) ?_ (by omega) ?_
  · intro j other hj hget
    have hlt := (List.getElem?_eq_some_iff.mp hget).1
    rwa [hpublications, List.getElem?_append_left (by omega)] at hget
  · intro other hget
    rw [hpublications, List.getElem?_concat_length] at hget
    cases hget
    exact hat

/-- The loops leave the calls that publish over the network alone. -/
theorem of_stepConsumer {a : ConsumerAction} (h : s.stepConsumer a = some s') :
    s'.transport = s.transport ∧ s'.publications = s.publications ∧ s'.wire = s.wire ∧
      s'.outbox = s.outbox := by
  cases a with
  | spawn remote jetStream =>
    cases h
    exact ⟨rfl, rfl, rfl, rfl⟩
  | receive k bytes eventId timestamp addr =>
    simp only [stepConsumer, receive] at h
    repeat' split at h
    all_goals cases h
    all_goals exact ⟨rfl, rfl, rfl, rfl⟩
  | routed k =>
    simp only [stepConsumer, routed] at h
    repeat' split at h
    all_goals cases h
    exact ⟨rfl, rfl, rfl, rfl⟩
  | deadLettered k =>
    simp only [stepConsumer, deadLettered] at h
    repeat' split at h
    all_goals cases h
    all_goals exact ⟨rfl, rfl, rfl, rfl⟩
  | ended k =>
    simp only [stepConsumer, consumerEnded] at h
    repeat' split at h
    all_goals cases h
    exact ⟨rfl, rfl, rfl, rfl⟩
  | dropped k =>
    simp only [stepConsumer, consumerDropped] at h
    repeat' split at h
    all_goals try cases h
    · obtain ⟨bus, hbus, rfl⟩ := Option.map_eq_some_iff.mp h
      exact ⟨rfl, rfl, rfl, rfl⟩
    · exact ⟨rfl, rfl, rfl, rfl⟩
  | ack k message =>
    simp only [stepConsumer, ack] at h
    repeat' split at h
    all_goals cases h
    exact ⟨rfl, rfl, rfl, rfl⟩

/-! ## The steps of a call -/

/-- A call that has ended without `Ok`, or was dropped. -/
theorem callInOrder_of_over {phase : PublicationPhase}
    (himmediate : publication.kind = .immediate → publication.call = none)
    (hphase : (∃ e, phase = .returned (.error e)) ∨ phase = .dropped)
    (hcleared : ∀ message ∈ s.wire ++ s.outbox, message.publication = k →
      Cleared s.bus publication) : CallInOrder s k { publication with phase := phase } := by
  refine ⟨himmediate, ?_, ?_, ?_, hcleared⟩ <;>
    rcases hphase with ⟨e, rfl⟩ | rfl <;> simp

/-- The local publish of a new call. -/
theorem inLocalPublish_publish {remote : RemoteType} {event payload : Bytes} {kind : PublishKind}
    (metadata : EventMetadata) (hI : s.InOrder) (hkind : kind ≠ .immediate)
    (hpayload : remote.serializeEvent event = .ok payload)
    (hpublication : publication = ⟨remote, event, kind,
      .publishing payload s.bus.calls.length, some s.bus.calls.length,
      decide (s.bus.shutdownState ≠ .running)⟩) :
    InLocalPublish ((s.setBus (s.bus.publish (remote.envelope event metadata) false)).addPublication
      publication) s.publications.length publication payload s.bus.calls.length := by
  subst hpublication
  have hcall : (s.bus.publish (remote.envelope event metadata) false).calls[s.bus.calls.length]?
      = some ⟨remote.envelope event metadata, false,
        if s.bus.shutdownState = .running then .acquiring
        else .returned (MemoryBus.shuttingDown false)⟩ :=
    List.getElem?_concat_length
  refine ⟨hkind, rfl, hpayload, ⟨_, metadata, hcall, rfl, rfl⟩, ?_, ?_, ?_⟩
  · intro call eventId hget hreturned
    cases hcall.symm.trans hget
    dsimp only at hreturned
    split at hreturned
    · cases hreturned
    · cases hreturned
  · intro message hmem hk
    exact absurd hk (hI.bound message hmem).ne
  · intro hshutting
    have hstate : s.bus.shutdownState ≠ .running := of_decide_eq_true hshutting
    refine ⟨_, .shuttingDown, hcall, ?_⟩
    dsimp only
    rw [if_neg hstate]
    rfl

/-- A call that begins with its local publish. -/
theorem InOrder.beginLocal {a : Action} {remote : RemoteType} {event payload : Bytes}
    {kind : PublishKind} {metadata : EventMetadata} (hI : s.InOrder)
    (hC : s.LocalFirst config a) (hcalls : s.CallsInOrder) (hkind : kind ≠ .immediate)
    (hpayload : remote.serializeEvent event = .ok payload)
    (hpublication : publication = ⟨remote, event, kind,
      .publishing payload s.bus.calls.length, some s.bus.calls.length,
      decide (s.bus.shutdownState ≠ .running)⟩)
    (h : s' = (s.setBus (s.bus.publish (remote.envelope event metadata) false)).addPublication
      publication) : s'.InOrder := by
  have hlocal := inLocalPublish_publish metadata hI hkind hpayload hpublication
  rw [← h] at hlocal
  have hstep : LocalStep config s a s' := localStep_publish (remote.envelope event metadata)
    (by rw [h]; rfl) (by rw [h]; rfl)
  refine hI.begin hC hcalls hstep (by rw [h]; rfl) (by rw [h]; rfl) (by rw [h]; exact fun _ h => h)
    (by rw [h]; exact fun _ h => .inl h) ?_
  refine ⟨fun heq => absurd heq ?_, ?_, ?_, ?_, ?_⟩
  · rw [hpublication]
    exact hkind
  · intro payload' n hphase
    rw [hpublication] at hphase
    cases hphase
    exact hlocal
  · rw [hpublication]
    simp
  · rw [hpublication]
    simp
  · intro message hmem hk
    exact absurd hk (hlocal.unsent message hmem)

/-- **`publish_remote`** and the others, up to their first `await`. -/
theorem InOrder.publish {remote : RemoteType} {event : Bytes} {kind : PublishKind} {eventId : Uuid}
    {timestamp now : DateTime} (hI : s.InOrder) (hcalls : s.CallsInOrder)
    (hC : s.LocalFirst config
      (.publication (.publish remote event kind eventId timestamp now))) :
    (s.publish remote event kind eventId timestamp now).InOrder := by
  have hunsent : ∀ message ∈ s.wire ++ s.outbox, message.publication ≠ s.publications.length :=
    fun message hmem => (hI.bound message hmem).ne
  unfold RemoteBus.publish
  dsimp only
  split
  · rename_i e herror
    refine hI.begin hC hcalls (.of_eq rfl rfl) rfl rfl (fun _ h => h) (fun _ h => .inl h) ?_
    refine ⟨fun _ => rfl, by simp, by simp, by simp, fun message hmem hk => ?_⟩
    exact absurd hk (hunsent message hmem)
  · rename_i payload hpayload
    cases kind with
    | immediate =>
      have hmeets : s.MeetsNetwork (remote.serializeEvent event) := hC
      rw [hpayload] at hmeets
      obtain ⟨htransport, hrunning⟩ := hmeets
      dsimp only
      rw [if_pos htransport]
      refine hI.begin hC hcalls (.of_eq rfl rfl) rfl rfl ?_ ?_ ?_
      · exact fun message hmem => List.mem_append.mpr
          ((List.mem_append.mp hmem).imp_left (List.mem_append_left _))
      · intro message hmem
        rcases List.mem_append.mp hmem with hwire | houtbox
        · rcases List.mem_append.mp hwire with hwire | hnew
          · exact .inl (List.mem_append_left _ hwire)
          · rw [List.mem_singleton.mp hnew]
            exact .inr rfl
        · exact .inl (List.mem_append_right _ houtbox)
      · refine ⟨fun _ => rfl, by simp, ?_, by simp, fun _ _ _ => ⟨by simp [hrunning], by simp⟩⟩
        intro eventId' hphase
        cases hphase
        refine ⟨⟨payload, hpayload, ?_⟩, fun hkind => absurd rfl hkind⟩
        exact List.mem_append_left _ (List.mem_append_right _ (List.mem_singleton.mpr rfl))
    | delayed delay => exact hI.beginLocal hC hcalls (by simp) hpayload rfl rfl
    | scheduled deliverAt => exact hI.beginLocal hC hcalls (by simp) hpayload rfl rfl

/-- The local publish has returned `Ok`: the dispatcher has taken the event. -/
theorem InLocalPublish.takenAs {payload : Bytes} {call : PublishCall} {eventId : Uuid}
    (h : InLocalPublish s k publication payload n) (hcalls : s.CallsInOrder)
    (hcall : s.bus.calls[n]? = some call) (hreturned : call.phase = .returned (.ok eventId)) :
    publication.TakenAs s eventId := by
  obtain ⟨call', metadata, hcall', -, henvelope⟩ := h.event
  cases hcall.symm.trans hcall'
  have hid := hcalls.returnsId n call eventId hcall hreturned
  exact ⟨n, call, metadata, h.call, hcall, henvelope, by rw [hid, henvelope]; rfl,
    h.taken call eventId hcall hreturned⟩

/-- A bus that was shutting down when the call began has refused the event. -/
theorem InLocalPublish.cleared {payload : Bytes} {call : PublishCall} {eventId : Uuid}
    (h : InLocalPublish s k publication payload n) (hcall : s.bus.calls[n]? = some call)
    (hreturned : call.phase = .returned (.ok eventId)) : Cleared s.bus publication := by
  constructor
  · by_contra hnot
    obtain ⟨call', e, hcall', herror⟩ := h.refused (Bool.not_eq_false _ ▸ hnot)
    cases hcall.symm.trans hcall'
    rw [hreturned] at herror
    cases herror
  · intro m hm
    cases h.call.symm.trans hm
    exact ⟨call, eventId, hcall, hreturned⟩

/-- What the network part of a call does. -/
inductive Networked (s : RemoteBus) (k : Nat) (publication : Publication)
    (message : NetworkMessage) (eventId : Uuid) : RemoteBus → Prop where
  | spawned : Networked s k publication message eventId
      ({ s with outbox := s.outbox ++ [message] }.setPublication k publication
        (.returned (.ok eventId)))
  | sent : Networked s k publication message eventId
      ((s.send message).setPublication k publication (.sending eventId))
  | skipped (h : s.transport = false) : Networked s k publication message eventId
      (s.setPublication k publication (.returned (.ok eventId)))

theorem networked_network (s : RemoteBus) (k : Nat) (publication : Publication) (payload : Bytes)
    (eventId : Uuid) (now : DateTime) :
    Networked s k publication
      ⟨k, publication.remote.remoteTopic, payload, eventId.hyphenated⟩ eventId
      (s.network k publication payload eventId now) := by
  unfold network
  dsimp only
  split
  · cases publication.kind with
    | immediate => exact .spawned
    | delayed delay => exact .spawned
    | scheduled deliverAt =>
      dsimp only
      split
      · exact .spawned
      · exact .sent
  · rename_i htransport
    exact .skipped (by simpa using htransport)

/-- **The network part** of a call whose local publish has returned `Ok`. -/
theorem InOrder.networked {a : Action} {payload : Bytes} {call : PublishCall} {eventId : Uuid}
    (hI : s.InOrder) (hC : s.LocalFirst config a) (hcalls : s.CallsInOrder)
    (hpublication : s.publications[k]? = some publication)
    (hphase : publication.phase = .publishing payload n) (hcall : s.bus.calls[n]? = some call)
    (hreturned : call.phase = .returned (.ok eventId))
    (h : Networked s k publication
      ⟨k, publication.remote.remoteTopic, payload, eventId.hyphenated⟩ eventId s') :
    s'.InOrder := by
  have hin := hI.call k publication hpublication
  have hlocal := hin.publishing payload n hphase
  have htaken := hlocal.takenAs hcalls hcall hreturned
  have hcleared := hlocal.cleared hcall hreturned
  cases h with
  | spawned =>
    refine hI.goOn hC hcalls (.of_eq rfl rfl) hpublication rfl rfl ?_ ?_
      ⟨hin.immediate, by simp, by simp, ?_, fun _ _ _ => hcleared⟩
    · exact fun message hmem => List.mem_append.mpr
        ((List.mem_append.mp hmem).imp_right (List.mem_append_left _))
    · intro message hmem
      rcases List.mem_append.mp hmem with hwire | houtbox
      · exact .inl (List.mem_append_left _ hwire)
      · rcases List.mem_append.mp houtbox with houtbox | hnew
        · exact .inl (List.mem_append_right _ houtbox)
        · rw [List.mem_singleton.mp hnew]
          exact .inr rfl
    · intro eventId' hok
      cases hok
      exact ⟨htaken, fun _ => ⟨payload, hlocal.payload,
        List.mem_append_right _ (List.mem_append_right _ (List.mem_singleton.mpr rfl))⟩⟩
  | sent =>
    refine hI.goOn hC hcalls (.of_eq rfl rfl) hpublication rfl rfl ?_ ?_
      ⟨hin.immediate, by simp, ?_, by simp, fun _ _ _ => hcleared⟩
    · exact fun message hmem => List.mem_append.mpr
        ((List.mem_append.mp hmem).imp_left (List.mem_append_left _))
    · intro message hmem
      rcases List.mem_append.mp hmem with hwire | houtbox
      · rcases List.mem_append.mp hwire with hwire | hnew
        · exact .inl (List.mem_append_left _ hwire)
        · rw [List.mem_singleton.mp hnew]
          exact .inr rfl
      · exact .inl (List.mem_append_right _ houtbox)
    · intro eventId' hsending
      cases hsending
      exact ⟨⟨payload, hlocal.payload,
        List.mem_append_left _ (List.mem_append_right _ (List.mem_singleton.mpr rfl))⟩,
        fun _ => htaken⟩
  | skipped hnone =>
    refine hI.goOn hC hcalls (.of_eq rfl rfl) hpublication rfl rfl (fun _ h => h)
      (fun _ h => .inl h) ⟨hin.immediate, by simp, by simp, ?_, fun _ _ _ => hcleared⟩
    intro eventId' hok
    cases hok
    refine ⟨htaken, fun htransport => ?_⟩
    have htransport : s.transport = true := htransport
    rw [hnone] at htransport
    cases htransport

/-- The calls take their steps. -/
theorem InOrder.stepPublication {a : PublicationAction} (hI : s.InOrder) (hcalls : s.CallsInOrder)
    (hC : s.LocalFirst config (.publication a)) (h : s.stepPublication a = some s') :
    s'.InOrder := by
  have hstep : LocalStep config s (.publication a) s' := localStep h
  cases a with
  | publish remote event kind eventId timestamp now =>
    cases h
    exact hI.publish hcalls hC
  | published k now =>
    simp only [RemoteBus.stepPublication, published] at h
    split at h
    · rename_i publication hpublication
      have hin := hI.call k publication hpublication
      split at h
      · rename_i payload n hphase
        have hlocal := hin.publishing payload n hphase
        split at h
        · rename_i call hcall
          split at h
          · rename_i eventId hreturned
            cases h
            exact hI.networked hC hcalls hpublication hphase hcall hreturned (networked_network ..)
          · rename_i e hreturned
            cases h
            exact hI.goOn hC hcalls hstep hpublication rfl rfl (fun _ h => h)
              (fun _ h => .inl h) (callInOrder_of_over hin.immediate (.inl ⟨e, rfl⟩)
                fun message hmem hk => absurd hk (hlocal.unsent message hmem))
          · cases h
        · cases h
      · cases h
    · cases h
  | sent k result =>
    simp only [RemoteBus.stepPublication, sent] at h
    split at h
    · rename_i publication hpublication
      have hin := hI.call k publication hpublication
      split at h
      · rename_i eventId hphase
        obtain ⟨hsent, htaken⟩ := hin.sending eventId hphase
        cases h
        refine hI.goOn hC hcalls hstep hpublication rfl rfl (fun _ h => h) (fun _ h => .inl h) ?_
        cases result with
        | error e => exact callInOrder_of_over hin.immediate (.inl ⟨e, rfl⟩) hin.cleared
        | ok =>
          refine ⟨hin.immediate, by simp [Except.map], by simp [Except.map], ?_, hin.cleared⟩
          intro eventId' hok
          cases hok
          exact ⟨htaken (hC publication hpublication), fun _ => hsent⟩
      · cases h
    · cases h
  | dropped k =>
    simp only [RemoteBus.stepPublication, publicationDropped] at h
    split at h
    · rename_i publication hpublication
      have hin := hI.call k publication hpublication
      split at h
      · rename_i payload n hphase
        have hlocal := hin.publishing payload n hphase
        obtain ⟨bus, hbus, rfl⟩ := Option.map_eq_some_iff.mp h
        exact hI.goOn hC hcalls hstep hpublication rfl rfl (fun _ h => h) (fun _ h => .inl h)
          (callInOrder_of_over hin.immediate (.inr rfl) fun message hmem hk =>
            absurd hk (hlocal.unsent message hmem))
      · cases h
        exact hI.goOn hC hcalls hstep hpublication rfl rfl (fun _ h => h) (fun _ h => .inl h)
          (callInOrder_of_over hin.immediate (.inr rfl) hin.cleared)
      · cases h
    · cases h
  | wake index =>
    simp only [RemoteBus.stepPublication, wake] at h
    split at h
    · rename_i message hmessage
      cases h
      refine hI.keep hC hcalls hstep rfl rfl ?_
      obtain ⟨hlt, rfl⟩ := List.getElem?_eq_some_iff.mp hmessage
      show ((s.wire ++ [s.outbox[index]]) ++ s.outbox.eraseIdx index).Perm (s.wire ++ s.outbox)
      rw [List.append_assoc]
      exact (List.getElem_cons_eraseIdx_perm hlt).append_left s.wire
    · cases h

/-- **One step** under the condition. -/
theorem InOrder.step {a : Action} (hI : s.InOrder) (hcalls : s.CallsInOrder)
    (hC : s.LocalFirst config a) (h : step config s a = some s') : s'.InOrder := by
  have hstep := localStep h
  cases a with
  | bus b =>
    obtain ⟨bus, hbus, rfl⟩ := Option.map_eq_some_iff.mp h
    exact hI.keep hC hcalls hstep rfl rfl (List.Perm.refl _)
  | consumer a =>
    obtain ⟨htransport, hpublications, hwire, houtbox⟩ := of_stepConsumer h
    exact hI.keep hC hcalls hstep htransport hpublications
      (by rw [hwire, houtbox])
  | publication a => exact hI.stepPublication hcalls hC h

theorem inOrder_along {transport : Bool} {as : List Action}
    (hexec : exec config (build config transport) as = some s)
    (hC : Transition.Along (step config) (LocalFirst config) (build config transport) as) :
    s.InOrder := by
  have hboth := Transition.invariant_along (I := fun s => s.CallsInOrder ∧ s.InOrder)
    (fun _ _ _ ⟨hcalls, hI⟩ hC h => ⟨hcalls.step h, hI.step hcalls hC h⟩)
    ⟨callsInOrder_build transport, inOrder_build transport⟩ hC hexec
  exact hboth.2

/-! ## What goes wrong otherwise -/

/-- A call returns `Ok` for an event that the dispatcher has not taken. -/
theorem not_agrees_of_untaken {eventId : Uuid}
    (hpublication : s.publications[k]? = some publication)
    (hphase : publication.phase = .returned (.ok eventId))
    (huntaken : ∀ n, publication.call = some n → n ∉ s.accepted) : ¬ s.Agrees := by
  intro h
  obtain ⟨n, _, _, hn, _, _, _, haccepted⟩ := (h k publication hpublication).taken eventId hphase
  exact huntaken n hn haccepted

/-- The network part of a call goes through. -/
theorem exec_networked {message : NetworkMessage} {eventId : Uuid}
    (hpublication : s.publications[k]? = some publication)
    (h : Networked s k publication message eventId s') :
    ∃ bs s'', exec config s' bs = some s'' ∧
      s''.publications[k]? = some { publication with phase := .returned (.ok eventId) } ∧
      s''.accepted = s.accepted := by
  obtain ⟨hlt, -⟩ := List.getElem?_eq_some_iff.mp hpublication
  cases h with
  | spawned => exact ⟨[], _, rfl, List.getElem?_set_self hlt, rfl⟩
  | skipped => exact ⟨[], _, rfl, List.getElem?_set_self hlt, rfl⟩
  | sent =>
    have hset : ((s.send message).setPublication k publication (.sending eventId)).publications[k]?
        = some { publication with phase := .sending eventId } := List.getElem?_set_self hlt
    obtain ⟨hlt', -⟩ := List.getElem?_eq_some_iff.mp hset
    refine ⟨[.publication (.sent k (.ok ()))],
      ((s.send message).setPublication k publication (.sending eventId)).setPublication k
        { publication with phase := .sending eventId } (.returned (.ok eventId)), ?_,
      List.getElem?_set_self hlt', rfl⟩
    simp only [exec, Transition.exec, RemoteBus.step, RemoteBus.stepPublication, RemoteBus.sent,
      hset, Option.bind_some]
    rfl

/-- The dispatcher drops the event of a call that then returns `Ok`. -/
theorem not_agrees_of_dropped {payload : Bytes} {call : PublishCall} {eventId : Uuid}
    (hcalls : s.CallsInOrder) (hpublication : s.publications[k]? = some publication)
    (hphase : publication.phase = .publishing payload n)
    (hlocal : InLocalPublish s k publication payload n) (hcall : s.bus.calls[n]? = some call)
    (hpending : call.pending = true) (now : DateTime) :
    ∃ bs s'', exec config (s.setBus (s.bus.finish n call (.ok eventId))) bs = some s'' ∧
      ¬ s''.Agrees := by
  generalize hs' : s.setBus (s.bus.finish n call (.ok eventId)) = s'
  have huntaken : n ∉ s'.accepted := by
    obtain ⟨haccepted, hentered, hsleepers⟩ := hcalls.not_accepted fun call' hcall' => by
      cases hcall.symm.trans hcall'
      exact hpending
    rw [← hs']
    intro hn
    rcases List.mem_append.mp hn with hn | hn
    · rcases List.mem_append.mp hn with hn | hn
      · exact haccepted hn
      · exact hentered hn
    · exact hsleepers hn
  have hpublication' : s'.publications[k]? = some publication := hs' ▸ hpublication
  have hreturned : s'.bus.calls[n]? = some { call with phase := .returned (.ok eventId) } :=
    hs' ▸ List.getElem?_set_self (List.getElem?_eq_some_iff.mp hcall).1
  obtain ⟨bs, s'', hexec, hend, haccepted⟩ := exec_networked hpublication'
    (networked_network s' k publication payload eventId now)
  refine ⟨.publication (.published k now) :: bs, s'', ?_,
    not_agrees_of_untaken hend rfl fun m hm => ?_⟩
  · refine (Transition.exec_cons_of_step _ ?_).trans hexec
    simp only [RemoteBus.step, RemoteBus.stepPublication, RemoteBus.published, hpublication',
      hphase, hreturned]
  · cases hlocal.call.symm.trans hm
    rwa [haccepted]

/-- **A step against the condition** leads to a call on which the local bus and the network
    do not agree. -/
theorem not_agrees_of_step {a : Action} (hI : s.InOrder) (hcalls : s.CallsInOrder)
    (h : step config s a = some s') (hC : ¬ s.LocalFirst config a) :
    ∃ bs s'', exec config s' bs = some s'' ∧ ¬ s''.Agrees := by
  cases a with
  | publication a =>
    cases a with
    | publish remote event kind eventId timestamp now =>
      cases kind with
      | immediate =>
        have hC : ¬ s.MeetsNetwork (remote.serializeEvent event) := hC
        refine ⟨[], s', rfl, ?_⟩
        cases h
        unfold RemoteBus.publish
        dsimp only
        split
        · rename_i e herror
          rw [herror] at hC
          exact absurd trivial hC
        · rename_i payload hpayload
          rw [hpayload] at hC
          split
          · -- the bus is shutting down
            rename_i htransport
            have hstate : s.bus.shutdownState ≠ .running := fun hrunning =>
              hC ⟨htransport, hrunning⟩
            intro hagrees
            refine (hagrees s.publications.length _ List.getElem?_concat_length).refused
              (.inl (decide_eq_true hstate)) _
              (List.mem_append_left _ (List.mem_append_right _ List.mem_cons_self)) rfl
          · -- there is no transport
            exact not_agrees_of_untaken List.getElem?_concat_length rfl (by simp)
      | delayed delay => exact absurd trivial hC
      | scheduled deliverAt => exact absurd trivial hC
    | sent k result =>
      cases result with
      | error e => exact absurd trivial hC
      | ok =>
        refine ⟨[], s', rfl, ?_⟩
        simp only [RemoteBus.step, RemoteBus.stepPublication, RemoteBus.sent] at h
        split at h
        · rename_i publication hpublication
          split at h
          · rename_i eventId hphase
            have hkind : publication.kind = .immediate := by
              by_contra hkind
              refine hC fun other hother => ?_
              cases hpublication.symm.trans hother
              exact hkind
            have hnone := (hI.call k publication hpublication).immediate hkind
            cases h
            refine not_agrees_of_untaken
              (List.getElem?_set_self (List.getElem?_eq_some_iff.mp hpublication).1) rfl
              fun n hn => ?_
            cases hnone.symm.trans hn
          · cases h
        · cases h
    | published k now => exact absurd trivial hC
    | dropped k => exact absurd trivial hC
    | wake index => exact absurd trivial hC
  | consumer a => exact absurd trivial hC
  | bus b =>
    cases b with
    | publisher p =>
      obtain ⟨bus, hbus, rfl⟩ := Option.map_eq_some_iff.mp h
      cases p with
      | dispatch n now =>
        obtain ⟨⟨publication, hmem, hphase⟩, hdrops⟩ := Classical.not_imp.mp hC
        obtain ⟨call, hget, hdrops⟩ : ∃ call, s.bus.calls[n]? = some call ∧
            s.bus.DropsEvent config call.envelope now := by
          by_contra hnone
          exact hdrops fun call hget hkeeps => hnone ⟨call, hget, hkeeps⟩
        obtain ⟨payload, hphase⟩ : ∃ payload, publication.phase = .publishing payload n := by
          cases hpublishing : publication.phase with
          | publishing payload m =>
            rw [hpublishing] at hphase
            cases hphase
            exact ⟨payload, rfl⟩
          | sending eventId => simp [hpublishing, PublicationPhase.call] at hphase
          | returned result => simp [hpublishing, PublicationPhase.call] at hphase
          | dropped => simp [hpublishing, PublicationPhase.call] at hphase
        obtain ⟨k, hpublication⟩ := List.getElem?_of_mem hmem
        have hlocal := (hI.call k publication hpublication).publishing payload n hphase
        obtain ⟨call', metadata, hcall, hblocking, -⟩ := hlocal.event
        cases hget.symm.trans hcall
        obtain ⟨hchecking, hout⟩ := MemoryBus.dispatch_blocking hcall hblocking hbus
        have hpending : call.pending = true := by simp [PublishCall.pending, hchecking]
        cases hout with
        | refused e hnot hkeeps => exact absurd hdrops hkeeps
        | scheduled hdispatcher hscheduled =>
          rw [hdrops.due] at hscheduled
          cases hscheduled
        | dropped =>
          exact not_agrees_of_dropped hcalls hpublication hphase hlocal hcall hpending now
        | awaits hroutable => exact absurd hroutable hdrops.not_routable
        | entered hroutable => exact absurd hroutable hdrops.not_routable
      | publish envelope nonBlocking => exact absurd trivial hC
      | acquire n => exact absurd trivial hC
      | send n => exact absurd trivial hC
      | cancel n => exact absurd trivial hC
      | wake index => exact absurd trivial hC
    | worker b => exact absurd trivial hC
    | handler id b => exact absurd trivial hC
    | subscriber b => exact absurd trivial hC
    | shutdown b => exact absurd trivial hC

/-- A spawned task passes its message to the transport after its sleep. -/
theorem wake_of_mem {message : NetworkMessage} (h : message ∈ s.outbox) :
    ∃ index s', step config s (.publication (.wake index)) = some s' ∧ message ∈ s'.wire := by
  obtain ⟨index, hindex⟩ := List.getElem?_of_mem h
  have hwake : s.wake index
      = some ({ s with outbox := s.outbox.eraseIdx index }.send message) := by
    simp [RemoteBus.wake, hindex]
  exact ⟨index, _, hwake, List.mem_append_right _ (List.mem_singleton.mpr rfl)⟩

/-- **When the local bus and the network agree.** In a run in which `publish_remote` sends
    only while the bus is running and then fails, and in which the dispatcher drops no event
    of `publish_remote_delayed` and `publish_remote_scheduled`, they agree about every call,
    and every message in the outbox can be sent; the first step that goes against this can
    be followed by a state in which they do not. -/
theorem agrees_along {transport : Bool} {as : List Action}
    (hexec : exec config (build config transport) as = some s)
    (hC : Transition.Along (step config) (LocalFirst config) (build config transport) as) :
    s.Agrees ∧
      (∀ message ∈ s.outbox, ∃ index s', step config s (.publication (.wake index)) = some s' ∧
        message ∈ s'.wire) ∧
      ∀ a s', step config s a = some s' → ¬ s.LocalFirst config a →
        ∃ bs s'', exec config s' bs = some s'' ∧ ¬ s''.Agrees := by
  have hI := inOrder_along hexec hC
  exact ⟨fun k publication hpublication => (hI.call k publication hpublication).agrees,
    fun _ hmem => wake_of_mem hmem, fun _ _ h hnot => not_agrees_of_step hI
      (callsInOrder_exec hexec) h hnot⟩

/-! ## Users created -/

/-- `UserCreated`, with the topic of its attribute. -/
def userCreated : RemoteType where
  typeId := 1
  eventType := "UserCreated"
  remoteTopic := "user.created.v1"
  serializeEvent := .ok
  deserializeEvent := .ok

/-- `publish_remote`, and then `publish_remote_delayed` with no delay. -/
def publishedBothWays : List Action :=
  [.publication (.publish userCreated [42] .immediate 7 0 0), .publication (.sent 0 (.ok ())),
    .publication (.publish userCreated [42] (.delayed 0) 8 0 0), .bus (.publisher (.acquire 0)),
    .bus (.publisher (.dispatch 0 0)), .bus (.publisher (.send 0)),
    .publication (.published 1 0), .publication (.wake 0)]

/-- `publish_remote` while the bus is shutting down. -/
def publishedWhileDraining : List Action :=
  [.bus (.shutdown (.begin true)), .publication (.publish userCreated [42] .immediate 7 0 0)]

/-- The event of `publish_remote` goes over the network and not to the local bus, also when
    the bus is shutting down; that of `publish_remote_delayed` goes to both. -/
theorem not_agrees_publishedBothWays :
    (∃ s, exec {} (build {} true) publishedBothWays = some s ∧
      s.publications.map (·.phase.returnedId) = [some 7, some 8] ∧
      s.publications.map (·.call) = [none, some 0] ∧ 0 ∈ s.accepted ∧ ¬ s.Agrees) ∧
    ∃ s, exec {} (build {} true) publishedWhileDraining = some s ∧
      s.publications.map (·.shuttingDown) = [true] ∧ s.wire.map (·.publication) = [0] ∧
      ¬ s.Agrees := by
  constructor
  · obtain ⟨s, hs⟩ := Option.isSome_iff_exists.mp
      (by decide +kernel : (exec {} (build {} true) publishedBothWays).isSome = true)
    have hend : (exec {} (build {} true) publishedBothWays).map (fun s =>
        (s.publications.map (·.phase.returnedId), s.publications.map (·.call),
          decide (0 ∈ s.accepted)))
        = some ([some 7, some 8], [none, some 0], true) := by decide +kernel
    rw [hs] at hend
    simp only [Option.map_some, Option.some.injEq, Prod.mk.injEq, decide_eq_true_eq] at hend
    obtain ⟨hids, hcalls, haccepted⟩ := hend
    refine ⟨s, hs, hids, hcalls, haccepted, ?_⟩
    have hid := congrArg (·[0]?) hids
    have hcall := congrArg (·[0]?) hcalls
    simp only [List.getElem?_map, List.getElem?_cons_zero, Option.map_eq_some_iff] at hid hcall
    obtain ⟨publication, hpublication, hreturned⟩ := hid
    obtain ⟨other, hother, hnone⟩ := hcall
    cases hpublication.symm.trans hother
    exact not_agrees_of_untaken hpublication (PublicationPhase.eq_of_returnedId hreturned)
      (by simp [hnone])
  · obtain ⟨s, hs⟩ := Option.isSome_iff_exists.mp
      (by decide +kernel : (exec {} (build {} true) publishedWhileDraining).isSome = true)
    have hend : (exec {} (build {} true) publishedWhileDraining).map (fun s =>
        (s.publications.map (·.shuttingDown), s.wire.map (·.publication)))
        = some ([true], [0]) := by decide +kernel
    rw [hs] at hend
    simp only [Option.map_some, Option.some.injEq, Prod.mk.injEq] at hend
    obtain ⟨hshutting, hwire⟩ := hend
    refine ⟨s, hs, hshutting, hwire, fun hagrees => ?_⟩
    have hget := congrArg (·[0]?) hshutting
    simp only [List.getElem?_map, List.getElem?_cons_zero, Option.map_eq_some_iff] at hget
    obtain ⟨publication, hpublication, htrue⟩ := hget
    obtain ⟨message, hmem, hmessage⟩ := List.mem_map.mp (hwire ▸ List.mem_cons_self :
      0 ∈ s.wire.map (·.publication))
    exact (hagrees 0 publication hpublication).refused (.inl htrue) message
      (List.mem_append_left _ hmem) hmessage

/-- An event with a delay, one whose time has passed, and one that the transport refuses. -/
def publishedLater : List Action :=
  [.publication (.publish userCreated [1] (.delayed 5) 7 0 0), .bus (.publisher (.acquire 0)),
    .bus (.publisher (.dispatch 0 0)), .publication (.published 0 0), .publication (.wake 0),
    .publication (.publish userCreated [2] (.scheduled 3) 8 5 5),
    .bus (.publisher (.acquire 1)), .bus (.publisher (.dispatch 1 5)),
    .bus (.publisher (.send 1)), .publication (.published 1 5), .publication (.sent 1 (.ok ())),
    .publication (.publish userCreated [3] .immediate 9 6 6),
    .publication (.sent 2 (.error (.internal "JetStream publish failed: no responders")))]

/-- Both of them are published locally and over the network, under the ids returned. -/
theorem agrees_publishedLater :
    ∃ s, exec {} (build {} true) publishedLater = some s ∧
      s.publications.map (·.phase.returnedId) = [some 7, some 8, none] ∧
      s.wire.map (·.publication) = [0, 1, 2] ∧ s.Agrees := by
  obtain ⟨s, hs⟩ := Option.isSome_iff_exists.mp
    (by decide +kernel : (exec {} (build {} true) publishedLater).isSome = true)
  have hend : (exec {} (build {} true) publishedLater).map (fun s =>
      (s.publications.map (·.phase.returnedId), s.wire.map (·.publication)))
      = some ([some 7, some 8, none], [0, 1, 2]) := by decide +kernel
  rw [hs] at hend
  simp only [Option.map_some, Option.some.injEq, Prod.mk.injEq] at hend
  exact ⟨s, hs, hend.1, hend.2, (agrees_along hs (of_decide_eq_true (by decide +kernel))).1⟩

end RemoteBus
end TokioEvents

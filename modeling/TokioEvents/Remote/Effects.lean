/-
  TokioEvents.Remote.Effects

  What a step of the remote bus does to the local bus, and what therefore holds of its
  publish calls: a call whose event the dispatcher has taken has returned, and the id it
  returns is that of its event.
-/

import TokioEvents.Bus.PublishCalls
import TokioEvents.Remote.System

namespace TokioEvents
namespace MemoryBus

variable {config : EventBusConfig} {s s' : MemoryBus} {n : Nat} {call : PublishCall}

/-- A call that is over stays as it is. -/
theorem call_of_over {a : Action} (h : step config s a = some s')
    (hcall : s.calls[n]? = some call) (hover : call.pending = false) :
    s'.calls[n]? = some call := by
  refine call_of_other h hcall ?_
  rintro b rfl htarget
  have hphase : call.phase ≠ .acquiring ∧ call.phase ≠ .checking ∧ call.phase ≠ .sending := by
    refine ⟨?_, ?_, ?_⟩ <;> intro heq <;> simp [PublishCall.pending, heq] at hover
  cases b with
  | publish envelope nonBlocking => cases htarget
  | wake index => cases htarget
  | acquire m =>
    cases htarget
    obtain ⟨call', hcall', hacquiring, -⟩ := acquire_eq_some h
    cases hcall.symm.trans hcall'
    exact hphase.1 hacquiring
  | cancel m =>
    cases htarget
    obtain ⟨call', hcall', hwaits, -⟩ := cancel_eq_some h
    cases hcall.symm.trans hcall'
    exact hwaits.elim hphase.1 hphase.2.2
  | dispatch m now =>
    cases htarget
    simp [step, stepPublisher, dispatch, hcall, hphase.2.1] at h
  | send m =>
    cases htarget
    simp [step, stepPublisher, send, hcall, hphase.2.2] at h

/-- A call returns the id of its event. -/
def ReturnsId (s : MemoryBus) : Prop :=
  ∀ (n : Nat) call eventId, s.calls[n]? = some call → call.phase = .returned (.ok eventId) →
    eventId = call.envelope.eventId

theorem returnsId_build : (build config).ReturnsId := by simp [ReturnsId, build]

theorem ReturnsId.set {phase : PublishPhase} (hs : s.ReturnsId) (hcall : s.calls[n]? = some call)
    (hphase : ∀ eventId, phase = .returned (.ok eventId) → eventId = call.envelope.eventId)
    (hcalls : s'.calls = s.calls.set n { call with phase := phase }) : s'.ReturnsId := by
  intro m other eventId hother hreturned
  rw [hcalls] at hother
  by_cases hm : n = m
  · subst hm
    rw [List.getElem?_set_self (List.getElem?_eq_some_iff.mp hcall).1] at hother
    cases hother
    exact hphase eventId hreturned
  · rw [List.getElem?_set_ne hm] at hother
    exact hs m other eventId hother hreturned

theorem PublisherStep.returnsId (h : PublisherStep config s s') (hs : s.ReturnsId) :
    s'.ReturnsId := by
  cases h with
  | publish envelope nonBlocking =>
    intro m other eventId hother hreturned
    rcases Nat.lt_or_ge m s.calls.length with hlt | hge
    · exact hs m other eventId ((List.getElem?_append_left hlt).symm.trans hother) hreturned
    · rw [MemoryBus.publish, List.getElem?_append_right hge] at hother
      obtain rfl := List.mem_singleton.mp (List.mem_of_getElem? hother)
      simp only at hreturned
      split at hreturned
      · cases hreturned
      · exact absurd (PublishPhase.returned.inj hreturned) (shuttingDown_ne_ok _ _)
  | acquire hcall => exact hs.set hcall (by simp) rfl
  | refuse hcall hguarded hresult =>
    exact hs.set hcall (fun eventId heq => absurd (PublishPhase.returned.inj heq) (hresult eventId))
      rfl
  | discard hcall => exact hs.set hcall (fun eventId heq => by cases heq; rfl) rfl
  | schedule hcall => exact hs.set hcall (fun eventId heq => by cases heq; rfl) rfl
  | await hcall => exact hs.set hcall (by simp) rfl
  | enter hcall => exact hs.set hcall (fun eventId heq => by cases heq; rfl) rfl
  | cancel hcall => exact hs.set hcall (by simp) rfl
  | wake => exact hs
  | lose => exact hs

theorem ReturnsId.step {a : Action} (hs : s.ReturnsId) (h : step config s a = some s') :
    s'.ReturnsId := by
  cases a with
  | publisher a => exact (stepPublisher_cases h).returnsId hs
  | _ =>
    intro m call eventId hcall
    rw [(of_not_publisher h (by simp)).2.2] at hcall
    exact hs m call eventId hcall

end MemoryBus

namespace RemoteBus

variable {config : EventBusConfig} {s s' : RemoteBus}

/-- What a step does to the local bus: it is a step of it, or begins or cancels a publish
    call, or it sends to the DLQ. -/
inductive LocalStep (config : EventBusConfig) (s : RemoteBus) (a : Action) (s' : RemoteBus) :
    Prop where
  | move {b : MemoryBus.Action} (hbus : s.bus.step config b = some s'.bus)
      (haccepted : s'.accepted = s.accepted ++ s'.bus.entered ++ s'.bus.sleepers.map (·.addr))
      (haction : a = .bus b ∨ (∀ n now, b ≠ .publisher (.dispatch n now)) ∧
        ∀ n, b ≠ .publisher (.send n))
  | keep {dlq : Option (Mpsc.Channel ArcEnvelope)} (hbus : s'.bus = { s.bus with dlq := dlq })
      (haccepted : s'.accepted = s.accepted)

theorem LocalStep.of_eq {a : Action} (hbus : s'.bus = s.bus)
    (haccepted : s'.accepted = s.accepted) : LocalStep config s a s' :=
  .keep hbus haccepted

theorem localStep_publish {a : Action} (envelope : EventEnvelope)
    (hbus : s'.bus = s.bus.publish envelope false)
    (haccepted : s'.accepted = (s.setBus (s.bus.publish envelope false)).accepted) :
    LocalStep config s a s' := by
  refine .move (b := .publisher (.publish envelope false)) (congrArg some hbus.symm) ?_
    (.inr ⟨by simp, by simp⟩)
  rw [haccepted, hbus]
  rfl

theorem localStep_cancel {a : Action} {n : Nat} {bus : MemoryBus}
    (hcancel : s.bus.cancel n = some bus) (hbus : s'.bus = bus)
    (haccepted : s'.accepted = (s.setBus bus).accepted) : LocalStep config s a s' := by
  subst hbus
  exact .move (b := .publisher (.cancel n)) hcancel haccepted (.inr ⟨by simp, by simp⟩)

/-- **One step** at the local bus. -/
theorem localStep {a : Action} (h : step config s a = some s') : LocalStep config s a s' := by
  cases a with
  | bus b =>
    obtain ⟨bus, hbus, rfl⟩ := Option.map_eq_some_iff.mp h
    exact .move hbus rfl (.inl rfl)
  | consumer a =>
    cases a with
    | spawn remote jetStream =>
      cases h
      exact .of_eq rfl rfl
    | receive k bytes eventId timestamp addr =>
      simp only [step, stepConsumer, receive] at h
      repeat' split at h
      all_goals cases h
      · exact localStep_publish _ rfl rfl
      · exact .of_eq rfl rfl
      · exact .of_eq rfl rfl
    | routed k =>
      simp only [step, stepConsumer, routed] at h
      repeat' split at h
      all_goals cases h
      exact .of_eq rfl rfl
    | deadLettered k =>
      simp only [step, stepConsumer, deadLettered] at h
      repeat' split at h
      all_goals cases h
      · exact .keep rfl rfl
      · exact .of_eq rfl rfl
    | ended k =>
      simp only [step, stepConsumer, consumerEnded] at h
      repeat' split at h
      all_goals cases h
      exact .of_eq rfl rfl
    | dropped k =>
      simp only [step, stepConsumer, consumerDropped] at h
      repeat' split at h
      all_goals try cases h
      · obtain ⟨bus, hbus, rfl⟩ := Option.map_eq_some_iff.mp h
        exact localStep_cancel hbus rfl rfl
      · exact .of_eq rfl rfl
    | ack k message =>
      simp only [step, stepConsumer, ack] at h
      repeat' split at h
      all_goals cases h
      exact .of_eq rfl rfl
  | publication a =>
    cases a with
    | publish remote event kind eventId timestamp now =>
      cases h
      simp only [RemoteBus.publish]
      split
      · exact .of_eq rfl rfl
      · cases kind with
        | immediate => dsimp only; split <;> exact .of_eq rfl rfl
        | delayed delay => exact localStep_publish _ rfl rfl
        | scheduled deliverAt =>
          exact localStep_publish _ rfl rfl
    | published k now =>
      simp only [step, stepPublication, published] at h
      repeat' split at h
      all_goals cases h
      · unfold network
        dsimp only
        repeat' split
        all_goals exact .of_eq rfl rfl
      · exact .of_eq rfl rfl
    | sent k result =>
      simp only [step, stepPublication, sent] at h
      repeat' split at h
      all_goals cases h
      exact .of_eq rfl rfl
    | dropped k =>
      simp only [step, stepPublication, publicationDropped] at h
      repeat' split at h
      all_goals try cases h
      · obtain ⟨bus, hbus, rfl⟩ := Option.map_eq_some_iff.mp h
        exact localStep_cancel hbus rfl rfl
      · exact .of_eq rfl rfl
    | wake index =>
      simp only [step, stepPublication, wake] at h
      split at h <;> cases h
      exact .of_eq rfl rfl

/-- An event that enters the queue is taken. -/
theorem mem_accepted_enqueue (s : RemoteBus) {n : Nat} {call : PublishCall}
    {result : PublishResult} {queue : Mpsc.Channel ArcEnvelope} :
    n ∈ (s.setBus ((s.bus.enqueue n queue).finish n call result)).accepted := by
  refine List.mem_append_left _ (List.mem_append_right _ ?_)
  show n ∈ (s.bus.observe (.entered n)).entered
  simp [MemoryBus.entered_observe_entered]

/-- The call that goes on is the one that is found afterwards. -/
theorem eq_of_set {bus bus' : MemoryBus} {n : Nat} {call call' found : PublishCall}
    (hcall : bus.calls[n]? = some call) (hcalls : bus'.calls = bus.calls.set n call')
    (hfound : bus'.calls[n]? = some found) : call' = found := by
  rw [hcalls, List.getElem?_set_self (List.getElem?_eq_some_iff.mp hcall).1] at hfound
  exact Option.some.inj hfound

/-- What holds of the publish calls of the local bus in every run. -/
structure CallsInOrder (s : RemoteBus) : Prop where
  named : s.bus.Named
  returnsId : s.bus.ReturnsId
  sender : ∀ dispatcher, s.bus.dispatcher = some dispatcher → dispatcher.sender = true
  /-- The dispatcher takes the event of a call that returns. -/
  accepted : ∀ n ∈ s.accepted, ∃ call, s.bus.calls[n]? = some call ∧ call.pending = false

theorem callsInOrder_build (transport : Bool) : (build config transport).CallsInOrder :=
  ⟨MemoryBus.named_build, MemoryBus.returnsId_build, by simp [build, MemoryBus.build],
    by simp [build]⟩

theorem CallsInOrder.step {a : Action} (hI : s.CallsInOrder) (h : step config s a = some s') :
    s'.CallsInOrder := by
  cases localStep h with
  | move hbus haccepted =>
    have hnamed := hI.named.step hbus
    refine ⟨hnamed, hI.returnsId.step hbus,
      fun dispatcher h => hI.sender dispatcher (MemoryBus.dispatcher_step hbus h), fun n hn => ?_⟩
    rw [haccepted, List.append_assoc] at hn
    rcases List.mem_append.mp hn with hold | hnew
    · obtain ⟨call, hcall, hover⟩ := hI.accepted n hold
      exact ⟨call, MemoryBus.call_of_over hbus hcall hover, hover⟩
    · exact hnamed.returned n hnew
  | keep hbus haccepted =>
    obtain ⟨hnamed, hreturnsId, hsender, haccepted'⟩ := hI
    have hcalls : s'.bus.calls = s.bus.calls := by rw [hbus]
    refine ⟨hnamed.of_perm hcalls ?_, ?_, by rw [hbus]; exact hsender, ?_⟩
    · rw [hbus]
      exact List.Perm.refl _
    · unfold MemoryBus.ReturnsId
      rw [hcalls]
      exact hreturnsId
    · rw [haccepted, hcalls]
      exact haccepted'

theorem callsInOrder_exec {transport : Bool} {as : List Action}
    (hexec : exec config (build config transport) as = some s) : s.CallsInOrder :=
  Transition.invariant (fun _ _ _ hI h => hI.step h) (callsInOrder_build transport) hexec

/-- A call that is pending, or has not begun, has left nothing at the dispatcher. -/
theorem CallsInOrder.not_accepted {n : Nat} (hI : s.CallsInOrder)
    (hn : ∀ call, s.bus.calls[n]? = some call → call.pending = true) :
    n ∉ s.accepted ∧ n ∉ s.bus.entered ∧ n ∉ s.bus.sleepers.map (·.addr) := by
  have hout : ∀ {ns : List Nat}, (∀ m ∈ ns, ∃ call, s.bus.calls[m]? = some call ∧
      call.pending = false) → n ∉ ns := by
    intro ns hns hmem
    obtain ⟨call, hcall, hover⟩ := hns n hmem
    rw [hn call hcall] at hover
    cases hover
  refine ⟨hout hI.accepted, hout fun m hm => hI.named.returned m (List.mem_append_left _ hm),
    hout fun m hm => hI.named.returned m (List.mem_append_right _ hm)⟩

end RemoteBus
end TokioEvents

/-
  TokioEvents.Remote.AckAfterRouting

  Whether a remote message is acknowledged only when it is safe: in the queue of the
  local dispatcher, or, if it cannot be deserialized, in the DLQ.

  The consumer loop uses `ack_tx` whatever became of the message.  The statements below
  say that this is right as long as the local bus takes every event it is given and the
  DLQ is there to take the rest, and that each time it does not, a message that is lost
  is acknowledged.
-/

import TokioEvents.Remote.Effects

namespace TokioEvents

/-- The message is safe: the local dispatcher or the DLQ has taken it. -/
def Handling.Safe (accepted : List Nat) : Handling → Prop
  | .published call => call ∈ accepted
  | .deadLettered taken => taken = true
  | .dropped => False

instance (accepted : List Nat) : (handling : Handling) → Decidable (handling.Safe accepted)
  | .published call => inferInstanceAs (Decidable (call ∈ accepted))
  | .deadLettered taken => inferInstanceAs (Decidable (taken = true))
  | .dropped => isFalse id

/-- Every message that is acknowledged, or whose `ack_tx` was used, is safe. -/
def Consumer.AcksSafely (accepted : List Nat) (consumer : Consumer) : Prop :=
  ∀ message, message ∈ consumer.signalled ∨ message ∈ consumer.acked →
    ∃ handling, consumer.handled[message]? = some handling ∧ handling.Safe accepted

/-- The local publish of a loop. -/
def ConsumerPhase.call : ConsumerPhase → Option Nat
  | .publishing call => some call
  | _ => none

theorem ConsumerPhase.call_eq_some {phase : ConsumerPhase} {n : Nat} :
    phase.call = some n ↔ phase = .publishing n := by
  cases phase <;> simp [ConsumerPhase.call]

namespace RemoteBus

/-- No consumer loop acknowledges a message that is not safe. -/
def AcksSafely (s : RemoteBus) : Prop :=
  ∀ consumer ∈ s.consumers, consumer.AcksSafely s.accepted

/-- The call is the local publish of a consumer loop. -/
def Consuming (s : RemoteBus) (n : Nat) : Prop :=
  ∃ consumer ∈ s.consumers, consumer.phase = .publishing n

instance (s : RemoteBus) (n : Nat) : Decidable (s.Consuming n) :=
  decidable_of_iff (∃ consumer ∈ s.consumers, consumer.phase.call = some n)
    ⟨fun ⟨consumer, hmem, hcall⟩ => ⟨consumer, hmem, ConsumerPhase.call_eq_some.mp hcall⟩,
      fun ⟨consumer, hmem, hphase⟩ => ⟨consumer, hmem, ConsumerPhase.call_eq_some.mpr hphase⟩⟩

/-- A message that can be deserialized finds the bus running, another finds a DLQ. -/
def TakesMessage (bus : MemoryBus) : Except Error Bytes → Prop
  | .ok _ => bus.shutdownState = .running
  | .error _ => bus.dlq.isSome = true

instance (bus : MemoryBus) : (event : Except Error Bytes) → Decidable (TakesMessage bus event)
  | .ok _ => inferInstanceAs (Decidable (bus.shutdownState = .running))
  | .error _ => inferInstanceAs (Decidable (bus.dlq.isSome = true))

/-- What is asked of a step: the bus or the DLQ takes the message that arrives; the
    dispatcher takes the event of a loop, or waits for room; and the DLQ has its receiver
    when it is sent to. -/
def TakesAll (config : EventBusConfig) (s : RemoteBus) : Action → Prop
  | .consumer (.receive k bytes _ _ _) => ∀ consumer ∈ s.consumers[k]?,
    TakesMessage s.bus (consumer.remote.deserializeEvent bytes)
  | .consumer (.deadLettered _) => ∀ dlq ∈ s.bus.dlq, dlq.receiver = true
  | .bus (.publisher (.dispatch n _)) => s.Consuming n → s.bus.Routable config
  | .bus (.publisher (.send n)) => s.Consuming n → s.bus.queue.receiver = true
  | _ => True

instance (config : EventBusConfig) (s : RemoteBus) :
    (a : Action) → Decidable (s.TakesAll config a)
  | .consumer (.receive k bytes _ _ _) => inferInstanceAs (Decidable (∀ consumer ∈ s.consumers[k]?,
    TakesMessage s.bus (consumer.remote.deserializeEvent bytes)))
  | .consumer (.deadLettered _) =>
    inferInstanceAs (Decidable (∀ dlq ∈ s.bus.dlq, dlq.receiver = true))
  | .bus (.publisher (.dispatch n _)) =>
    inferInstanceAs (Decidable (s.Consuming n → s.bus.Routable config))
  | .bus (.publisher (.send n)) =>
    inferInstanceAs (Decidable (s.Consuming n → s.bus.queue.receiver = true))
  | .consumer (.spawn _ _) | .consumer (.routed _) | .consumer (.ended _)
  | .consumer (.dropped _) | .consumer (.ack _ _) | .publication _ => isTrue trivial
  | .bus (.publisher (.publish _ _)) | .bus (.publisher (.acquire _))
  | .bus (.publisher (.cancel _)) | .bus (.publisher (.wake _)) | .bus (.worker _)
  | .bus (.handler _ _) | .bus (.subscriber _) | .bus (.shutdown _) => isTrue trivial

variable {config : EventBusConfig} {s s' : RemoteBus} {k n : Nat} {consumer : Consumer}

/-! ## The local publish of a loop -/

/-- The call is a blocking one, of an event without a time. -/
def OfLoop (bus : MemoryBus) (n : Nat) : Prop :=
  ∃ call, bus.calls[n]? = some call ∧ call.nonBlocking = false ∧
    call.envelope.metadata.deliverAt = none

/-- If it has returned, the dispatcher has taken its event. -/
def Taken (bus : MemoryBus) (accepted : List Nat) (n : Nat) : Prop :=
  ∀ call result, bus.calls[n]? = some call → call.phase = .returned result → n ∈ accepted

theorem unscheduled_of_none {envelope : EventEnvelope} (h : envelope.metadata.deliverAt = none)
    (now : DateTime) : envelope.isScheduled now = false := by
  simp [EventEnvelope.isScheduled, h]

/-- The call stays what it is. -/
theorem OfLoop.step {bus bus' : MemoryBus} {b : MemoryBus.Action} (h : OfLoop bus n)
    (hb : bus.step config b = some bus') : OfLoop bus' n := by
  obtain ⟨call, hcall, hblocking, hdeliver⟩ := h
  obtain ⟨phase, hcall'⟩ := MemoryBus.call_step hb hcall
  exact ⟨_, hcall', hblocking, hdeliver⟩

/-- A call that goes on without returning. -/
theorem taken_of_phase {bus' : MemoryBus} {accepted : List Nat} {call : PublishCall}
    {phase : PublishPhase} {bus : MemoryBus} (hcall : bus.calls[n]? = some call)
    (hphase : ∀ result, phase = .returned result → n ∈ accepted)
    (hcalls : bus'.calls = bus.calls.set n { call with phase := phase }) :
    Taken bus' accepted n := by
  intro call' result hcall' hreturned
  obtain rfl := eq_of_set hcall hcalls hcall'
  exact hphase result hreturned

/-- **The call of a loop** returns only after its event is taken, if the step takes it. -/
theorem Taken.step {b : MemoryBus.Action} {bus' : MemoryBus} (h : Taken s.bus s.accepted n)
    (hloop : OfLoop s.bus n) (hb : s.bus.step config b = some bus')
    (hdispatch : ∀ now, b = .publisher (.dispatch n now) → s.bus.Routable config)
    (hsend : b = .publisher (.send n) → s.bus.queue.receiver = true) :
    Taken bus' (s.setBus bus').accepted n := by
  obtain ⟨call, hcall, hblocking, hdeliver⟩ := hloop
  have hdue := unscheduled_of_none hdeliver
  by_cases htarget : ∃ p, b = .publisher p ∧ p.target = some n
  · obtain ⟨p, rfl, htarget⟩ := htarget
    cases p with
    | publish envelope nonBlocking => cases htarget
    | wake index => cases htarget
    | acquire m =>
      cases htarget
      obtain ⟨call', hcall', -, rfl⟩ := MemoryBus.acquire_eq_some hb
      exact taken_of_phase hcall' (by simp) rfl
    | cancel m =>
      cases htarget
      obtain ⟨call', hcall', -, rfl⟩ := MemoryBus.cancel_eq_some hb
      exact taken_of_phase hcall' (by simp) rfl
    | dispatch m now =>
      cases htarget
      have hroutable := hdispatch now rfl
      obtain ⟨-, hout⟩ := MemoryBus.dispatch_blocking hcall hblocking hb
      cases hout with
      | refused e hnot hkeeps => exact absurd hroutable (hnot (hdue now))
      | scheduled hdispatcher hscheduled => simp [hdue now] at hscheduled
      | dropped hdrops => exact absurd hroutable hdrops.not_routable
      | awaits => exact taken_of_phase hcall (by simp) rfl
      | entered =>
        exact taken_of_phase hcall (fun _ _ => mem_accepted_enqueue s) rfl
    | send m =>
      cases htarget
      obtain ⟨-, ⟨-, rfl⟩ | ⟨hclosed, -⟩⟩ := MemoryBus.send_blocking hcall hb
      · exact taken_of_phase hcall (fun _ _ => mem_accepted_enqueue s) rfl
      · rw [hsend rfl] at hclosed
        cases hclosed
  · have hsame := MemoryBus.call_of_other hb hcall fun p hp ht => htarget ⟨p, hp, ht⟩
    intro call' result hcall' hreturned
    cases hsame.symm.trans hcall'
    exact List.mem_append_left _ (List.mem_append_left _ (h call result hcall hreturned))

/-! ## The loops -/

/-- The publish calls of the loops return only after their events are taken, and what is
    acknowledged is safe. -/
structure Routing (s : RemoteBus) : Prop where
  loop : ∀ consumer ∈ s.consumers, ∀ n, consumer.phase = .publishing n → OfLoop s.bus n
  taken : ∀ consumer ∈ s.consumers, ∀ n, consumer.phase = .publishing n →
    Taken s.bus s.accepted n
  safe : s.AcksSafely

theorem routing_build (transport : Bool) : (build config transport).Routing where
  loop := by simp [build]
  taken := by simp [build]
  safe := by simp [AcksSafely, build]

/-- What is safe stays so. -/
theorem acksSafely_mono {accepted accepted' : List Nat}
    (h : consumer.AcksSafely accepted) (hsub : accepted ⊆ accepted') :
    consumer.AcksSafely accepted' := by
  intro message hmessage
  obtain ⟨handling, hhandled, hsafe⟩ := h message hmessage
  refine ⟨handling, hhandled, ?_⟩
  cases handling with
  | published call => exact hsub hsafe
  | deadLettered taken => exact hsafe
  | dropped => exact hsafe

theorem Routing.moveBus {b : MemoryBus.Action} {bus' : MemoryBus} (hI : s.Routing)
    (hb : s.bus.step config b = some bus')
    (hdispatch : ∀ n now, b = .publisher (.dispatch n now) → s.Consuming n →
      s.bus.Routable config)
    (hsend : ∀ n, b = .publisher (.send n) → s.Consuming n → s.bus.queue.receiver = true) :
    (s.setBus bus').Routing where
  loop consumer hmem n hphase := (hI.loop consumer hmem n hphase).step hb
  taken consumer hmem n hphase :=
    (hI.taken consumer hmem n hphase).step (hI.loop consumer hmem n hphase) hb
      (fun now heq => hdispatch n now heq ⟨consumer, hmem, hphase⟩)
      (fun heq => hsend n heq ⟨consumer, hmem, hphase⟩)
  safe consumer hmem := acksSafely_mono (hI.safe consumer hmem) fun _ h =>
    List.mem_append_left _ (List.mem_append_left _ h)

/-- A step of the local bus that is neither a dispatch nor a send. -/
theorem Routing.moveBus_of_other {b : MemoryBus.Action} {bus' : MemoryBus} (hI : s.Routing)
    (hb : s.bus.step config b = some bus') (hdispatch : ∀ n now, b ≠ .publisher (.dispatch n now))
    (hsend : ∀ n, b ≠ .publisher (.send n)) : (s.setBus bus').Routing :=
  hI.moveBus hb (fun n now heq => absurd heq (hdispatch n now)) fun n heq => absurd heq (hsend n)

/-- A publish call begins. -/
theorem Routing.beginCall (hI : s.Routing) (envelope : EventEnvelope) :
    (s.setBus (s.bus.publish envelope false)).Routing := by
  have hstep : s.bus.step {} (.publisher (.publish envelope false))
      = some (s.bus.publish envelope false) := rfl
  exact hI.moveBus_of_other hstep (by simp) (by simp)

/-- A publish call is dropped. -/
theorem Routing.cancelCall {bus : MemoryBus} (hI : s.Routing) (h : s.bus.cancel n = some bus) :
    (s.setBus bus).Routing := by
  have hstep : s.bus.step {} (.publisher (.cancel n)) = some bus := h
  exact hI.moveBus_of_other hstep (by simp) (by simp)

theorem Routing.setConsumer {consumer' : Consumer} (hI : s.Routing)
    (hcall : ∀ n, consumer'.phase = .publishing n → OfLoop s.bus n ∧ Taken s.bus s.accepted n)
    (hsafe : consumer'.AcksSafely s.accepted) : (s.setConsumer k consumer').Routing := by
  have hmem : ∀ {other}, other ∈ (s.setConsumer k consumer').consumers →
      other ∈ s.consumers ∨ other = consumer' := List.mem_or_eq_of_mem_set
  refine ⟨fun other hother n hphase => ?_, fun other hother n hphase => ?_, fun other hother => ?_⟩
  · rcases hmem hother with hold | rfl
    · exact hI.loop other hold n hphase
    · exact (hcall n hphase).1
  · rcases hmem hother with hold | rfl
    · exact hI.taken other hold n hphase
    · exact (hcall n hphase).2
  · rcases hmem hother with hold | rfl
    · exact hI.safe other hold
    · exact hsafe

/-- A loop that goes on without a publish call. -/
theorem Routing.setPhase {phase : ConsumerPhase} (hI : s.Routing)
    (hconsumer : s.consumers[k]? = some consumer) (hphase : ∀ n, phase ≠ .publishing n) :
    (s.setConsumer k { consumer with phase := phase }).Routing :=
  hI.setConsumer (fun n heq => absurd heq (hphase n))
    (hI.safe consumer (List.mem_of_getElem? hconsumer))

/-- A loop uses the `ack_tx` of a message that is safe. -/
theorem Routing.conclude {handling : Handling} (hI : s.Routing)
    (hconsumer : s.consumers[k]? = some consumer) (hsafe : handling.Safe s.accepted) :
    (s.conclude k consumer handling).Routing := by
  have hold := hI.safe consumer (List.mem_of_getElem? hconsumer)
  refine hI.setConsumer (by simp) fun message hmessage => ?_
  have hcases : (message ∈ consumer.signalled ∨ message ∈ consumer.acked) ∨
      message = consumer.handled.length := by
    rcases hmessage with hsignalled | hacked
    · rcases List.mem_append.mp hsignalled with hsignalled | hnew
      · exact .inl (.inl hsignalled)
      · exact .inr (List.mem_singleton.mp hnew)
    · exact .inl (.inr hacked)
  rcases hcases with hbefore | rfl
  · obtain ⟨other, hhandled, hother⟩ := hold message hbefore
    obtain ⟨hlt, -⟩ := List.getElem?_eq_some_iff.mp hhandled
    exact ⟨other, (List.getElem?_append_left hlt).trans hhandled, hother⟩
  · exact ⟨handling, by simp, hsafe⟩

/-- **One step of a loop** under the condition. -/
theorem Routing.stepConsumer {a : ConsumerAction} (hI : s.Routing)
    (hC : s.TakesAll config (.consumer a)) (h : s.stepConsumer a = some s') : s'.Routing := by
  cases a with
  | spawn remote jetStream =>
    cases h
    have hmem : ∀ {other}, other ∈ s.consumers ++ [⟨remote, jetStream, .streaming, [], [], []⟩] →
        other ∈ s.consumers ∨ other = ⟨remote, jetStream, .streaming, [], [], []⟩ :=
      fun h => (List.mem_append.mp h).imp_right List.mem_singleton.mp
    refine ⟨fun other hother n hphase => ?_, fun other hother n hphase => ?_,
      fun other hother => ?_⟩
    · rcases hmem hother with hold | rfl
      · exact hI.loop other hold n hphase
      · cases hphase
    · rcases hmem hother with hold | rfl
      · exact hI.taken other hold n hphase
      · cases hphase
    · rcases hmem hother with hold | rfl
      · exact hI.safe other hold
      · intro message hmessage
        simp at hmessage
  | receive k bytes eventId timestamp addr =>
    simp only [RemoteBus.stepConsumer, receive] at h
    split at h
    · rename_i consumer hconsumer
      have hC := hC consumer hconsumer
      split at h
      · rename_i hphase
        split at h
        · rename_i event hevent
          rw [hevent] at hC
          cases h
          generalize henvelope : consumer.remote.envelope event
            { eventId := eventId, timestamp := timestamp } = envelope
          have hmoved := hI.beginCall envelope
          refine hmoved.setConsumer (fun n heq => ?_)
            (hmoved.safe consumer (List.mem_of_getElem? hconsumer))
          cases heq
          have hget : (s.bus.publish envelope false).calls[s.bus.calls.length]?
              = some ⟨envelope, false, .acquiring⟩ := by
            have hrunning : s.bus.shutdownState = .running := hC
            simp [MemoryBus.publish, hrunning]
          have hdeliver : envelope.metadata.deliverAt = none := by
            rw [← henvelope]
            rfl
          refine ⟨⟨_, hget, rfl, hdeliver⟩, fun call result hcall hreturned => ?_⟩
          cases hget.symm.trans hcall
          cases hreturned
        · rename_i e hevent
          rw [hevent] at hC
          have hdlq : s.bus.dlq.isSome = true := hC
          rw [if_pos hdlq] at h
          cases h
          exact hI.setPhase hconsumer (by simp)
      · cases h
    · cases h
  | routed k =>
    simp only [RemoteBus.stepConsumer, routed] at h
    split at h
    · rename_i consumer hconsumer
      split at h
      · rename_i n hphase
        split at h
        · rename_i call hcall
          split at h
          · rename_i result hreturned
            cases h
            exact hI.conclude hconsumer
              (hI.taken consumer (List.mem_of_getElem? hconsumer) n hphase call result hcall
                hreturned)
          · cases h
        · cases h
      · cases h
    · cases h
  | deadLettered k =>
    simp only [RemoteBus.stepConsumer, deadLettered] at h
    split at h
    · rename_i consumer hconsumer
      split at h
      · rename_i envelope dlq hphase hdlq
        split at h
        · rename_i dlq' hsend
          cases h
          have hsame : { s with bus := { s.bus with dlq := some dlq' } }.Routing :=
            ⟨hI.loop, hI.taken, hI.safe⟩
          exact hsame.conclude hconsumer rfl
        · cases h
        · rename_i hclosed
          have hreceiver := Mpsc.Channel.receiver_of_closed hclosed
          rw [hC dlq hdlq] at hreceiver
          cases hreceiver
      · cases h
    · cases h
  | ended k =>
    simp only [RemoteBus.stepConsumer, consumerEnded] at h
    repeat' split at h
    all_goals cases h
    exact hI.setPhase ‹_› (by simp)
  | dropped k =>
    simp only [RemoteBus.stepConsumer, consumerDropped] at h
    split at h
    · rename_i consumer hconsumer
      split at h
      · obtain ⟨bus, hbus, rfl⟩ := Option.map_eq_some_iff.mp h
        exact (hI.cancelCall hbus).setPhase hconsumer (by simp)
      · cases h
      · cases h
        exact hI.setPhase hconsumer (by simp)
    · cases h
  | ack k message =>
    simp only [RemoteBus.stepConsumer, ack] at h
    split at h
    · rename_i consumer hconsumer
      split at h
      · rename_i hready
        cases h
        have hmem := List.mem_of_getElem? hconsumer
        refine hI.setConsumer
          (fun n hphase => ⟨hI.loop consumer hmem n hphase, hI.taken consumer hmem n hphase⟩)
          fun m hm => hI.safe consumer hmem m ?_
        rcases hm with hsignalled | hacked
        · exact .inl hsignalled
        · rcases List.mem_append.mp hacked with hacked | hnew
          · exact .inr hacked
          · rw [List.mem_singleton.mp hnew]
            exact .inl hready.2.1
      · cases h
    · cases h

/-- The calls that publish over the network leave the loops alone. -/
theorem Routing.stepPublication {a : PublicationAction} (hI : s.Routing)
    (h : s.stepPublication a = some s') : s'.Routing := by
  cases a with
  | publish remote event kind eventId timestamp now =>
    cases h
    simp only [RemoteBus.publish]
    split
    · exact ⟨hI.loop, hI.taken, hI.safe⟩
    · have hmoved := hI.beginCall
      cases kind with
      | immediate => dsimp only; split <;> exact ⟨hI.loop, hI.taken, hI.safe⟩
      | delayed delay => exact ⟨(hmoved _).loop, (hmoved _).taken, (hmoved _).safe⟩
      | scheduled deliverAt => exact ⟨(hmoved _).loop, (hmoved _).taken, (hmoved _).safe⟩
  | published k now =>
    simp only [RemoteBus.stepPublication, published] at h
    repeat' split at h
    all_goals cases h
    · unfold network
      dsimp only
      repeat' split
      all_goals exact ⟨hI.loop, hI.taken, hI.safe⟩
    · exact ⟨hI.loop, hI.taken, hI.safe⟩
  | sent k result =>
    simp only [RemoteBus.stepPublication, sent] at h
    repeat' split at h
    all_goals cases h
    exact ⟨hI.loop, hI.taken, hI.safe⟩
  | dropped k =>
    simp only [RemoteBus.stepPublication, publicationDropped] at h
    repeat' split at h
    all_goals try cases h
    · obtain ⟨bus, hbus, rfl⟩ := Option.map_eq_some_iff.mp h
      have hmoved := hI.cancelCall hbus
      exact ⟨hmoved.loop, hmoved.taken, hmoved.safe⟩
    · exact ⟨hI.loop, hI.taken, hI.safe⟩
  | wake index =>
    simp only [RemoteBus.stepPublication, wake] at h
    split at h <;> cases h
    exact ⟨hI.loop, hI.taken, hI.safe⟩

/-- **One step** under the condition. -/
theorem Routing.step {a : Action} (hI : s.Routing) (hC : s.TakesAll config a)
    (h : step config s a = some s') : s'.Routing := by
  cases a with
  | bus b =>
    obtain ⟨bus, hbus, rfl⟩ := Option.map_eq_some_iff.mp h
    refine hI.moveBus hbus ?_ ?_
    · rintro n now rfl hconsuming
      exact hC hconsuming
    · rintro n rfl hconsuming
      exact hC hconsuming
  | consumer a => exact hI.stepConsumer hC h
  | publication a => exact hI.stepPublication h

/-! ## What goes wrong otherwise -/

/-- The `ack_tx` of a message that is not safe is used. -/
theorem not_acksSafely_conclude {handling : Handling} (hconsumer : s.consumers[k]? = some consumer)
    (hlost : ¬ handling.Safe s.accepted) : ¬ (s.conclude k consumer handling).AcksSafely := by
  intro h
  obtain ⟨hlt, -⟩ := List.getElem?_eq_some_iff.mp hconsumer
  have hmem : _ ∈ (s.conclude k consumer handling).consumers :=
    List.mem_of_getElem? (List.getElem?_set_self hlt)
  obtain ⟨other, hhandled, hsafe⟩ := h _ hmem consumer.handled.length (.inl (by simp))
  have hother : other = handling := by simpa using hhandled.symm
  rw [hother] at hsafe
  exact hlost hsafe

/-- A loop whose publish call has returned without its event being taken. -/
theorem not_acksSafely_routed {call : PublishCall} {result : PublishResult}
    (hconsumer : s.consumers[k]? = some consumer) (hphase : consumer.phase = .publishing n)
    (hcall : s.bus.calls[n]? = some call) (hreturned : call.phase = .returned result)
    (hnot : n ∉ s.accepted) :
    ∃ bs s'', exec config s bs = some s'' ∧ ¬ s''.AcksSafely := by
  refine ⟨[.consumer (.routed k)], s.conclude k consumer (.published n), ?_,
    not_acksSafely_conclude hconsumer hnot⟩
  simp [exec, Transition.exec, step, stepConsumer, routed, hconsumer, hphase, hcall, hreturned]

/-- A call of a loop that ends without its event being taken. -/
theorem not_acksSafely_finish {call : PublishCall} {result : PublishResult}
    (hI : s.CallsInOrder) (hconsuming : s.Consuming n) (hcall : s.bus.calls[n]? = some call)
    (hpending : call.pending = true) :
    ∃ bs s'', exec config (s.setBus (s.bus.finish n call result)) bs = some s'' ∧
      ¬ s''.AcksSafely := by
  obtain ⟨consumer, hmem, hphase⟩ := hconsuming
  obtain ⟨k, hconsumer⟩ := List.getElem?_of_mem hmem
  obtain ⟨haccepted, hentered, hsleepers⟩ := hI.not_accepted fun call' hcall' => by
    cases hcall.symm.trans hcall'
    exact hpending
  refine not_acksSafely_routed
    hconsumer hphase (List.getElem?_set_self (List.getElem?_eq_some_iff.mp hcall).1) rfl ?_
  intro hn
  rcases List.mem_append.mp hn with hn | hn
  · rcases List.mem_append.mp hn with hn | hn
    · exact haccepted hn
    · exact hentered hn
  · exact hsleepers hn

/-- **A step against the condition** leads to the acknowledgement of a message that is not
    safe. -/
theorem not_acksSafely_of_step {a : Action} (hI : s.CallsInOrder) (hrouting : s.Routing)
    (h : step config s a = some s') (hC : ¬ s.TakesAll config a) :
    ∃ bs s'', exec config s' bs = some s'' ∧ ¬ s''.AcksSafely := by
  cases a with
  | publication a => exact absurd trivial hC
  | consumer a =>
    cases a with
    | receive k bytes eventId timestamp addr =>
      simp only [step, stepConsumer, receive] at h
      split at h
      · rename_i consumer hconsumer
        split at h
        · split at h
          · -- the bus is shutting down
            rename_i event hevent
            have hstate : s.bus.shutdownState ≠ .running := fun hrunning =>
              hC fun other hother => by
                cases hconsumer.symm.trans hother
                rw [hevent]
                exact hrunning
            cases h
            generalize consumer.remote.envelope event
              { eventId := eventId, timestamp := timestamp } = envelope
            have hcalls : (s.bus.publish envelope false).calls
                = s.bus.calls ++ [⟨envelope, false, .returned (.error .shuttingDown)⟩] := by
              simp [MemoryBus.publish, hstate, MemoryBus.shuttingDown]
            obtain ⟨haccepted, hentered, hsleepers⟩ :=
              hI.not_accepted (n := s.bus.calls.length) (by simp)
            have hcall : (s.bus.publish envelope false).calls[s.bus.calls.length]?
                = some ⟨envelope, false, .returned (.error .shuttingDown)⟩ := by
              rw [hcalls, List.getElem?_concat_length]
            refine not_acksSafely_routed (k := k) (n := s.bus.calls.length)
              (List.getElem?_set_self (List.getElem?_eq_some_iff.mp hconsumer).1) rfl hcall rfl ?_
            · intro hn
              rcases List.mem_append.mp hn with hn | hn
              · rcases List.mem_append.mp hn with hn | hn
                · exact haccepted hn
                · exact hentered hn
              · exact hsleepers hn
          · -- there is no DLQ
            rename_i e hevent
            split at h
            · rename_i hdlq
              refine absurd (fun other hother => ?_) hC
              cases hconsumer.symm.trans hother
              rw [hevent]
              exact hdlq
            · cases h
              exact ⟨[], _, rfl, not_acksSafely_conclude hconsumer id⟩
        · cases h
      · cases h
    | deadLettered k =>
      simp only [step, stepConsumer, deadLettered] at h
      split at h
      · rename_i consumer hconsumer
        split at h
        · rename_i envelope dlq hphase hdlq
          split at h
          · rename_i dlq' hsend
            refine absurd (fun other hother => ?_) hC
            cases hdlq.symm.trans hother
            exact (Mpsc.Channel.trySend_eq_ok.mp hsend).1.1
          · cases h
          · cases h
            exact ⟨[], _, rfl, not_acksSafely_conclude hconsumer (by simp [Handling.Safe])⟩
        · cases h
      · cases h
    | spawn remote jetStream => exact absurd trivial hC
    | routed k => exact absurd trivial hC
    | ended k => exact absurd trivial hC
    | dropped k => exact absurd trivial hC
    | ack k message => exact absurd trivial hC
  | bus b =>
    cases b with
    | publisher p =>
      obtain ⟨bus, hbus, rfl⟩ := Option.map_eq_some_iff.mp h
      cases p with
      | dispatch n now =>
        obtain ⟨hconsuming, hnot⟩ : s.Consuming n ∧ ¬ s.bus.Routable config :=
          Classical.not_imp.mp hC
        obtain ⟨consumer, hmem, hphase⟩ := hconsuming
        obtain ⟨call, hcall, hblocking, hdeliver⟩ := hrouting.loop consumer hmem n hphase
        obtain ⟨hchecking, hout⟩ := MemoryBus.dispatch_blocking hcall hblocking hbus
        have hpending : call.pending = true := by simp [PublishCall.pending, hchecking]
        cases hout with
        | refused e => exact not_acksSafely_finish hI ⟨consumer, hmem, hphase⟩ hcall hpending
        | scheduled hdispatcher hscheduled =>
          simp [unscheduled_of_none hdeliver] at hscheduled
        | dropped => exact not_acksSafely_finish hI ⟨consumer, hmem, hphase⟩ hcall hpending
        | awaits hroutable => exact absurd hroutable hnot
        | entered hroutable => exact absurd hroutable hnot
      | send n =>
        obtain ⟨hconsuming, hnot⟩ : s.Consuming n ∧ ¬ s.bus.queue.receiver = true :=
          Classical.not_imp.mp hC
        obtain ⟨consumer, hmem, hphase⟩ := hconsuming
        obtain ⟨call, hcall, -, -⟩ := hrouting.loop consumer hmem n hphase
        obtain ⟨hsending, ⟨haccepts, -⟩ | ⟨-, e, rfl⟩⟩ := MemoryBus.send_blocking hcall hbus
        · exact absurd haccepts.1 hnot
        · exact not_acksSafely_finish hI ⟨consumer, hmem, hphase⟩ hcall
            (by simp [PublishCall.pending, hsending])
      | publish envelope nonBlocking => exact absurd trivial hC
      | acquire n => exact absurd trivial hC
      | cancel n => exact absurd trivial hC
      | wake index => exact absurd trivial hC
    | worker b => exact absurd trivial hC
    | handler id b => exact absurd trivial hC
    | subscriber b => exact absurd trivial hC
    | shutdown b => exact absurd trivial hC

theorem routing_along {transport : Bool} {as : List Action}
    (hexec : exec config (build config transport) as = some s)
    (hC : Transition.Along (step config) (TakesAll config) (build config transport) as) :
    s.Routing :=
  Transition.invariant_along (fun _ _ _ hI hC h => hI.step hC h) (routing_build transport) hC hexec

/-- **When the acknowledgement is right.** In a run in which the local bus and the DLQ take
    every message of the loops, only safe messages are acknowledged; and the first step
    that goes against this can be followed by the acknowledgement of a message that is not
    safe. -/
theorem acksSafely_along {transport : Bool} {as : List Action}
    (hexec : exec config (build config transport) as = some s)
    (hC : Transition.Along (step config) (TakesAll config) (build config transport) as) :
    s.AcksSafely ∧ ∀ a s', step config s a = some s' → ¬ s.TakesAll config a →
      ∃ bs s'', exec config s' bs = some s'' ∧ ¬ s''.AcksSafely :=
  ⟨(routing_along hexec hC).safe, fun _ _ h hnot =>
    not_acksSafely_of_step (callsInOrder_exec hexec) (routing_along hexec hC) h hnot⟩

/-! ## Orders from the network -/

/-- An order type; the empty message is no order. -/
def orderType : RemoteType where
  typeId := 1
  eventType := "OrderEvent"
  remoteTopic := "shop.orders.v1"
  serializeEvent := .ok
  deserializeEvent bytes :=
    if bytes = [] then .error (.serializationError "EOF while parsing a value") else .ok bytes

/-- An order arrives while the bus is shutting down, and is acknowledged. -/
def orderWhileDraining : List Action :=
  [.consumer (.spawn orderType true), .bus (.shutdown (.begin true)),
    .consumer (.receive 0 [1] 7 0 0), .consumer (.routed 0), .consumer (.ack 0 0)]

/-- The local bus has refused the order. -/
theorem not_acksSafely_orderWhileDraining :
    ∃ s, exec {} (build {} true) orderWhileDraining = some s ∧
      s.consumers.map (·.acked) = [[0]] ∧ s.accepted = [] ∧ ¬ s.AcksSafely := by
  obtain ⟨s, hs⟩ := Option.isSome_iff_exists.mp
    (by decide +kernel : (exec {} (build {} true) orderWhileDraining).isSome = true)
  have hend : (exec {} (build {} true) orderWhileDraining).map (fun s =>
      (s.consumers.map (·.acked), s.consumers.map (·.handled), s.accepted))
      = some ([[0]], [[.published 0]], []) := by decide +kernel
  rw [hs] at hend
  simp only [Option.map_some, Option.some.injEq, Prod.mk.injEq] at hend
  obtain ⟨hacked, hhandled, haccepted⟩ := hend
  refine ⟨s, hs, hacked, haccepted, fun h => ?_⟩
  obtain ⟨consumer, hconsumer⟩ : ∃ consumer, s.consumers = [consumer] := by
    rw [← List.length_eq_one_iff, ← List.length_map (·.acked), hacked]
    rfl
  simp only [hconsumer, List.map_cons, List.map_nil, List.cons.injEq, and_true] at hacked hhandled
  obtain ⟨handling, hget, hsafe⟩ := h consumer (by simp [hconsumer]) 0 (.inr (by simp [hacked]))
  rw [hhandled] at hget
  cases hget
  simp [Handling.Safe, haccepted] at hsafe

/-- An order and a poison pill arrive while the bus is running. -/
def orderAndPoisonPill : List Action :=
  [.consumer (.spawn orderType true), .consumer (.receive 0 [1] 7 0 0),
    .bus (.publisher (.acquire 0)), .bus (.publisher (.dispatch 0 0)),
    .bus (.publisher (.send 0)), .consumer (.routed 0), .consumer (.ack 0 0),
    .consumer (.receive 0 [] 8 0 1), .consumer (.deadLettered 0), .consumer (.ack 0 1)]

/-- Both are safe when they are acknowledged. -/
theorem acksSafely_orderAndPoisonPill :
    ∃ s, exec {} (build {} true) orderAndPoisonPill = some s ∧
      s.consumers.map (·.acked) = [[0, 1]] ∧ s.AcksSafely := by
  obtain ⟨s, hs⟩ := Option.isSome_iff_exists.mp
    (by decide +kernel : (exec {} (build {} true) orderAndPoisonPill).isSome = true)
  have hend : (exec {} (build {} true) orderAndPoisonPill).map
      (fun s => s.consumers.map (·.acked)) = some [[0, 1]] := by decide +kernel
  rw [hs] at hend
  exact ⟨s, hs, Option.some.inj hend,
    (acksSafely_along hs (of_decide_eq_true (by decide +kernel))).1⟩

end RemoteBus
end TokioEvents

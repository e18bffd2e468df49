/-
  TokioEvents.Bus.RpcEffects

  What a step of a request, of a responder, or of the bus under them can do: one
  constructor for each way the step can go.
-/

import TokioEvents.Bus.Rpc

namespace TokioEvents
namespace RpcBus

/-- What a step can do. -/
inductive RpcStep (config : EventBusConfig) (s : RpcBus) : RpcAction → RpcBus → Prop where
  | bus {a : MemoryBus.Action} {bus : MemoryBus} (hpermits : s.permits a = true)
      (hbus : s.bus.step config a = some bus) : RpcStep config s (.bus a) { s with bus := bus }
  /-- The bus is shutting down. -/
  | reject {a : RpcAction} (hasked : (∃ inbox subscription req res event,
      a = .request inbox subscription req res event) ∨
        ∃ subscription req res, a = .respond subscription req res) : RpcStep config s a s
  | request {inbox subscription : Uuid} {req res : EventType} {event : Bytes} {bus : MemoryBus}
      (hbus : s.bus.subscribe config res.typeId res.eventType (inboxEntry inbox subscription res)
        = some bus) :
      RpcStep config s (.request inbox subscription req res event)
        { s with
          bus := bus
          requests := s.requests ++
            [⟨inbox, subscription, req, res, event, none, true, none, .subscribed⟩] }
  | publishRequest {n : Nat} {call : RequestCall} {eventId : Uuid} {timestamp : DateTime}
      (hcall : s.requests[n]? = some call) (hphase : call.phase = .subscribed) :
      RpcStep config s (.publishRequest n eventId timestamp)
        ({ s with bus := s.bus.publish (call.envelope eventId timestamp) false }.setRequest n
          { call with
            call := some s.bus.calls.length
            phase := .publishing s.bus.calls.length })
  | awaitReply {n m : Nat} {call : RequestCall} {eventId : Uuid}
      (hcall : s.requests[n]? = some call) (hphase : call.phase = .publishing m)
      (hresult : s.bus.resultOf m = some (.ok eventId)) :
      RpcStep config s (.requested n) (s.setRequest n { call with phase := .awaiting })
  | failRequest {n m : Nat} {call : RequestCall} {e : Error}
      (hcall : s.requests[n]? = some call) (hphase : call.phase = .publishing m)
      (hresult : s.bus.resultOf m = some (.error e)) :
      RpcStep config s (.requested n)
        ({ s with bus := s.bus.dropHandle call.subscription }.setRequest n
          { call with phase := .returned (.error e) })
  /-- A response, the end of the inbox, or the timeout. -/
  | conclude {a : RpcAction} {n : Nat} {call : RequestCall} {response : Except Error Bytes}
      (ha : a = .receive n ∨ a = .timeout n) (hcall : s.requests[n]? = some call)
      (hphase : call.phase = .awaiting) :
      RpcStep config s a (s.setRequest n { call with phase := .closing response })
  | close {n : Nat} {call : RequestCall} {response : Except Error Bytes}
      (hcall : s.requests[n]? = some call) (hphase : call.phase = .closing response) :
      RpcStep config s (.close n)
        ({ s with
          bus := (s.bus.unsubscribe call.subscription).dropHandle call.subscription }.setRequest n
            { call with phase := .returned response })
  | dropPublishing {n m : Nat} {call : RequestCall} {bus : MemoryBus}
      (hcall : s.requests[n]? = some call) (hphase : call.phase = .publishing m)
      (hdrop : s.bus.dropCall m = some bus) :
      RpcStep config s (.drop n)
        ({ s with bus := bus.dropHandle call.subscription }.setRequest n
          { call with phase := .dropped })
  | dropAwaiting {n : Nat} {call : RequestCall} (hcall : s.requests[n]? = some call)
      (hphase : call.phase = .awaiting) :
      RpcStep config s (.drop n)
        ({ s with bus := s.bus.dropHandle call.subscription }.setRequest n
          { call with phase := .dropped })
  | deliver {n : Nat} {call call' : RequestCall} {outcome : Outcome} {bus : MemoryBus}
      (hcall : s.requests[n]? = some call) (hpanic : outcome ≠ .panic)
      (hbus : s.bus.stepHandler config call.subscription (.outcome outcome) = some bus)
      (hsame : call'.subscription = call.subscription ∧ call'.call = call.call ∧
        call'.phase = call.phase) :
      RpcStep config s (.deliver n) ({ s with bus := bus }.setRequest n call')
  | respond {subscription : Uuid} {req res : EventType} {bus : MemoryBus}
      (hbus : s.bus.subscribe config req.typeId req.eventType (responderEntry subscription req)
        = some bus) :
      RpcStep config s (.respond subscription req res)
        { s with bus := bus, responders := s.responders ++ [⟨subscription, req, res, none⟩] }
  /-- The handler returns without a reply. -/
  | answer {a : RpcAction} {n : Nat} {responder : Responder} {outcome : Outcome}
      {bus : MemoryBus} {computed : List Computed}
      (ha : a = .refuse n ∨ ∃ response eventId timestamp, a = .compute n response eventId timestamp)
      (hresponder : s.responders[n]? = some responder) (hreplying : responder.replying = none)
      (hpanic : outcome ≠ .panic)
      (hbus : s.bus.stepHandler config responder.subscription (.outcome outcome) = some bus) :
      RpcStep config s a { s with bus := bus, computed := computed }
  | reply {n : Nat} {responder : Responder} {event : ArcEnvelope} {reply : EventEnvelope}
      {response : Bytes} {eventId : Uuid} {timestamp : DateTime} {computed : List Computed}
      (hresponder : s.responders[n]? = some responder) (hreplying : responder.replying = none)
      (hhandling : s.bus.handling responder.subscription = some event)
      (hasks : event.envelope.metadata.replyTo.isSome = true)
      (hreply : reply.metadata.replyTo = none) :
      RpcStep config s (.compute n response eventId timestamp)
        ({ s with bus := s.bus.publish reply false, computed := computed }.setReplying n responder
          (some s.bus.calls.length))
  | replied {n m : Nat} {responder : Responder} {result : PublishResult} {bus : MemoryBus}
      (hresponder : s.responders[n]? = some responder) (hreplying : responder.replying = some m)
      (hresult : s.bus.resultOf m = some result)
      (hbus : s.bus.stepHandler config responder.subscription (.outcome result.outcome)
        = some bus) :
      RpcStep config s (.replied n) ({ s with bus := bus }.setReplying n responder none)
  | cancelReply {n m : Nat} {responder : Responder} {bus bus' : MemoryBus}
      (hresponder : s.responders[n]? = some responder) (hreplying : responder.replying = some m)
      (hdrop : s.bus.dropCall m = some bus)
      (hbus : bus.stepHandler config responder.subscription .cancelled = some bus') :
      RpcStep config s (.cancelReply n) ({ s with bus := bus' }.setReplying n responder none)

variable {config : EventBusConfig} {s s' : RpcBus}

theorem setRequest_self {n : Nat} {call : RequestCall} (h : s.requests[n]? = some call) :
    s.setRequest n call = s := by
  obtain ⟨hlt, rfl⟩ := List.getElem?_eq_some_iff.mp h
  simp [setRequest]

theorem requested_cases {n : Nat} (h : s.requested n = some s') :
    RpcStep config s (.requested n) s' := by
  unfold requested at h
  split at h
  · rename_i call hcall
    split at h
    · rename_i m hphase
      split at h
      · rename_i eventId hresult
        cases h
        exact .awaitReply hcall hphase hresult
      · rename_i e hresult
        cases h
        exact .failRequest hcall hphase hresult
      · cases h
    · cases h
  · cases h

theorem receive_cases {n : Nat} (h : s.receive n = some s') :
    RpcStep config s (.receive n) s' := by
  unfold receive at h
  split at h
  · rename_i call hcall
    split at h
    · rename_i response hphase hslot
      cases h
      exact .conclude (.inl rfl) hcall hphase
    · rename_i hphase hslot
      split at h
      · cases h
        exact .conclude (.inl rfl) hcall hphase
      · cases h
    · cases h
  · cases h

theorem timeout_cases {n : Nat} (h : s.timeout n = some s') :
    RpcStep config s (.timeout n) s' := by
  unfold timeout at h
  split at h
  · rename_i call hcall
    split at h
    · rename_i hphase hslot
      cases h
      exact .conclude (.inr rfl) hcall hphase
    · cases h
  · cases h

theorem drop_cases {n : Nat} (h : s.drop n = some s') : RpcStep config s (.drop n) s' := by
  unfold drop at h
  split at h
  · rename_i call hcall
    split at h
    · rename_i m hphase
      obtain ⟨bus, hdrop, rfl⟩ := Option.map_eq_some_iff.mp h
      exact .dropPublishing hcall hphase hdrop
    · rename_i hphase
      cases h
      exact .dropAwaiting hcall hphase
    · cases h
  · cases h

theorem deliver_cases {n : Nat} (h : s.deliver config n = some s') :
    RpcStep config s (.deliver n) s' := by
  unfold deliver at h
  split at h
  · rename_i call hcall
    split at h
    · rename_i event hhandling
      split at h
      · rename_i response hget
        obtain ⟨bus, hbus, rfl⟩ := Option.map_eq_some_iff.mp h
        refine .deliver hcall (by simp) hbus ?_
        split
        · exact ⟨rfl, rfl, rfl⟩
        · exact ⟨rfl, rfl, rfl⟩
      · rename_i e hget
        obtain ⟨bus, hbus, rfl⟩ := Option.map_eq_some_iff.mp h
        have hstep : RpcStep config s (.deliver n) ({ s with bus := bus }.setRequest n call) :=
          .deliver hcall (by simp) hbus ⟨rfl, rfl, rfl⟩
        rwa [setRequest_self (s := { s with bus := bus }) hcall] at hstep
    · cases h
  · cases h

theorem called_cases {n : Nat} {responder : Responder} {event : ArcEnvelope}
    (h : s.called n = some (responder, event)) :
    s.responders[n]? = some responder ∧ responder.replying = none ∧
      s.bus.handling responder.subscription = some event := by
  unfold called at h
  split at h
  · rename_i responder' hresponder
    split at h
    · rename_i hreplying
      obtain ⟨event', hevent, heq⟩ := Option.map_eq_some_iff.mp h
      cases heq
      exact ⟨hresponder, Option.isNone_iff_eq_none.mp hreplying, hevent⟩
    · cases h
  · cases h

theorem refuse_cases {n : Nat} (h : s.refuse config n = some s') :
    RpcStep config s (.refuse n) s' := by
  unfold refuse at h
  split at h
  · rename_i responder event hcalled
    obtain ⟨hresponder, hreplying, -⟩ := called_cases hcalled
    split at h
    · cases h
    · obtain ⟨bus, hbus, rfl⟩ := Option.map_eq_some_iff.mp h
      exact .answer (.inl rfl) hresponder hreplying (by simp) hbus
  · cases h

theorem compute_cases {n : Nat} {response : Bytes} {eventId : Uuid} {timestamp : DateTime}
    (h : s.compute config n response eventId timestamp = some s') :
    RpcStep config s (.compute n response eventId timestamp) s' := by
  unfold compute at h
  split at h
  · rename_i responder event hcalled
    obtain ⟨hresponder, hreplying, hhandling⟩ := called_cases hcalled
    split at h
    · rename_i request hget
      split at h
      · rename_i replyTo hreplyTo
        cases h
        exact .reply hresponder hreplying hhandling (by simp [hreplyTo]) rfl
      · obtain ⟨bus, hbus, rfl⟩ := Option.map_eq_some_iff.mp h
        exact .answer (.inr ⟨_, _, _, rfl⟩) hresponder hreplying (by simp) hbus
    · cases h
  · cases h

theorem replied_cases {n : Nat} (h : s.replied config n = some s') :
    RpcStep config s (.replied n) s' := by
  unfold replied at h
  split at h
  · rename_i responder hresponder
    split at h
    · rename_i result hresult
      obtain ⟨m, hreplying, hresult⟩ := Option.bind_eq_some_iff.mp hresult
      obtain ⟨bus, hbus, rfl⟩ := Option.map_eq_some_iff.mp h
      exact .replied hresponder hreplying hresult hbus
    · cases h
  · cases h

theorem cancelReply_cases {n : Nat} (h : s.cancelReply config n = some s') :
    RpcStep config s (.cancelReply n) s' := by
  unfold cancelReply at h
  split at h
  · rename_i responder hresponder
    split at h
    · rename_i m hreplying
      obtain ⟨bus', hbus, rfl⟩ := Option.map_eq_some_iff.mp h
      obtain ⟨bus, hdrop, hcancelled⟩ := Option.bind_eq_some_iff.mp hbus
      exact .cancelReply hresponder hreplying hdrop hcancelled
    · cases h
  · cases h

/-- **What a step can do.** -/
theorem step_cases {a : RpcAction} (h : s.step config a = some s') : RpcStep config s a s' := by
  cases a with
  | bus a =>
    simp only [step, stepBus] at h
    split at h
    · rename_i hpermits
      obtain ⟨bus, hbus, rfl⟩ := Option.map_eq_some_iff.mp h
      exact .bus hpermits hbus
    · cases h
  | request inbox subscription req res event =>
    simp only [step, request] at h
    split at h
    · cases h
      exact .reject (.inl ⟨_, _, _, _, _, rfl⟩)
    · obtain ⟨bus, hbus, rfl⟩ := Option.map_eq_some_iff.mp h
      exact .request hbus
  | publishRequest n eventId timestamp =>
    simp only [step, publishRequest] at h
    split at h
    · rename_i call hcall
      split at h
      · rename_i hphase
        cases h
        exact .publishRequest hcall hphase
      · cases h
    · cases h
  | requested n => exact requested_cases h
  | receive n => exact receive_cases h
  | timeout n => exact timeout_cases h
  | close n =>
    simp only [step, close] at h
    split at h
    · rename_i call hcall
      split at h
      · rename_i response hphase
        cases h
        exact .close hcall hphase
      · cases h
    · cases h
  | drop n => exact drop_cases h
  | deliver n => exact deliver_cases h
  | respond subscription req res =>
    simp only [step, respond] at h
    split at h
    · cases h
      exact .reject (.inr ⟨_, _, _, rfl⟩)
    · obtain ⟨bus, hbus, rfl⟩ := Option.map_eq_some_iff.mp h
      exact .respond hbus
  | refuse n => exact refuse_cases h
  | compute n response eventId timestamp => exact compute_cases h
  | replied n => exact replied_cases h
  | cancelReply n => exact cancelReply_cases h

end RpcBus
end TokioEvents

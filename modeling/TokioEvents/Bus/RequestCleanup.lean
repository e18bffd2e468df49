/-
  TokioEvents.Bus.RequestCleanup

  No request hangs and none leaves its inbox behind.  The requests and the responders of an
  in-memory bus cannot go on for ever by themselves; and where they end, every request has
  returned or was dropped, no responder is sending a reply, and every inbox is gone from the
  map and from the registry with its task.  Only an inbox whose own task waits for room in a
  dead letter queue that nobody empties is left.

  A responder that waits for room in the queue keeps the worker from its channel, and the
  worker does not take from the queue what the responder waits for; it is the processing
  timeout that ends this.
-/

import TokioEvents.Bus.Parties
import TokioEvents.Bus.Release
import TokioEvents.Bus.RequestWork

namespace TokioEvents

namespace MemoryBus

variable {config : EventBusConfig} {s s' : MemoryBus} {id : Uuid} {as : List Action}

/-- The last handle of a subscription is dropped: its task is signalled. -/
theorem signalled_dropHandle (h : ((s.dropHandle id).tasks[id]?).isSome) :
    ∃ task, (s.dropHandle id).tasks[id]? = some task ∧ task.signalled = true := by
  unfold dropHandle signal at h ⊢
  cases htask : s.tasks[id]? with
  | none => simp [htask] at h
  | some task => exact ⟨{ task with signalled := true }, by simp [setTask], rfl⟩

/-- A signal is not taken back. -/
theorem signalled_exec (h : exec config s as = some s')
    (hs : ∃ task, s.tasks[id]? = some task ∧ task.signalled = true) :
    ∃ task, s'.tasks[id]? = some task ∧ task.signalled = true := by
  refine Transition.invariant
    (I := fun s : MemoryBus => ∃ task, s.tasks[id]? = some task ∧ task.signalled = true)
    (fun s a s' hs h => ?_) hs h
  obtain ⟨task, htask, hsignalled⟩ := hs
  obtain ⟨task', htask', hgoes⟩ := goes_step h htask
  exact ⟨task', htask', hgoes.signalled hsignalled⟩

theorem handling_eq_some {event : ArcEnvelope} :
    s.handling id = some event
      ↔ ∃ task n, s.tasks[id]? = some task ∧ task.phase = .handling event n := by
  unfold handling
  constructor
  · intro h
    split at h
    · rename_i task htask
      split at h
      · rename_i event' n hphase
        cases h
        exact ⟨task, n, htask, hphase⟩
      · cases h
    · cases h
  · rintro ⟨task, n, htask, hphase⟩
    simp [htask, hphase]

/-- A handler that is called can return, with whatever outcome. -/
theorem exists_stepHandler (config : EventBusConfig) {event : ArcEnvelope}
    (hhandling : s.handling id = some event) (outcome : Outcome) :
    ∃ s', s.stepHandler config id (.outcome outcome) = some s' := by
  obtain ⟨task, n, htask, hphase⟩ := handling_eq_some.mp hhandling
  simp only [stepHandler, htask, handlerOutcome, hphase]
  cases outcome with
  | ok => exact ⟨_, rfl⟩
  | panic => exact ⟨_, rfl⟩
  | error =>
    dsimp only
    repeat' split
    all_goals exact ⟨_, rfl⟩

/-- A handler that is called with an event is called with it until it ends. -/
theorem handling_step {a : Action} {event : ArcEnvelope} (hs : s.handling id = some event)
    (hown : ∀ x, a = .handler id x → (∀ outcome, x ≠ .outcome outcome) ∧ x ≠ .cancelled)
    (h : step config s a = some s') : s'.handling id = some event := by
  obtain ⟨task, n, htask, hphase⟩ := handling_eq_some.mp hs
  by_cases hhandler : ∃ x, a = .handler id x
  · obtain ⟨x, rfl⟩ := hhandler
    obtain ⟨houtcome, hcancelled⟩ := hown x rfl
    obtain ⟨task', htask', hstep⟩ := stepHandler_cases h
    cases htask.symm.trans htask'
    cases hstep with
    | recv hselecting => cases hphase.symm.trans hselecting
    | closed hselecting => cases hphase.symm.trans hselecting
    | interrupt hselecting => cases hphase.symm.trans hselecting
    | deadLetter hdead => cases hphase.symm.trans hdead
    | retry hbacking => cases hphase.symm.trans hbacking
    | cancelled => exact absurd rfl hcancelled
    | _ => exact absurd rfl (houtcome _)
  · obtain ⟨task', htask', hgoes⟩ := goes_step h htask
    have hsame := hgoes.phase fun x hx => hhandler ⟨x, hx⟩
    exact handling_eq_some.mpr ⟨task', n, htask', hsame.trans hphase⟩

theorem handling_exec {event : ArcEnvelope} (hs : s.handling id = some event)
    (hown : ∀ x, Action.handler id x ∈ as → (∀ outcome, x ≠ .outcome outcome) ∧ x ≠ .cancelled)
    (h : exec config s as = some s') : s'.handling id = some event := by
  refine Transition.invariant_forall (I := fun s : MemoryBus => s.handling id = some event)
    (C := fun a => ∀ x, a = .handler id x → (∀ outcome, x ≠ .outcome outcome) ∧ x ≠ .cancelled)
    (fun s a s' hs hown h => handling_step hs hown h) hs (fun a ha x hx => ?_) h
  exact hown x (hx ▸ ha)

theorem awaited_exec {m : Nat} (hs : s.Awaited m) (hcancel : Action.publisher (.cancel m) ∉ as)
    (h : exec config s as = some s') : s'.Awaited m := by
  refine Transition.invariant_forall (I := fun s : MemoryBus => s.Awaited m)
    (C := fun a => a ≠ .publisher (.cancel m)) (fun s a s' hs hne h => hs.step hne h) hs
    (fun a ha heq => ?_) h
  exact hcancel (heq ▸ ha)

/-- A task that is not let go of by a panic. -/
structure Minded (config : EventBusConfig) (s : MemoryBus) (id : Uuid) : Prop where
  letsGo : s.LetsGo id
  stored : (s.tasks[id]?).isSome
  counted : ∀ id, (s.journal id).Counted config

theorem Minded.exec (hretries : config.maxRetries + 1 < 2 ^ 32)
    (hbackoff : ∀ n ≤ config.maxRetries, config.afterError n ≠ .panics) (hs : s.Minded config id)
    (hpanic : Action.handler id (.outcome .panic) ∉ as)
    (h : MemoryBus.exec config s as = some s') : s'.Minded config id := by
  refine Transition.invariant_forall (I := fun s : MemoryBus => s.Minded config id)
    (C := fun a => a ≠ .handler id (.outcome .panic)) (fun s a s' hs hne h => ?_) hs
    (fun a ha heq => ?_) h
  case refine_2 => exact hpanic (heq ▸ ha)
  obtain ⟨task, htask⟩ := Option.isSome_iff_exists.mp hs.stored
  refine ⟨hs.letsGo.step htask hne (fun event n hphase => ?_) h, isSome_task_step h hs.stored,
    fun id => (hs.counted id).step hretries (journal_step h id)⟩
  exact hbackoff n ((hs.counted id).handling _ event n (hphase ▸ journal_task htask))

end MemoryBus

namespace RpcBus

variable {config : EventBusConfig} {s s' : RpcBus} {a : RpcAction}

/-! ## What every run keeps -/

/-- The inboxes are looked after, and nobody drops the publish call that a party awaits. -/
structure Upkeep (config : EventBusConfig) (s : RpcBus) : Prop where
  reached : ∃ as, MemoryBus.exec config (.build config) as = some s.bus
  apart : s.Apart
  inboxes : ∀ n id, s.subscriptionOf (.request n) = some id → s.bus.LetsGo id
  /-- Whoever leaves drops the handle. -/
  signalled : ∀ call ∈ s.requests, call.phase.over = true →
    ∃ task, s.bus.tasks[call.subscription]? = some task ∧ task.signalled = true
  publishing : ∀ call ∈ s.requests, ∀ m, call.phase = .publishing m →
    call.call = some m ∧ s.bus.Awaited m
  replying : ∀ responder ∈ s.responders, ∀ m, responder.replying = some m → s.bus.Awaited m
  asked : s.Replying

theorem upkeep_build (config : EventBusConfig) : (build config).Upkeep config where
  reached := ⟨[], rfl⟩
  apart := apart_build config
  inboxes n id hid := by simp [subscriptionOf, build] at hid
  signalled _ h := by cases h
  publishing _ h := by cases h
  replying _ h := by cases h
  asked _ h := by cases h

theorem Upkeep.counted (hs : s.Upkeep config) (hretries : config.maxRetries + 1 < 2 ^ 32)
    (id : Uuid) : (s.bus.journal id).Counted config := by
  obtain ⟨as, hexec⟩ := hs.reached
  exact MemoryBus.counted_exec hretries hexec id

/-- **One step.** -/
theorem Upkeep.step (hretries : config.maxRetries + 1 < 2 ^ 32)
    (hbackoff : ∀ n ≤ config.maxRetries, config.afterError n ≠ .panics) (hs : s.Upkeep config)
    (h : s.step config a = some s') : s'.Upkeep config := by
  have hstep := step_cases h
  obtain ⟨as, hacts⟩ := hstep.acts hs.apart fun n call m hcall hphase =>
    (hs.publishing call (List.mem_of_getElem? hcall) m hphase).1
  have hapart := hs.apart.step hstep hacts
  constructor
  case reached =>
    obtain ⟨bs, hexec⟩ := hs.reached
    exact ⟨bs ++ as, exec_both hexec hacts.exec⟩
  case apart => exact hapart
  case inboxes =>
    intro n id hid
    obtain ⟨q, hsubscriptions⟩ := hstep.subscriptionOf
    rcases hsubscriptions _ _ hid with hold | ⟨-, hfresh⟩
    · have hminded : s.bus.Minded config id :=
        ⟨hs.inboxes n id hold, hs.apart.stored _ id hold, hs.counted hretries⟩
      obtain ⟨call, hcall, rfl⟩ := Option.map_eq_some_iff.mp hold
      exact (hminded.exec hretries hbackoff (hacts.panics call (List.mem_of_getElem? hcall))
        hacts.exec).letsGo
    · obtain ⟨channel, htask⟩ := hfresh.after
      exact MemoryBus.letsGo_of_new htask
  case signalled =>
    intro call' hmem hover
    obtain ⟨n, hcall'⟩ := List.mem_iff_getElem?.mp hmem
    cases hstep.request_cases hcall' with
    | same hcall =>
      exact MemoryBus.signalled_exec hacts.exec
        (hs.signalled call' (List.mem_of_getElem? hcall) hover)
    | @kept call hcall hsame =>
      rw [hsame.1]
      exact MemoryBus.signalled_exec hacts.exec
        (hs.signalled call (List.mem_of_getElem? hcall) (hsame.2.2 ▸ hover))
    | ended _ hbus =>
      have hstored := hapart.stored _ _ (subscriptionOf_request hcall')
      rw [hbus] at hstored ⊢
      exact MemoryBus.signalled_dropHandle hstored
    | begun hphase => simp [hphase, RequestPhase.over] at hover
    | published _ hphase => simp [hphase, RequestPhase.over] at hover
    | waiting hphase =>
      rcases hphase with hphase | ⟨_, hphase⟩
      · simp [hphase, RequestPhase.over] at hover
      · simp [hphase, RequestPhase.over] at hover
  case publishing =>
    intro call' hmem m hphase
    obtain ⟨n, hcall'⟩ := List.mem_iff_getElem?.mp hmem
    have hkeep : ∀ {call : RequestCall}, s.requests[n]? = some call → call.phase = .publishing m →
        a.dropped ≠ some (.request n) → call.call = some m ∧ s'.bus.Awaited m := by
      intro call hcall hpublishing hdropped
      obtain ⟨hown, hawaited⟩ := hs.publishing call (List.mem_of_getElem? hcall) m hpublishing
      have hcallOf : s.callOf (.request n) = some m := by
        rw [callOf, hcall]
        exact hown
      exact ⟨hown, MemoryBus.awaited_exec hawaited
        (fun hcancel => hdropped (hacts.calls _ m hcallOf hcancel)) hacts.exec⟩
    cases hstep.request_cases hcall' with
    | same hcall hparty => exact hkeep hcall hphase fun heq => hparty (party_of_dropped heq)
    | kept hcall hsame hdropped =>
      rw [hsame.2.1]
      exact hkeep hcall (hsame.2.2 ▸ hphase) (by simp [hdropped])
    | published hown hpublishing hbus =>
      cases hpublishing.symm.trans hphase
      rw [hbus]
      exact ⟨hown, MemoryBus.awaited_publish s.bus _⟩
    | begun hsubscribed => cases hsubscribed.symm.trans hphase
    | waiting hwaiting =>
      rcases hwaiting with hwaiting | ⟨_, hwaiting⟩
      · cases hwaiting.symm.trans hphase
      · cases hwaiting.symm.trans hphase
    | ended hover => simp [hphase, RequestPhase.over] at hover
  case replying =>
    intro responder' hmem m hm
    obtain ⟨n, hresponder'⟩ := List.mem_iff_getElem?.mp hmem
    rcases hstep.replying hresponder' hm with ⟨hresponder, hparty⟩ | ⟨rfl, ⟨envelope, hbus⟩, -⟩
    · refine MemoryBus.awaited_exec (hs.replying responder' (List.mem_of_getElem? hresponder) m hm)
        (fun hcancel => hparty (party_of_dropped ?_)) hacts.exec
      exact hacts.calls _ m (callOf_responder hresponder hm) hcancel
    · rw [hbus]
      exact MemoryBus.awaited_publish s.bus envelope
  case asked =>
    intro responder' hmem m hm
    obtain ⟨n, hresponder'⟩ := List.mem_iff_getElem?.mp hmem
    rcases hstep.replying hresponder' hm with
      ⟨hresponder, hparty⟩ | ⟨-, ⟨envelope, hbus⟩, hhandling⟩
    · obtain ⟨event, hhandling, hasks⟩ := hs.asked responder' (List.mem_of_getElem? hresponder) m hm
      refine ⟨event, MemoryBus.handling_exec hhandling (fun x hx => ?_) hacts.exec, hasks⟩
      exact hacts.handlers n responder' x hparty hresponder (by simp [hm]) hx
    · rw [hbus]
      exact hhandling

/-- **Every run.** -/
theorem upkeep_exec {as : List RpcAction} (hretries : config.maxRetries + 1 < 2 ^ 32)
    (hbackoff : ∀ n ≤ config.maxRetries, config.afterError n ≠ .panics)
    (hexec : exec config (build config) as = some s) : s.Upkeep config :=
  Transition.invariant (fun _ _ _ hs h => hs.step hretries hbackoff h) (upkeep_build config) hexec

end RpcBus

/-! ## Where the system comes to rest -/

/-- The step is one that the program takes by itself: no task panics or is aborted and no
    caller gives up, but the processing timeout strikes, and the timeout of a request. -/
def RpcAction.driven : RpcAction → Bool
  | .bus (.worker .timeout) => true
  | .bus a => a.driven
  | .request _ _ _ _ _ => false
  | .respond _ _ _ => false
  | .drop _ => false
  | .cancelReply _ => false
  | _ => true

/-- Nothing is left of a subscription. -/
structure MemoryBus.Gone (s : MemoryBus) (id : Uuid) : Prop where
  subscriptions : id ∉ s.subscriptions
  registry : s.registry.subscriptionToType[id]? = none
  ended : ∀ task, s.tasks[id]? = some task → task.phase = .ended

/-- Its task waits for room in the dead letter queue. -/
def MemoryBus.AwaitsDlq (config : EventBusConfig) (s : MemoryBus) (id : Uuid) : Prop :=
  (∃ task event, s.tasks[id]? = some task ∧ task.phase = .deadLettering event) ∧ s.DlqBlocked config

namespace RpcBus

variable {config : EventBusConfig} {s s' : RpcBus} {a : RpcAction}

/-- Nothing is left of the requests, and the bus has nothing to do. -/
structure CleanedUp (config : EventBusConfig) (s : RpcBus) : Prop where
  requests : ∀ call ∈ s.requests, call.phase.over = true
  inboxes : ∀ call ∈ s.requests,
    s.bus.Gone call.subscription ∨ s.bus.AwaitsDlq config call.subscription
  replies : ∀ responder ∈ s.responders, responder.replying = none
  calls : ∀ call ∈ s.bus.calls, call.pending = false
  bus : s.bus.Idle ∨ s.bus.DlqBlocked config

theorem permits_of_paced {b : MemoryBus.Action} (h : b.paced = true) : s.permits b = true := by
  cases b with
  | handler id x => cases x <;> first | rfl | cases h
  | publisher x => cases x <;> first | rfl | cases h
  | subscriber x => cases x <;> first | rfl | cases h
  | _ => rfl

section Rest

variable (hsettled : Transition.Settled (RpcBus.step config) (fun a => a.driven = true) s)

include hsettled

/-- A step of the bus that is permitted. -/
theorem bus_settled {b : MemoryBus.Action} (hdriven : RpcAction.driven (.bus b) = true)
    (hpermits : s.permits b = true) : s.bus.step config b = none := by
  have hnone : s.stepBus config b = none := hsettled (.bus b) hdriven
  rw [stepBus, if_pos hpermits] at hnone
  exact Option.map_eq_none_iff.mp hnone

theorem paced_settled :
    Transition.Settled (MemoryBus.step config) (fun b => b.paced = true) s.bus := by
  intro b hb
  refine bus_settled hsettled ?_ (permits_of_paced hb)
  have hdriven := MemoryBus.Action.driven_of_paced hb
  cases b with
  | worker x => cases x <;> first | rfl | cases hb
  | _ => exact hdriven

/-- The worker does not wait for a channel that stays full: the processing timeout strikes. -/
theorem worker_rests (hs : s.bus.Founded config) (htimeout : 0 < config.processingTimeoutMs) :
    s.bus.WorkerRests := by
  refine hs.worker_rests (paced_settled hsettled) fun event sends hworker => ?_
  have hnone : s.bus.timeoutDispatch config = none :=
    bus_settled hsettled (b := .worker .timeout) rfl rfl
  simp [MemoryBus.timeoutDispatch, hworker, htimeout] at hnone

/-- No reply is being sent where every publish call has returned. -/
theorem Upkeep.replies_rest (hs : s.Upkeep config)
    (hcalls : ∀ call ∈ s.bus.calls, call.pending = false) :
    ∀ responder ∈ s.responders, responder.replying = none := by
  intro responder hmem
  obtain ⟨n, hresponder⟩ := List.mem_iff_getElem?.mp hmem
  cases hm : responder.replying with
  | none => rfl
  | some m =>
    have hnone : s.replied config n = none := hsettled (.replied n) rfl
    obtain ⟨call, result, hcall, hphase, -⟩ := (hs.replying responder hmem m hm).returned hcalls
    obtain ⟨event, hhandling, -⟩ := hs.asked responder hmem m hm
    obtain ⟨bus, hbus⟩ := MemoryBus.exists_stepHandler config hhandling result.outcome
    simp [replied, hresponder, hm, MemoryBus.resultOf, hcall, hphase, hbus] at hnone

/-- Every handler returns: of an inbox, of a responder, or any other. -/
theorem handlers_rest (hreplies : ∀ responder ∈ s.responders, responder.replying = none)
    (id : Uuid) (task : HandlerTask) (htask : s.bus.tasks[id]? = some task) (event : ArcEnvelope)
    (n : Nat) : task.phase ≠ .handling event n := by
  intro hphase
  have hhandling : s.bus.handling id = some event :=
    MemoryBus.handling_eq_some.mpr ⟨task, n, htask, hphase⟩
  by_cases hinbox : s.isInbox id = true
  · obtain ⟨call, hmem, hid⟩ := List.any_eq_true.mp hinbox
    obtain ⟨k, hcall⟩ := List.mem_iff_getElem?.mp hmem
    have hsub : call.subscription = id := by simpa using hid
    have hnone : s.deliver config k = none := hsettled (.deliver k) rfl
    obtain ⟨bus, hok⟩ := MemoryBus.exists_stepHandler config hhandling .ok
    obtain ⟨bus', herror⟩ := MemoryBus.exists_stepHandler config hhandling .error
    simp only [deliver, hcall, hsub, hhandling, hok, herror] at hnone
    split at hnone <;> cases hnone
  · by_cases hresponds : ∃ responder ∈ s.responders, responder.subscription = id
    · obtain ⟨responder, hmem, rfl⟩ := hresponds
      obtain ⟨k, hresponder⟩ := List.mem_iff_getElem?.mp hmem
      have hcalled : s.called k = some (responder, event) := by
        simp [called, hresponder, hreplies responder hmem, hhandling]
      have hrefuse : s.refuse config k = none := hsettled (.refuse k) rfl
      have hcompute : s.compute config k default 0 0 = none := hsettled (.compute k default 0 0) rfl
      obtain ⟨bus, hok⟩ := MemoryBus.exists_stepHandler config hhandling .ok
      obtain ⟨bus', herror⟩ := MemoryBus.exists_stepHandler config hhandling .error
      cases hget : event.envelope.getEvent responder.req with
      | error e => simp [refuse, hcalled, hget, herror] at hrefuse
      | ok request =>
        simp only [compute, hcalled, hget, hok] at hcompute
        split at hcompute <;> cases hcompute
    · -- nobody else keeps the handler from returning
      have hpermits : s.permits (.handler id (.outcome .ok)) = true := by
        simp only [permits, Bool.and_eq_true, Bool.not_eq_true', List.all_eq_true]
        refine ⟨by simpa using hinbox, fun responder hmem => ?_⟩
        have hne : responder.subscription ≠ id := fun heq => hresponds ⟨responder, hmem, heq⟩
        simp [hne]
      have hnone : s.bus.stepHandler config id (.outcome .ok) = none :=
        bus_settled hsettled (b := .handler id (.outcome .ok)) rfl hpermits
      obtain ⟨bus, hok⟩ := MemoryBus.exists_stepHandler config hhandling .ok
      cases hnone.symm.trans hok

theorem Upkeep.requests_rest (hs : s.Upkeep config)
    (hcalls : ∀ call ∈ s.bus.calls, call.pending = false) :
    ∀ call ∈ s.requests, call.phase.over = true := by
  intro call hmem
  obtain ⟨n, hcall⟩ := List.mem_iff_getElem?.mp hmem
  cases hphase : call.phase with
  | subscribed =>
    have hnone : s.publishRequest n 0 0 = none := hsettled (.publishRequest n 0 0) rfl
    simp [publishRequest, hcall, hphase] at hnone
  | publishing m =>
    have hnone : s.requested n = none := hsettled (.requested n) rfl
    obtain ⟨publish, result, hpublish, hreturned, htry⟩ :=
      (hs.publishing call hmem m hphase).2.returned hcalls
    cases result with
    | ok eventId =>
      simp [requested, hcall, hphase, MemoryBus.resultOf, hpublish, hreturned] at hnone
    | error e =>
      simp [requested, hcall, hphase, MemoryBus.resultOf, hpublish, hreturned] at hnone
    | tryError e => exact absurd rfl (htry e)
  | awaiting =>
    cases hslot : call.slot with
    | some response =>
      have hnone : s.receive n = none := hsettled (.receive n) rfl
      simp [receive, hcall, hphase, hslot] at hnone
    | none =>
      have hnone : s.timeout n = none := hsettled (.timeout n) rfl
      simp [timeout, hcall, hphase, hslot] at hnone
  | closing response =>
    have hnone : s.close n = none := hsettled (.close n) rfl
    simp [close, hcall, hphase] at hnone
  | returned response => rfl
  | dropped => rfl

/-- **An inbox goes** with its request: its task is signalled and asks to be removed. -/
theorem Upkeep.inbox_rests (hs : s.Upkeep config) (hlisted : s.bus.Listed)
    (hfounded : s.bus.Founded config)
    (hreturned : ∀ (id : Uuid) task, s.bus.tasks[id]? = some task →
      ∀ event n, task.phase ≠ .handling event n)
    {call : RequestCall} (hmem : call ∈ s.requests) (hover : call.phase.over = true) :
    s.bus.Gone call.subscription ∨ s.bus.AwaitsDlq config call.subscription := by
  have hpaced := paced_settled hsettled
  obtain ⟨n, hcall⟩ := List.mem_iff_getElem?.mp hmem
  obtain ⟨task, htask, hsignalled⟩ := hs.signalled call hmem hover
  rcases hfounded.task_rests hpaced htask (hreturned _ task htask) with
    ⟨-, hselecting | hended⟩ | ⟨⟨event, hdead⟩, hblocked⟩
  · have hnone : s.bus.stepHandler config call.subscription .interrupt = none :=
      hpaced (.handler call.subscription .interrupt) rfl
    simp [MemoryBus.stepHandler, htask, MemoryBus.handlerInterrupt, hselecting, hsignalled] at hnone
  · have hgone : call.subscription ∉ s.bus.subscriptions := by
      intro hid
      have hletsGo := hs.inboxes n _ (subscriptionOf_request hcall)
      have hunsubs := hletsGo.ended task htask hended hid
      rw [MemoryBus.unsubs_rest hpaced] at hunsubs
      cases hunsubs
    refine .inl ⟨hgone, hlisted _ hgone, fun task' htask' => ?_⟩
    cases htask.symm.trans htask'
    exact hended
  · exact .inr ⟨⟨task, event, htask, hdead⟩, hblocked⟩

end Rest

theorem listed_exec {as : List MemoryBus.Action} {bus : MemoryBus}
    (hexec : MemoryBus.exec config (.build config) as = some bus) : bus.Listed :=
  Transition.invariant (fun _ _ _ hs h => hs.step h) MemoryBus.listed_build hexec

/-- **Where the system rests** nothing is left of the requests. -/
theorem Upkeep.cleanedUp (hs : s.Upkeep config) (hqueue : 0 < config.maxQueueSize)
    (htimeout : 0 < config.processingTimeoutMs)
    (hsettled : Transition.Settled (RpcBus.step config) (fun a => a.driven = true) s) :
    s.CleanedUp config := by
  obtain ⟨as, hexec⟩ := hs.reached
  have hfounded := MemoryBus.founded_exec hexec
  have hpaced := paced_settled hsettled
  have hworker := worker_rests hsettled hfounded htimeout
  have hcalls := hfounded.calls_rest hpaced hqueue hworker
  have hreplies := hs.replies_rest hsettled hcalls
  have hreturned := handlers_rest hsettled hreplies
  have hrequests := hs.requests_rest hsettled hcalls
  refine ⟨hrequests, fun call hmem => ?_, hreplies, hcalls, ?_⟩
  · exact hs.inbox_rests hsettled (listed_exec hexec) hfounded hreturned hmem (hrequests call hmem)
  · by_cases hblocked : s.bus.DlqBlocked config
    · exact .inr hblocked
    · exact .inl (hfounded.idle hpaced hreturned hqueue hworker hblocked)

/-! ## Every run -/

/-- What becomes of a bus of which nothing more is asked, with its requests. -/
structure CleansUp (config : EventBusConfig) (s : RpcBus) : Prop where
  /-- It cannot go on for ever. -/
  settles : Transition.Settles (step config) (fun a => a.asked = false) s
  rests : Transition.Settled (step config) (fun a => a.driven = true) s → s.CleanedUp config
  reaches : ∃ as s', (∀ a ∈ as, a.driven = true) ∧ exec config s as = some s' ∧
    s'.CleanedUp config

theorem asked_of_driven (h : a.driven = true) : a.asked = false := by
  cases a with
  | bus b =>
    cases b with
    | worker x => rfl
    | _ => exact MemoryBus.Action.asked_of_driven h
  | request => cases h
  | respond => cases h
  | _ => rfl

/-- **No request hangs, and no inbox is left behind**, in any run of an in-memory bus. -/
theorem requestsCleanUp_exec {as : List RpcAction} (hqueue : 0 < config.maxQueueSize)
    (htimeout : 0 < config.processingTimeoutMs) (hretries : config.maxRetries + 1 < 2 ^ 32)
    (hbackoff : ∀ n ≤ config.maxRetries, config.afterError n ≠ .panics)
    (hexec : exec config (build config) as = some s) : s.CleansUp config := by
  have hs := upkeep_exec hretries hbackoff hexec
  have hkeep : ∀ s a s', Upkeep config s → step config s a = some s' → Upkeep config s' :=
    fun s a s' hs h => hs.step hretries hbackoff h
  have hkept : ∀ {C : RpcAction → Prop}, ∀ s a s', Upkeep config s → C a →
      step config s a = some s' → Upkeep config s' := fun s a s' hs _ h => hkeep s a s' hs h
  have hlt : ∀ s a s', Upkeep config s → a.asked = false → step config s a = some s' →
      s'.work config < s.work config := fun s a s' hs hasked h =>
    (step_cases h).work_lt hretries (hs.counted hretries) hs.asked hasked
  refine ⟨?_, hs.cleanedUp hqueue htimeout, ?_⟩
  · exact Transition.settles_of_measure (work config) hkept hlt hs
  · obtain ⟨bs, s', hdriven, hrun, hsettled⟩ := Transition.exists_exec_settled (work config)
      (C := fun a => a.driven = true) hkept
      (fun s a s' hs hdriven h => hlt s a s' hs (asked_of_driven hdriven) h) hs
    have hs' := Transition.invariant hkeep hs hrun
    exact ⟨bs, s', hdriven, hrun, hs'.cleanedUp hqueue htimeout hsettled⟩

/-- A query, and what is answered. -/
def stockQuery : EventType := ⟨1, "StockQuery", .ok, .ok⟩
def stockLevel : EventType := ⟨2, "StockLevel", .ok, .ok⟩

/-- Request `n` gets into the queue, with a publish call. -/
def asks (n call : Nat) : List RpcAction :=
  [.request (100 + n) (10 + n) stockQuery stockLevel [7], .publishRequest n (1000 + n) 0,
    .bus (.publisher (.acquire call)), .bus (.publisher (.dispatch call 0)),
    .bus (.publisher (.send call)), .requested n]

/-- The responder is answering the first request, and has the second one in its channel; the
    worker waits to send it the third, and the fourth one fills the queue. -/
def crowded : List RpcAction :=
  [.respond 1 stockQuery stockLevel] ++ asks 0 0 ++
    [.bus (.worker .recv), .bus (.worker .select), .bus (.worker (.push 1)), .bus (.worker .finish),
      .bus (.handler 1 .recv), .compute 0 [7, 7] 1002 0] ++
    asks 1 2 ++
    [.bus (.worker .recv), .bus (.worker .select), .bus (.worker (.push 1)), .bus (.worker .finish)] ++
    asks 2 3 ++ [.bus (.worker .recv), .bus (.worker .select)] ++ asks 3 4 ++
    [.bus (.publisher (.acquire 1)), .bus (.publisher (.dispatch 1 0))]

/-- The worker and the responder wait for each other, and yet all is cleaned up. -/
theorem requestsCleanUp_crowded :
    ∃ s, exec { maxQueueSize := 1, handlerChannelSize := 1 }
        (build { maxQueueSize := 1, handlerChannelSize := 1 }) crowded = some s ∧
      s.bus.worker.sends = [1] ∧ s.bus.push 1 = none ∧ s.bus.send 1 = none ∧
      s.CleansUp { maxQueueSize := 1, handlerChannelSize := 1 } := by
  have hrun : ((exec { maxQueueSize := 1, handlerChannelSize := 1 }
      (build { maxQueueSize := 1, handlerChannelSize := 1 }) crowded).map fun s =>
        decide (s.bus.worker.sends = [1]) && (s.bus.push 1).isNone && (s.bus.send 1).isNone)
      = some true := by decide +kernel
  obtain ⟨s, hexec, hstuck⟩ := Option.map_eq_some_iff.mp hrun
  simp only [Bool.and_eq_true, Option.isNone_iff_eq_none, decide_eq_true_eq] at hstuck
  exact ⟨s, hexec, hstuck.1.1, hstuck.1.2, hstuck.2,
    requestsCleanUp_exec (by decide) (by decide) (by decide) (by decide) hexec⟩

end RpcBus
end TokioEvents

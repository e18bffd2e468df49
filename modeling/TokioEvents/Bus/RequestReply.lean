/-
  TokioEvents.Bus.RequestReply

  Whose reply a request gets.  A reply travels on the inbox topic of the request it
  answers, and the inbox receives nothing else, if nobody but the responders publishes to
  inbox topics and nobody but `request` asks for replies there (`Inv`).
-/

import TokioEvents.Bus.Rpc
import TokioEvents.Bus.Tuned

namespace TokioEvents

/-- An `_INBOX` topic. -/
def isInboxTopic (topic : String) : Bool := "_INBOX.".toList.isPrefixOf topic.toList

theorem isInboxTopic_inboxTopic (id : Uuid) : isInboxTopic (inboxTopic id) = true := by
  rw [isInboxTopic, inboxTopic, String.toList_append, List.isPrefixOf_iff_prefix]
  exact List.prefix_append _ _

theorem ne_inboxTopic {topic : String} (h : isInboxTopic topic = false) (id : Uuid) :
    topic ≠ inboxTopic id := by
  rintro rfl
  exact Bool.false_ne_true (h.symm.trans (isInboxTopic_inboxTopic id))

/-- What a request has got, in its oneshot or as its result. -/
def RequestCall.Got (call : RequestCall) (response : Bytes) : Prop :=
  call.slot = some response ∨ call.phase.response = some (.ok response)

/-- The same call, further on. -/
structure RequestCall.Same (call call' : RequestCall) : Prop where
  inbox : call'.inbox = call.inbox
  subscription : call'.subscription = call.subscription
  req : call'.req = call.req
  request : call'.request = call.request

/-! ## Steps of the bus that publish nothing -/

namespace MemoryBus

variable {config : EventBusConfig} {s s' s'' : MemoryBus}

/-- What the bus keeps while nothing is published. -/
structure Keeps (s s' : MemoryBus) : Prop where
  orderly : s.Orderly → s'.Orderly
  traced : s.Traced → s'.Traced
  tuned : s.Orderly → ∀ {id pattern}, s.Tuned id pattern → s'.Tuned id pattern
  published : s'.published = s.published

theorem Keeps.refl (s : MemoryBus) : s.Keeps s := ⟨id, id, fun _ _ _ h => h, rfl⟩

theorem Keeps.trans (h : s.Keeps s') (h' : s'.Keeps s'') : s.Keeps s'' where
  orderly hs := h'.orderly (h.orderly hs)
  traced hs := h'.traced (h.traced hs)
  tuned hs _ _ ht := h'.tuned (h.orderly hs) (h.tuned hs ht)
  published := h'.published.trans h.published

theorem keeps_of_step (config : EventBusConfig) (a : Action) (h : step config s a = some s')
    (ha : a.publishes = []) :
    s.Keeps s' where
  orderly hs := hs.step h
  traced hs := hs.step h
  tuned hs _ _ ht := ht.step hs.registered h
  published := by rw [published_step h, ha, List.append_nil]

theorem keeps_stepHandler {id : Uuid} {a : HandlerAction}
    (h : s.stepHandler config id a = some s') : s.Keeps s' :=
  keeps_of_step config (.handler id a) h rfl

theorem keeps_subscribe {eventType : TypeId} {typeName : String} {entry : SubscriptionEntry}
    (h : s.subscribe config eventType typeName entry = some s') : s.Keeps s' :=
  keeps_of_step config (.subscriber (.subscribe eventType typeName entry)) h rfl

theorem keeps_unsubscribe (config : EventBusConfig) (id : Uuid) : s.Keeps (s.unsubscribe id) :=
  keeps_of_step config (.subscriber (.unsubscribe id)) rfl rfl

theorem keeps_dropHandle (config : EventBusConfig) (id : Uuid) : s.Keeps (s.dropHandle id) := by
  rcases dropHandle_cases config s id with hsame | hstep
  · rw [hsame]
    exact Keeps.refl s
  · exact keeps_of_step config _ hstep rfl

theorem keeps_dropCall (config : EventBusConfig) {n : Nat} (h : s.dropCall n = some s') :
    s.Keeps s' := by
  rcases dropCall_cases config h with rfl | hstep
  · exact Keeps.refl _
  · exact keeps_of_step config _ hstep rfl

/-- The event that a handler is called with is in its task. -/
theorem held_of_handling {id : Uuid} {event : ArcEnvelope} (h : s.handling id = some event) :
    ∃ task, s.tasks[id]? = some task ∧ event ∈ task.held := by
  unfold handling at h
  split at h
  · rename_i task htask
    split at h
    · rename_i event' n hphase
      cases h
      refine ⟨task, htask, ?_⟩
      simp [HandlerTask.held, hphase, HandlerPhase.event]
    · cases h
  · cases h

end MemoryBus

namespace RpcBus

open SubscriptionManager

variable {config : EventBusConfig} {s s' : RpcBus}

/-! ## The provisos -/

/-- Only responders publish to `_INBOX` topics, and the identifiers of inboxes are
    distinct. -/
def Provided (s : RpcBus) : RpcAction → Prop
  | .bus (.publisher (.publish envelope _)) => isInboxTopic (targetTopic envelope) = false
  | .request inbox _ req _ _ =>
    isInboxTopic req.eventType = false ∧ ∀ call ∈ s.requests, call.inbox ≠ inbox
  | _ => True

/-- Only `request` asks for replies to `_INBOX` topics. -/
def AsksForItself : RpcAction → Prop
  | .bus (.publisher (.publish envelope _)) =>
    ∀ replyTo ∈ envelope.metadata.replyTo, isInboxTopic replyTo = false
  | _ => True

instance (s : RpcBus) : (a : RpcAction) → Decidable (s.Provided a)
  | .bus (.publisher (.publish envelope _)) =>
    inferInstanceAs (Decidable (isInboxTopic (targetTopic envelope) = false))
  | .request inbox _ req _ _ => inferInstanceAs (Decidable (isInboxTopic req.eventType = false ∧
      ∀ call ∈ s.requests, call.inbox ≠ inbox))
  | .bus (.publisher (.acquire _)) | .bus (.publisher (.dispatch _ _))
  | .bus (.publisher (.send _)) | .bus (.publisher (.cancel _)) | .bus (.publisher (.wake _))
  | .bus (.worker _) | .bus (.handler _ _) | .bus (.subscriber _) | .bus (.shutdown _)
  | .publishRequest _ _ _ | .requested _ | .receive _ | .timeout _ | .close _ | .drop _
  | .deliver _ | .respond _ _ _ | .refuse _ | .compute _ _ _ _ | .replied _ | .cancelReply _ =>
    isTrue trivial

instance : (a : RpcAction) → Decidable (AsksForItself a)
  | .bus (.publisher (.publish envelope _)) =>
    inferInstanceAs (Decidable (∀ replyTo ∈ envelope.metadata.replyTo,
      isInboxTopic replyTo = false))
  | .bus (.publisher (.acquire _)) | .bus (.publisher (.dispatch _ _))
  | .bus (.publisher (.send _)) | .bus (.publisher (.cancel _)) | .bus (.publisher (.wake _))
  | .bus (.worker _) | .bus (.handler _ _) | .bus (.subscriber _) | .bus (.shutdown _)
  | .request _ _ _ _ _ | .publishRequest _ _ _ | .requested _ | .receive _ | .timeout _
  | .close _ | .drop _ | .deliver _ | .respond _ _ _ | .refuse _ | .compute _ _ _ _
  | .replied _ | .cancelReply _ => isTrue trivial

/-! ## The invariant -/

/-- A response that a responder has computed from an event which asks for replies to this
    inbox. -/
def Answers (s : RpcBus) (inbox : Uuid) (response : Bytes) : Prop :=
  ∃ c ∈ s.computed, c.event.envelope.metadata.replyTo = some (inboxTopic inbox) ∧
    c.response = response

/-- What a run keeps under the provisos, but for the requests' own events.  An inbox is
    tuned to its topic, and what is published to this topic is a reply to an event that
    asks for replies there. -/
structure Core (s : RpcBus) : Prop where
  orderly : s.bus.Orderly
  traced : s.bus.Traced
  tuned : ∀ call ∈ s.requests, s.bus.Tuned call.subscription (inboxTopic call.inbox)
  plain : ∀ call ∈ s.requests, isInboxTopic call.req.eventType = false
  inboxes : (s.requests.map (·.inbox)).Nodup
  computed : ∀ c ∈ s.computed,
    s.bus.Names c.event ∧ ∃ T : EventType, c.event.envelope.getEvent T = .ok c.request
  replies : ∀ envelope ∈ s.bus.published, ∀ inbox, targetTopic envelope = inboxTopic inbox →
    ∃ response, s.Answers inbox response ∧
      ∀ (T : EventType) value, envelope.getEvent T = .ok value → value = response
  answered : ∀ call ∈ s.requests, ∀ response, call.Got response → s.Answers call.inbox response

/-- **The invariant.** An event that asks for replies to an inbox is the request of the
    call whose inbox it is. -/
structure Inv (s : RpcBus) : Prop extends Core s where
  unsent : ∀ call ∈ s.requests, call.phase = .subscribed → call.call = none
  sent : ∀ call ∈ s.requests, ∀ n, call.call = some n →
    ∃ eventId timestamp, s.bus.published[n]? = some (call.envelope eventId timestamp)
  asked : ∀ n envelope, s.bus.published[n]? = some envelope →
    ∀ inbox, envelope.metadata.replyTo = some (inboxTopic inbox) →
      ∃ call ∈ s.requests, call.inbox = inbox ∧ call.call = some n

theorem inv_build (config : EventBusConfig) : (build config).Inv where
  orderly := MemoryBus.orderly_build
  traced := MemoryBus.traced_build
  tuned _ h := by cases h
  plain _ h := by cases h
  inboxes := List.nodup_nil
  computed _ h := by cases h
  replies _ h := by cases h
  answered _ h := by cases h
  unsent _ h := by cases h
  sent _ h := by cases h
  asked _ _ h := by cases h

/-! ## What each kind of step keeps -/

theorem Answers.append {inbox : Uuid} {response : Bytes} (h : s.Answers inbox response)
    (c : Computed) : Answers { s with computed := s.computed ++ [c] } inbox response := by
  obtain ⟨c', hc', hanswer⟩ := h
  exact ⟨c', List.mem_append_left _ hc', hanswer⟩

/-- The bus goes on and publishes nothing. -/
theorem Inv.keep (hI : s.Inv) {bus : MemoryBus} (h : s.bus.Keeps bus) :
    Inv { s with bus := bus } where
  orderly := h.orderly hI.orderly
  traced := h.traced hI.traced
  tuned call hcall := h.tuned hI.orderly (hI.tuned call hcall)
  plain := hI.plain
  inboxes := hI.inboxes
  computed c hc := by
    unfold MemoryBus.Names
    rw [h.published]
    exact hI.computed c hc
  replies := by
    rw [h.published]
    exact hI.replies
  answered := hI.answered
  unsent := hI.unsent
  sent := by
    rw [h.published]
    exact hI.sent
  asked := by
    rw [h.published]
    exact hI.asked

/-- The responders go on. -/
theorem Inv.setResponders (hI : s.Inv) (responders : List Responder) :
    Inv { s with responders := responders } :=
  ⟨⟨hI.orderly, hI.traced, hI.tuned, hI.plain, hI.inboxes, hI.computed, hI.replies,
    hI.answered⟩, hI.unsent, hI.sent, hI.asked⟩

/-- A request goes on; what it has got now, it had before, or it is an answer. -/
theorem Core.setRequest (hI : s.Core) {n : Nat} {call call' : RequestCall}
    (hcall : s.requests[n]? = some call) (hsame : call.Same call')
    (hgot : ∀ response, call'.Got response → call.Got response ∨ s.Answers call.inbox response) :
    Core (s.setRequest n call') := by
  have hmem := List.mem_of_getElem? hcall
  have hall : ∀ P : RequestCall → Prop, (∀ c ∈ s.requests, P c) → P call' →
      ∀ c ∈ s.requests.set n call', P c := by
    intro P hold hnew c hc
    rcases List.mem_or_eq_of_mem_set hc with hc | rfl
    · exact hold c hc
    · exact hnew
  constructor
  case orderly => exact hI.orderly
  case traced => exact hI.traced
  case computed => exact hI.computed
  case replies => exact hI.replies
  case tuned =>
    refine hall _ hI.tuned ?_
    rw [hsame.subscription, hsame.inbox]
    exact hI.tuned call hmem
  case plain =>
    refine hall _ hI.plain ?_
    rw [hsame.req]
    exact hI.plain call hmem
  case inboxes =>
    obtain ⟨hlt, rfl⟩ := List.getElem?_eq_some_iff.mp hcall
    show ((s.requests.set n call').map (·.inbox)).Nodup
    have hlt' : n < (s.requests.map (·.inbox)).length := by rwa [List.length_map]
    have hself : call'.inbox = (s.requests.map (·.inbox))[n] := by
      rw [List.getElem_map, hsame.inbox]
    rw [List.map_set, hself, List.set_getElem_self]
    exact hI.inboxes
  case answered =>
    refine hall _ hI.answered ?_
    intro response hresponse
    rw [hsame.inbox]
    rcases hgot response hresponse with hold | hnew
    · exact hI.answered call hmem response hold
    · exact hnew

theorem Inv.setRequest (hI : s.Inv) {n : Nat} {call call' : RequestCall}
    (hcall : s.requests[n]? = some call) (hsame : call.Same call') (hsent : call'.call = call.call)
    (hphase : call'.phase = .subscribed → call.phase = .subscribed)
    (hgot : ∀ response, call'.Got response → call.Got response ∨ s.Answers call.inbox response) :
    Inv (s.setRequest n call') := by
  have hmem := List.mem_of_getElem? hcall
  have hlt := (List.getElem?_eq_some_iff.mp hcall).1
  refine ⟨hI.toCore.setRequest hcall hsame hgot, ?_, ?_, ?_⟩
  · intro c hc hfirst
    rcases List.mem_or_eq_of_mem_set hc with hc | rfl
    · exact hI.unsent c hc hfirst
    · rw [hsent]
      exact hI.unsent call hmem (hphase hfirst)
  · intro c hc m hm
    rcases List.mem_or_eq_of_mem_set hc with hc | rfl
    · exact hI.sent c hc m hm
    · obtain ⟨eventId, timestamp, hevent⟩ := hI.sent call hmem m (hsent ▸ hm)
      refine ⟨eventId, timestamp, ?_⟩
      unfold RequestCall.envelope at hevent ⊢
      rwa [hsame.req, hsame.request, hsame.inbox]
  · intro m envelope henvelope inbox hasks
    obtain ⟨c, hc, hinbox, hm⟩ := hI.asked m envelope henvelope inbox hasks
    obtain ⟨k, hk⟩ := List.mem_iff_getElem?.mp hc
    by_cases hkn : k = n
    · subst hkn
      cases hcall.symm.trans hk
      exact ⟨call', List.mem_set hlt _, hsame.inbox.trans hinbox, hsent.trans hm⟩
    · refine ⟨c, List.mem_of_getElem? (i := k) ?_, hinbox, hm⟩
      exact (List.getElem?_set_ne fun h => hkn h.symm).trans hk

/-- A responder has computed a response to an event of the bus. -/
theorem Inv.record (hI : s.Inv) {c : Computed} {T : EventType} (hnames : s.bus.Names c.event)
    (hget : c.event.envelope.getEvent T = .ok c.request) :
    Inv { s with computed := s.computed ++ [c] } where
  orderly := hI.orderly
  traced := hI.traced
  tuned := hI.tuned
  plain := hI.plain
  inboxes := hI.inboxes
  computed c' hc' := by
    rcases List.mem_append.mp hc' with hold | hnew
    · exact hI.computed c' hold
    · rw [List.mem_singleton.mp hnew]
      exact ⟨hnames, T, hget⟩
  replies envelope henvelope inbox htopic := by
    obtain ⟨response, hanswer, hvalue⟩ := hI.replies envelope henvelope inbox htopic
    exact ⟨response, hanswer.append c, hvalue⟩
  answered call hcall response hgot := (hI.answered call hcall response hgot).append c
  unsent := hI.unsent
  sent := hI.sent
  asked := hI.asked

/-- What a publish call does to the bus. -/
theorem published_publish (bus : MemoryBus) (envelope : EventEnvelope) (nonBlocking : Bool) :
    (bus.publish envelope nonBlocking).published = bus.published ++ [envelope] :=
  List.map_append

/-- An event is published that goes to no inbox, or is a reply that the inbox waits for. -/
theorem Core.publish (hI : s.Core) {envelope : EventEnvelope} {nonBlocking : Bool}
    (htopic : ∀ inbox, targetTopic envelope = inboxTopic inbox →
      ∃ response, s.Answers inbox response ∧
        ∀ (T : EventType) value, envelope.getEvent T = .ok value → value = response) :
    Core { s with bus := s.bus.publish envelope nonBlocking } := by
  have hstep : MemoryBus.step {} s.bus (.publisher (.publish envelope nonBlocking))
      = some (s.bus.publish envelope nonBlocking) := rfl
  constructor
  case orderly => exact hI.orderly.step hstep
  case traced => exact hI.traced.step hstep
  case tuned => exact fun call hcall => (hI.tuned call hcall).step hI.orderly.registered hstep
  case plain => exact hI.plain
  case inboxes => exact hI.inboxes
  case computed => exact fun c hc => ⟨(hI.computed c hc).1.step hstep, (hI.computed c hc).2⟩
  case replies =>
    intro e he inbox htarget
    rw [published_publish] at he
    rcases List.mem_append.mp he with hold | hnew
    · exact hI.replies e hold inbox htarget
    · rw [List.mem_singleton.mp hnew] at htarget ⊢
      exact htopic inbox htarget
  case answered => exact hI.answered

/-- The events of a list with one more at its end. -/
theorem getElem?_published_publish {bus : MemoryBus} {envelope e : EventEnvelope}
    {nonBlocking : Bool} {n : Nat}
    (h : (bus.publish envelope nonBlocking).published[n]? = some e) :
    bus.published[n]? = some e ∨ (n = bus.published.length ∧ e = envelope) := by
  rw [published_publish, List.getElem?_append] at h
  split at h
  · exact .inl h
  · rename_i hlt
    obtain ⟨hlast, hget⟩ := List.getElem?_eq_some_iff.mp h
    rw [List.length_singleton] at hlast
    refine .inr ⟨by omega, ?_⟩
    rw [← hget, List.getElem_singleton]

theorem sent_publish {bus : MemoryBus} {envelope e : EventEnvelope} {nonBlocking : Bool} {n : Nat}
    (h : bus.published[n]? = some e) :
    (bus.publish envelope nonBlocking).published[n]? = some e := by
  rw [published_publish, List.getElem?_append_left (List.getElem?_eq_some_iff.mp h).1]
  exact h

/-- An event is published that asks for no reply to an inbox. -/
theorem Inv.publish (hI : s.Inv) {envelope : EventEnvelope} {nonBlocking : Bool}
    (htopic : ∀ inbox, targetTopic envelope = inboxTopic inbox →
      ∃ response, s.Answers inbox response ∧
        ∀ (T : EventType) value, envelope.getEvent T = .ok value → value = response)
    (hasks : ∀ inbox, envelope.metadata.replyTo ≠ some (inboxTopic inbox)) :
    Inv { s with bus := s.bus.publish envelope nonBlocking } := by
  refine ⟨hI.toCore.publish htopic, hI.unsent, ?_, ?_⟩
  · intro call hcall n hn
    obtain ⟨eventId, timestamp, hsent⟩ := hI.sent call hcall n hn
    exact ⟨eventId, timestamp, sent_publish hsent⟩
  · intro n e he inbox hreply
    rcases getElem?_published_publish he with hold | ⟨-, rfl⟩
    · exact hI.asked n e hold inbox hreply
    · exact absurd hreply (hasks inbox)

/-- A new inbox. -/
theorem Inv.request (hI : s.Inv) {inbox subscription : Uuid} {req res : EventType}
    {event : Bytes} (hplain : isInboxTopic req.eventType = false)
    (hnew : ∀ call ∈ s.requests, call.inbox ≠ inbox)
    (h : s.request config inbox subscription req res event = some s') : s'.Inv := by
  unfold RpcBus.request at h
  split at h
  · cases h
    exact hI
  · obtain ⟨bus, hbus, rfl⟩ := Option.map_eq_some_iff.mp h
    have hkept := hI.keep (MemoryBus.keeps_subscribe hbus)
    have htopic : (inboxEntry inbox subscription res).topic = some (inboxTopic inbox) := rfl
    have htuned := MemoryBus.tuned_subscribe hI.orderly htopic hbus
    have hall : ∀ P : RequestCall → Prop, (∀ c ∈ s.requests, P c) →
        P ⟨inbox, subscription, req, res, event, none, true, none, .subscribed⟩ →
        ∀ c ∈ s.requests ++ [⟨inbox, subscription, req, res, event, none, true, none, .subscribed⟩],
          P c := by
      intro P hold hlast c hc
      rcases List.mem_append.mp hc with hc | hc
      · exact hold c hc
      · rwa [List.mem_singleton.mp hc]
    constructor
    case toCore =>
      constructor
      case orderly => exact hkept.orderly
      case traced => exact hkept.traced
      case tuned => exact hall _ hkept.tuned htuned
      case plain => exact hall _ hkept.plain hplain
      case inboxes =>
        rw [List.map_append, List.nodup_append]
        refine ⟨hI.inboxes, List.nodup_singleton _, fun i hi j hj => ?_⟩
        obtain ⟨call, hcall, rfl⟩ := List.mem_map.mp hi
        rw [List.mem_singleton.mp hj]
        exact hnew call hcall
      case computed => exact hkept.computed
      case replies => exact hkept.replies
      case answered =>
        refine hall _ hkept.answered fun response hgot => ?_
        rcases hgot with hgot | hgot <;> cases hgot
    case unsent => exact hall _ hkept.unsent fun _ => rfl
    case sent => exact hall _ hkept.sent fun n hn => by cases hn
    case asked =>
      intro n envelope henvelope i hasks
      obtain ⟨call, hcall, hsent⟩ := hkept.asked n envelope henvelope i hasks
      exact ⟨call, List.mem_append_left _ hcall, hsent⟩

/-- A request is published, and asks for the replies to its inbox. -/
theorem Inv.publishRequest (hI : s.Inv) {n : Nat} {eventId : Uuid} {timestamp : DateTime}
    (h : s.publishRequest n eventId timestamp = some s') : s'.Inv := by
  unfold RpcBus.publishRequest at h
  split at h
  · rename_i call hcall
    split at h
    · rename_i hphase
      cases h
      have hmem := List.mem_of_getElem? hcall
      have hlt := (List.getElem?_eq_some_iff.mp hcall).1
      have hlength : s.bus.published.length = s.bus.calls.length := List.length_map _
      have hcore : Core { s with
          bus := s.bus.publish (call.envelope eventId timestamp) false } := by
        refine hI.toCore.publish fun inbox htopic => ?_
        exact absurd htopic (ne_inboxTopic (hI.plain call hmem) inbox)
      refine ⟨hcore.setRequest hcall ⟨rfl, rfl, rfl, rfl⟩ ?_, ?_, ?_, ?_⟩
      · rintro response (hslot | hresponse)
        · exact .inl (.inl hslot)
        · cases hresponse
      · intro c hc hfirst
        rcases List.mem_or_eq_of_mem_set hc with hc | rfl
        · exact hI.unsent c hc hfirst
        · cases hfirst
      · intro c hc m hm
        rcases List.mem_or_eq_of_mem_set hc with hc | rfl
        · obtain ⟨eventId', timestamp', hsent⟩ := hI.sent c hc m hm
          exact ⟨eventId', timestamp', sent_publish hsent⟩
        · cases hm
          refine ⟨eventId, timestamp, ?_⟩
          show (s.bus.publish _ false).published[s.bus.calls.length]? = _
          rw [published_publish, ← hlength, List.getElem?_concat_length]
          rfl
      · intro m e he inbox hasks
        rcases getElem?_published_publish he with hold | ⟨rfl, rfl⟩
        · obtain ⟨c, hc, hinbox, hm⟩ := hI.asked m e hold inbox hasks
          obtain ⟨k, hk⟩ := List.mem_iff_getElem?.mp hc
          -- this call had published nothing
          have hkn : n ≠ k := by
            rintro rfl
            cases hcall.symm.trans hk
            rw [hI.unsent call hmem hphase] at hm
            cases hm
          refine ⟨c, List.mem_of_getElem? (i := k) ?_, hinbox, hm⟩
          exact (List.getElem?_set_ne hkn).trans hk
        · have hinbox : call.inbox = inbox := inboxTopic_injective (Option.some.inj hasks)
          exact ⟨_, List.mem_set hlt _, hinbox, congrArg some hlength.symm⟩
    · cases h
  · cases h

/-- **What the handler of an inbox is called with is an answer.** -/
theorem Core.answers_of_handling (hI : s.Core) {call : RequestCall} (hcall : call ∈ s.requests)
    {event : ArcEnvelope} (hhandling : s.bus.handling call.subscription = some event)
    {T : EventType} {response : Bytes} (hget : event.envelope.getEvent T = .ok response) :
    s.Answers call.inbox response := by
  obtain ⟨task, htask, hheld⟩ := MemoryBus.held_of_handling hhandling
  have hnames : s.bus.Names event := hI.traced.held _ task htask event hheld
  have htopic : targetTopic event.envelope = inboxTopic call.inbox :=
    topicMatches_inboxTopic.mp ((hI.tuned call hcall).held task htask event hheld)
  obtain ⟨answer, hanswers, hvalue⟩ :=
    hI.replies event.envelope (List.mem_of_getElem? hnames) call.inbox htopic
  rw [hvalue T response hget]
  exact hanswers

/-! ## The steps -/

theorem Inv.stepBus (hI : s.Inv) {a : MemoryBus.Action} (hprovided : s.Provided (.bus a))
    (hasks : AsksForItself (.bus a)) (h : s.stepBus config a = some s') : s'.Inv := by
  unfold RpcBus.stepBus at h
  split at h
  · obtain ⟨bus, hbus, rfl⟩ := Option.map_eq_some_iff.mp h
    by_cases hquiet : a.publishes = []
    · exact hI.keep (MemoryBus.keeps_of_step config a hbus hquiet)
    · cases a with
      | publisher b =>
        cases b with
        | publish envelope nonBlocking =>
          cases hbus
          refine hI.publish (fun inbox htopic => ?_) fun inbox hreply => ?_
          · exact absurd htopic (ne_inboxTopic hprovided inbox)
          · exact ne_inboxTopic (hasks _ hreply) inbox rfl
        | _ => exact absurd rfl hquiet
      | _ => exact absurd rfl hquiet
  · cases h

/-- A request that goes on with the oneshot it has, and has not its result yet, or takes it
    from the oneshot. -/
theorem Inv.setPhase (hI : s.Inv) {n : Nat} {call : RequestCall} {phase : RequestPhase}
    (hcall : s.requests[n]? = some call) (hphase : phase ≠ .subscribed)
    (hresponse : ∀ response, phase.response = some (.ok response) → call.Got response) :
    Inv (s.setRequest n { call with phase := phase }) := by
  refine hI.setRequest hcall ⟨rfl, rfl, rfl, rfl⟩ rfl (fun h => absurd h hphase) ?_
  rintro response (hslot | hresult)
  · exact .inl (.inl hslot)
  · exact .inl (hresponse response hresult)

theorem Inv.requested (hI : s.Inv) {n : Nat} (h : s.requested n = some s') : s'.Inv := by
  unfold RpcBus.requested at h
  split at h
  · rename_i call hcall
    split at h
    · split at h
      · cases h
        exact hI.setPhase hcall (by simp) fun _ hr => by cases hr
      · cases h
        exact (hI.keep (MemoryBus.keeps_dropHandle {} call.subscription)).setPhase hcall (by simp)
          fun _ hr => by cases hr
      · cases h
    · cases h
  · cases h

theorem Inv.receive (hI : s.Inv) {n : Nat} (h : s.receive n = some s') : s'.Inv := by
  unfold RpcBus.receive at h
  split at h
  · rename_i call hcall
    split at h
    · rename_i response hphase hslot
      cases h
      refine hI.setPhase hcall (by simp) fun r hr => ?_
      cases hr
      exact .inl hslot
    · split at h <;> cases h
      exact hI.setPhase hcall (by simp) fun _ hr => by cases hr
    · cases h
  · cases h

theorem Inv.timeout (hI : s.Inv) {n : Nat} (h : s.timeout n = some s') : s'.Inv := by
  unfold RpcBus.timeout at h
  split at h
  · rename_i call hcall
    split at h
    · cases h
      exact hI.setPhase hcall (by simp) fun _ hr => by cases hr
    · cases h
  · cases h

theorem Inv.close (hI : s.Inv) {n : Nat} (h : s.close n = some s') : s'.Inv := by
  unfold RpcBus.close at h
  split at h
  · rename_i call hcall
    split at h
    · rename_i response hphase
      cases h
      have hkeeps := (MemoryBus.keeps_unsubscribe {} call.subscription (s := s.bus)).trans
        (MemoryBus.keeps_dropHandle {} call.subscription)
      refine (hI.keep hkeeps).setPhase hcall (by simp) fun r hr => ?_
      -- it returns what it had
      exact .inr (by rw [hphase]; exact hr)
    · cases h
  · cases h

theorem Inv.drop (hI : s.Inv) {n : Nat} (h : s.drop n = some s') : s'.Inv := by
  unfold RpcBus.drop at h
  split at h
  · rename_i call hcall
    split at h
    · obtain ⟨bus, hbus, rfl⟩ := Option.map_eq_some_iff.mp h
      have hkeeps := (MemoryBus.keeps_dropCall {} hbus).trans
        (MemoryBus.keeps_dropHandle {} call.subscription)
      exact (hI.keep hkeeps).setPhase hcall (by simp) fun _ hr => by cases hr
    · cases h
      exact (hI.keep (MemoryBus.keeps_dropHandle {} call.subscription)).setPhase hcall (by simp)
        fun _ hr => by cases hr
    · cases h
  · cases h

theorem Inv.deliver (hI : s.Inv) {n : Nat} (h : s.deliver config n = some s') : s'.Inv := by
  unfold RpcBus.deliver at h
  split at h
  · rename_i call hcall
    split at h
    · rename_i event hhandling
      split at h
      · rename_i response hget
        obtain ⟨bus, hbus, rfl⟩ := Option.map_eq_some_iff.mp h
        have hanswers := hI.answers_of_handling (List.mem_of_getElem? hcall) hhandling hget
        refine (hI.keep (MemoryBus.keeps_stepHandler hbus)).setRequest hcall ?_ ?_ ?_ ?_
        · split <;> exact ⟨rfl, rfl, rfl, rfl⟩
        · split <;> rfl
        · split <;> exact id
        · intro r hgot
          split at hgot
          · rcases hgot with hslot | hresult
            · cases hslot
              exact .inr hanswers
            · exact .inl (.inr hresult)
          · exact .inl hgot
      · obtain ⟨bus, hbus, rfl⟩ := Option.map_eq_some_iff.mp h
        exact hI.keep (MemoryBus.keeps_stepHandler hbus)
    · cases h
  · cases h

theorem called_eq_some {n : Nat} {responder : Responder} {event : ArcEnvelope}
    (h : s.called n = some (responder, event)) :
    s.bus.handling responder.subscription = some event := by
  unfold called at h
  split at h
  · split at h
    · obtain ⟨event', hevent, heq⟩ := Option.map_eq_some_iff.mp h
      cases heq
      exact hevent
    · cases h
  · cases h

theorem Inv.compute (hI : s.Inv) {n : Nat} {response : Bytes} {eventId : Uuid}
    {timestamp : DateTime} (h : s.compute config n response eventId timestamp = some s') :
    s'.Inv := by
  unfold RpcBus.compute at h
  split at h
  · rename_i responder event hcalled
    split at h
    · rename_i request hget
      obtain ⟨task, htask, hheld⟩ := MemoryBus.held_of_handling (called_eq_some hcalled)
      have hrecorded := hI.record (c := ⟨responder.subscription, event, request, response⟩)
        (hI.traced.held _ task htask event hheld) hget
      split at h
      · rename_i replyTo hreplyTo
        cases h
        refine Inv.setResponders (Inv.publish hrecorded (fun inbox htopic => ?_) ?_) _
        · -- the reply goes to the topic that the event asks for
          obtain rfl : replyTo = inboxTopic inbox := htopic
          refine ⟨response, ⟨_, List.mem_append_right _ (List.mem_singleton_self _), hreplyTo, rfl⟩,
            fun T value hvalue => ?_⟩
          exact (EventEnvelope.getEvent_envelope.mp hvalue).2.symm
        · intro inbox hasks
          cases hasks
      · obtain ⟨bus, hbus, rfl⟩ := Option.map_eq_some_iff.mp h
        exact hrecorded.keep (MemoryBus.keeps_stepHandler hbus)
    · cases h
  · cases h

theorem Inv.replied (hI : s.Inv) {n : Nat} (h : s.replied config n = some s') : s'.Inv := by
  unfold RpcBus.replied at h
  split at h
  · split at h
    · obtain ⟨bus, hbus, rfl⟩ := Option.map_eq_some_iff.mp h
      exact (hI.keep (MemoryBus.keeps_stepHandler hbus)).setResponders _
    · cases h
  · cases h

theorem Inv.cancelReply (hI : s.Inv) {n : Nat} (h : s.cancelReply config n = some s') :
    s'.Inv := by
  unfold RpcBus.cancelReply at h
  split at h
  · split at h
    · obtain ⟨bus, hbus, rfl⟩ := Option.map_eq_some_iff.mp h
      obtain ⟨bus₁, hdrop, hcancelled⟩ := Option.bind_eq_some_iff.mp hbus
      have hkeeps := (MemoryBus.keeps_dropCall {} hdrop).trans
        (MemoryBus.keeps_stepHandler hcancelled)
      exact (hI.keep hkeeps).setResponders _
    · cases h
  · cases h

/-- **One step.** -/
theorem Inv.step (hI : s.Inv) {a : RpcAction} (hprovided : s.Provided a) (hasks : AsksForItself a)
    (h : s.step config a = some s') : s'.Inv := by
  cases a with
  | bus a => exact hI.stepBus hprovided hasks h
  | request inbox subscription req res event => exact hI.request hprovided.1 hprovided.2 h
  | publishRequest n eventId timestamp => exact hI.publishRequest h
  | requested n => exact hI.requested h
  | receive n => exact hI.receive h
  | timeout n => exact hI.timeout h
  | close n => exact hI.close h
  | drop n => exact hI.drop h
  | deliver n => exact hI.deliver h
  | respond subscription req res =>
    simp only [RpcBus.step, respond] at h
    split at h
    · cases h
      exact hI
    · obtain ⟨bus, hbus, rfl⟩ := Option.map_eq_some_iff.mp h
      exact (hI.keep (MemoryBus.keeps_subscribe hbus)).setResponders _
  | refuse n =>
    simp only [RpcBus.step, refuse] at h
    split at h
    · split at h
      · cases h
      · obtain ⟨bus, hbus, rfl⟩ := Option.map_eq_some_iff.mp h
        exact hI.keep (MemoryBus.keeps_stepHandler hbus)
    · cases h
  | compute n response eventId timestamp => exact hI.compute h
  | replied n => exact hI.replied h
  | cancelReply n => exact hI.cancelReply h

/-- **Every run.** -/
theorem inv_exec {as : List RpcAction} (hexec : exec config (build config) as = some s)
    (hprovided : Transition.Along (step config) (fun s a => s.Provided a ∧ AsksForItself a)
      (build config) as) : s.Inv :=
  Transition.invariant_along (fun _ _ _ hI hC h => hI.step hC.1 hC.2 h) (inv_build config)
    hprovided hexec

/-- Two calls with one inbox are one call. -/
theorem Core.eq_of_inbox (hI : s.Core) {call call' : RequestCall} (hcall : call ∈ s.requests)
    (hcall' : call' ∈ s.requests) (h : call.inbox = call'.inbox) : call = call' :=
  List.inj_on_of_nodup_map hI.inboxes hcall hcall' h

/-- A response computed from the request's own event. -/
def AnswersOwn (s : RpcBus) (call : RequestCall) (response : Bytes) : Prop :=
  ∃ c ∈ s.computed, call.call = some c.event.addr ∧ c.request = call.request ∧
    c.response = response

instance (s : RpcBus) (call : RequestCall) (response : Bytes) :
    Decidable (s.AnswersOwn call response) :=
  List.decidableBEx (fun c : Computed => call.call = some c.event.addr ∧
    c.request = call.request ∧ c.response = response) s.computed

/-- What answers an inbox answers the request whose inbox it is. -/
theorem Inv.answersOwn (hI : s.Inv) {call : RequestCall} (hcall : call ∈ s.requests)
    {response : Bytes} (h : s.Answers call.inbox response) : s.AnswersOwn call response := by
  obtain ⟨c, hc, hasks, rfl⟩ := h
  obtain ⟨hnames, T, hget⟩ := hI.computed c hc
  obtain ⟨call', hcall', hinbox, hown⟩ := hI.asked _ _ hnames _ hasks
  obtain rfl := hI.eq_of_inbox hcall' hcall hinbox
  obtain ⟨eventId, timestamp, hsent⟩ := hI.sent call' hcall' _ hown
  refine ⟨c, hc, hown, ?_, rfl⟩
  -- the event is the request's
  have henvelope : c.event.envelope = call'.envelope eventId timestamp :=
    Option.some.inj (hnames.symm.trans hsent)
  rw [henvelope] at hget
  exact (EventEnvelope.getEvent_envelope.mp hget).2.symm

/-- **Replies are never crossed.** In every run in which only responders publish to
    `_INBOX` topics, only `request` asks for replies there, and the identifiers of inboxes
    are distinct, a request that returns a response returns one that a responder computed
    from this very request. -/
theorem request_returns_own_reply {as : List RpcAction}
    (hexec : exec config (build config) as = some s)
    (hprovided : Transition.Along (step config) (fun s a => s.Provided a ∧ AsksForItself a)
      (build config) as) {call : RequestCall} (hcall : call ∈ s.requests) {response : Bytes}
    (hreturned : call.phase = .returned (.ok response)) : s.AnswersOwn call response := by
  have hI := inv_exec hexec hprovided
  refine hI.answersOwn hcall (hI.answered call hcall response (.inr ?_))
  rw [hreturned]
  rfl

/-! ## Fetching users -/

/-- The requests, and the responses. -/
def fetchUser : EventType := ⟨1, "FetchUser", .ok, .ok⟩
def userFetched : EventType := ⟨2, "UserFetched", .ok, .ok⟩

/-- A publish call gets its event into the queue. -/
def publishes (call : Nat) : List RpcAction :=
  [.bus (.publisher (.acquire call)), .bus (.publisher (.dispatch call 0)),
    .bus (.publisher (.send call))]

/-- The worker sends the next event to these subscriptions. -/
def dispatches (ids : List Uuid) : List RpcAction :=
  [.bus (.worker .recv), .bus (.worker .select)] ++ ids.map (fun id => .bus (.worker (.push id))) ++
    [.bus (.worker .finish)]

/-- A responder, and a request whose event it is called with. -/
def firstRequest : List RpcAction :=
  [.respond 1 fetchUser userFetched, .request 100 2 fetchUser userFetched [7],
    .publishRequest 0 1000 0] ++ publishes 0 ++ [.requested 0] ++ dispatches [1] ++
    [.bus (.handler 1 .recv)]

/-- The first reply is published, dispatched to the inbox and returned. -/
def replies (responder call : Nat) : List RpcAction :=
  publishes call ++ [.replied responder] ++ dispatches [2] ++
    [.bus (.handler 2 .recv), .deliver 0, .receive 0, .close 0]

/-- Another request is made and dispatched before the first one is answered. -/
def twoRequests : List RpcAction :=
  firstRequest ++ [.request 101 3 fetchUser userFetched [8], .publishRequest 1 1001 0] ++
    publishes 1 ++ dispatches [1] ++ [.compute 0 [7, 7] 1002 0] ++ replies 0 2

/-- What the first request has returned. -/
def firstResponse (s : RpcBus) : Option (RequestCall × Bytes) :=
  match s.requests.head? with
  | some call =>
    match call.phase with
    | .returned (.ok response) => some (call, response)
    | _ => none
  | none => none

theorem firstResponse_eq_some {call : RequestCall} {response : Bytes}
    (h : s.firstResponse = some (call, response)) :
    call ∈ s.requests ∧ call.phase = .returned (.ok response) := by
  unfold firstResponse at h
  split at h
  · rename_i call' hcall
    split at h
    · rename_i hphase
      cases h
      exact ⟨List.mem_of_mem_head? hcall, hphase⟩
    · cases h
  · cases h

theorem request_returns_own_reply_twoRequests :
    ∃ s call response, exec {} (build {}) twoRequests = some s ∧
      s.firstResponse = some (call, response) ∧ s.AnswersOwn call response := by
  obtain ⟨⟨call, response⟩, hsome⟩ : ∃ r, (exec {} (build {}) twoRequests).bind firstResponse
      = some r := Option.isSome_iff_exists.mp (by decide +kernel)
  obtain ⟨s, hexec, hfirst⟩ := Option.bind_eq_some_iff.mp hsome
  obtain ⟨hcall, hreturned⟩ := firstResponse_eq_some hfirst
  exact ⟨s, call, response, hexec, hfirst,
    request_returns_own_reply hexec (by decide +kernel) hcall hreturned⟩

/-- While the first request is being answered, another event asks for replies to its
    inbox; a responder that has just been registered answers this one first. -/
def forwardedRequest : List RpcAction :=
  firstRequest ++ [.respond 3 fetchUser userFetched,
    .bus (.publisher (.publish (fetchUser.envelope [8]
      { eventId := 1001, timestamp := 0, replyTo := some (inboxTopic 100) }) false))] ++
    publishes 1 ++ dispatches [1, 3] ++
    [.bus (.handler 3 .recv), .compute 1 [8, 8] 1002 0] ++ replies 1 2

/-- Only responders publish to `_INBOX` topics, and yet the request returns the response
    to another event. -/
theorem not_answersOwn_forwardedRequest :
    Transition.Along (step {}) (fun s a => s.Provided a) (build {}) forwardedRequest ∧
      ∃ s call response, exec {} (build {}) forwardedRequest = some s ∧ call ∈ s.requests ∧
        call.phase = .returned (.ok response) ∧ ¬ s.AnswersOwn call response := by
  refine ⟨by decide +kernel, ?_⟩
  have hcrossed : ((exec {} (build {}) forwardedRequest).bind fun s =>
      s.firstResponse.map fun r => decide (s.AnswersOwn r.1 r.2)) = some false := by
    decide +kernel
  obtain ⟨s, hexec, hs⟩ := Option.bind_eq_some_iff.mp hcrossed
  obtain ⟨⟨call, response⟩, hfirst, hnot⟩ := Option.map_eq_some_iff.mp hs
  obtain ⟨hcall, hreturned⟩ := firstResponse_eq_some hfirst
  exact ⟨s, call, response, hexec, hcall, hreturned, of_decide_eq_false hnot⟩

end RpcBus
end TokioEvents

/-
  TokioEvents.Bus.Rpc

  The request-reply pattern of an in-memory bus (`src/bus/mod.rs`): calls of
  `EventBus::request`, each with the inbox it subscribes and the oneshot that the handler
  of the inbox sends its reply to, and the responders made by `EventBus::respond`.

  Everything else that happens at the bus (other subscriptions and publishers, the worker,
  the handler tasks) are steps of the `MemoryBus`.  `computed` is not state of the program:
  it records what the responders have computed, for the statements about runs.
-/

import TokioEvents.Bus.System
import TokioEvents.Event.Typed
import TokioEvents.Registry.InboxTopic

namespace TokioEvents

/-- Where a call of `EventBus::request` is. -/
inductive RequestPhase where
  /-- Before `publish_with_metadata(request, metadata)`. -/
  | subscribed
  /-- In it. -/
  | publishing (call : Nat)
  /-- In `timeout(30 s, rx)`. -/
  | awaiting
  /-- Before `unsubscribe(handle)`. -/
  | closing (response : Except Error Bytes)
  | returned (response : Except Error Bytes)
  /-- The future is dropped. -/
  | dropped

/-- What the call has got, or has returned. -/
def RequestPhase.response : RequestPhase → Option (Except Error Bytes)
  | .closing response => some response
  | .returned response => some response
  | _ => none

/-- A call of `EventBus::request::<Req, Res>`. -/
structure RequestCall where
  /-- The identifier in the inbox topic. -/
  inbox : Uuid
  /-- The subscription to the inbox. -/
  subscription : Uuid
  req : EventType
  res : EventType
  request : Bytes
  /-- The publish call of the request. -/
  call : Option Nat
  /-- `tx` has its sender. -/
  sender : Bool
  /-- What was sent to `rx`. -/
  slot : Option Bytes
  phase : RequestPhase

/-- A `ResponderHandler<Req, Res>`. -/
structure Responder where
  subscription : Uuid
  req : EventType
  res : EventType
  /-- The publish call of the reply that the handler is in. -/
  replying : Option Nat

/-- A responder's handler has computed a response. -/
structure Computed where
  responder : Uuid
  event : ArcEnvelope
  request : Bytes
  response : Bytes

/-- An in-memory bus with its requests and responders. -/
structure RpcBus where
  bus : MemoryBus
  requests : List RequestCall
  responders : List Responder
  computed : List Computed

/-- The steps. Requests and responders are named by their places. -/
inductive RpcAction where
  /-- A step of the bus that `permits` allows. -/
  | bus (a : MemoryBus.Action)
  /-- `request` is called; the identifiers are freshly generated. -/
  | request (inbox subscription : Uuid) (req res : EventType) (event : Bytes)
  /-- It publishes the request. -/
  | publishRequest (n : Nat) (eventId : Uuid) (timestamp : DateTime)
  /-- The publish call has returned. -/
  | requested (n : Nat)
  /-- `rx` is ready. -/
  | receive (n : Nat)
  /-- The 30 seconds are over. -/
  | timeout (n : Nat)
  /-- `unsubscribe(handle)`, and the call returns. -/
  | close (n : Nat)
  /-- The caller drops the future. -/
  | drop (n : Nat)
  /-- The handler of the inbox handles its event. -/
  | deliver (n : Nat)
  /-- `respond` is called. -/
  | respond (subscription : Uuid) (req res : EventType)
  /-- The event is no request. -/
  | refuse (n : Nat)
  /-- The responder's handler returns its response; the rest is for the reply. -/
  | compute (n : Nat) (response : Bytes) (eventId : Uuid) (timestamp : DateTime)
  /-- The publish call of the reply has returned. -/
  | replied (n : Nat)
  /-- The responder's task is aborted while it publishes its reply. -/
  | cancelReply (n : Nat)

/-- The event of a request. -/
def RequestCall.envelope (call : RequestCall) (eventId : Uuid) (timestamp : DateTime) :
    EventEnvelope :=
  call.req.envelope call.request
    { eventId := eventId, timestamp := timestamp, replyTo := some (inboxTopic call.inbox) }

/-- A responder that may take this outcome of its handler from outside: its own code
    panics before it has a response. -/
def Responder.allows (responder : Responder) : Outcome → Bool
  | .panic => responder.replying.isNone
  | _ => false

/-- The reply to an event. -/
def Responder.reply (responder : Responder) (event : EventEnvelope) (replyTo : String)
    (response : Bytes) (eventId : Uuid) (timestamp : DateTime) : EventEnvelope :=
  responder.res.envelope response
    { eventId := eventId
      timestamp := timestamp
      topic := some replyTo
      correlationId := event.metadata.correlationId.or (some event.eventId)
      causationId := some event.eventId }

/-- The outcome of a handler that awaits the publish call with `?` at its end. -/
def PublishResult.outcome : PublishResult → Outcome
  | .ok _ => .ok
  | .error _ => .error
  | .tryError _ => .error

namespace MemoryBus

/-- The event that the handler of a subscription is called with. -/
def handling (s : MemoryBus) (id : Uuid) : Option ArcEnvelope :=
  match s.tasks[id]? with
  | some task =>
    match task.phase with
    | .handling event _ => some event
    | _ => none
  | none => none

/-- The handler task has ended, and has dropped its handler. -/
def taskEnded (s : MemoryBus) (id : Uuid) : Bool :=
  match s.tasks[id]? with
  | some task =>
    match task.phase with
    | .ended => true
    | _ => false
  | none => true

/-- The future of a publish call is dropped with the future that awaits it. -/
def dropCall (s : MemoryBus) (n : Nat) : Option MemoryBus :=
  match s.calls[n]? with
  | some call =>
    match call.phase with
    | .checking => none
    | .returned _ => some s
    | _ => s.cancel n
  | none => none

/-- What a publish call has returned. -/
def resultOf (s : MemoryBus) (n : Nat) : Option PublishResult :=
  match s.calls[n]? with
  | some call =>
    match call.phase with
    | .returned result => some result
    | _ => none
  | none => none

/-- The last handle of a subscription is dropped. -/
def dropHandle (s : MemoryBus) (id : Uuid) : MemoryBus := (s.signal id).getD s

/-- Each of the two drops is a step of the bus, or nothing happens. -/
theorem dropHandle_cases (config : EventBusConfig) (s : MemoryBus) (id : Uuid) :
    s.dropHandle id = s ∨ step config s (.subscriber (.signal id)) = some (s.dropHandle id) := by
  unfold dropHandle
  cases h : s.signal id with
  | none => exact .inl rfl
  | some s' => exact .inr h

theorem dropCall_cases (config : EventBusConfig) {s s' : MemoryBus} {n : Nat}
    (h : s.dropCall n = some s') : s' = s ∨ step config s (.publisher (.cancel n)) = some s' := by
  unfold dropCall at h
  split at h
  · split at h
    · cases h
    · cases h
      exact .inl rfl
    · exact .inr h
  · cases h

end MemoryBus

namespace RpcBus

/-- `EventBusBuilder::build`. -/
def build (config : EventBusConfig) : RpcBus := ⟨.build config, [], [], []⟩

/-- The subscription is the inbox of a request. -/
def isInbox (s : RpcBus) (id : Uuid) : Bool :=
  s.requests.any fun request => request.subscription == id

/-- The publish call is made by a request or by a responder. -/
def owns (s : RpcBus) (call : Nat) : Bool :=
  s.requests.any (fun request => request.call == some call) ||
    s.responders.any fun responder => responder.replying == some call

/-- The steps of the bus that are not steps of a request or of a responder. -/
def permits (s : RpcBus) : MemoryBus.Action → Bool
  | .handler id (.outcome outcome) =>
    !s.isInbox id &&
      s.responders.all fun responder => responder.subscription != id || responder.allows outcome
  | .handler id .cancelled =>
    s.responders.all fun responder => responder.subscription != id || responder.replying.isNone
  | .publisher (.cancel call) => !s.owns call
  | .subscriber (.signal id) => !s.isInbox id
  | .subscriber (.unsubscribe id) => !s.isInbox id
  | _ => true

/-- A step of the bus. -/
def stepBus (config : EventBusConfig) (s : RpcBus) (a : MemoryBus.Action) : Option RpcBus :=
  if s.permits a then (s.bus.step config a).map fun bus => { s with bus := bus } else none

/-- A request goes on. -/
def setRequest (s : RpcBus) (n : Nat) (request : RequestCall) : RpcBus :=
  { s with requests := s.requests.set n request }

/-- A responder goes on. -/
def setReplying (s : RpcBus) (n : Nat) (responder : Responder) (replying : Option Nat) : RpcBus :=
  { s with responders := s.responders.set n { responder with replying := replying } }

/-! ## `request` -/

/-- `subscribe_topic(&inbox_topic, ..)`, as it is registered. -/
def inboxEntry (inbox subscription : Uuid) (res : EventType) : SubscriptionEntry :=
  { id := subscription
    name := some ("TopicHandler<" ++ res.eventType ++ ">::" ++ inboxTopic inbox)
    topic := some (inboxTopic inbox) }

/-- The first check, and the subscription to the inbox. -/
def request (config : EventBusConfig) (s : RpcBus) (inbox subscription : Uuid)
    (req res : EventType) (event : Bytes) : Option RpcBus :=
  -- `Err(ShuttingDown)`
  if s.bus.shutdownState ≠ .running then some s
  else
    (s.bus.subscribe config res.typeId res.eventType (inboxEntry inbox subscription res)).map
      fun bus =>
        let call := ⟨inbox, subscription, req, res, event, none, true, none, .subscribed⟩
        { s with bus := bus, requests := s.requests ++ [call] }

/-- Publish the request with `reply_to`. -/
def publishRequest (s : RpcBus) (n : Nat) (eventId : Uuid) (timestamp : DateTime) :
    Option RpcBus :=
  match s.requests[n]? with
  | some call =>
    match call.phase with
    | .subscribed =>
      let m := s.bus.calls.length
      some ({ s with bus := s.bus.publish (call.envelope eventId timestamp) false }.setRequest n
        { call with call := some m, phase := .publishing m })
    | _ => none
  | none => none

/-- `publish_with_metadata` returns; an error drops the handle. -/
def requested (s : RpcBus) (n : Nat) : Option RpcBus :=
  match s.requests[n]? with
  | some call =>
    match call.phase with
    | .publishing m =>
      match s.bus.resultOf m with
      | some (.ok _) => some (s.setRequest n { call with phase := .awaiting })
      | some (.error e) =>
        some ({ s with bus := s.bus.dropHandle call.subscription }.setRequest n
          { call with phase := .returned (.error e) })
      | _ => none
    | _ => none
  | none => none

/-- `rx` yields a response, or its sender is dropped. -/
def receive (s : RpcBus) (n : Nat) : Option RpcBus :=
  match s.requests[n]? with
  | some call =>
    match call.phase, call.slot with
    | .awaiting, some response =>
      some (s.setRequest n { call with phase := .closing (.ok response) })
    | .awaiting, none =>
      if s.bus.taskEnded call.subscription then
        some (s.setRequest n { call with
          phase := .closing (.error (.internal "Responder dropped the channel without replying")) })
      else none
    | _, _ => none
  | none => none

/-- The timeout strikes; a response that has arrived wins. -/
def timeout (s : RpcBus) (n : Nat) : Option RpcBus :=
  match s.requests[n]? with
  | some call =>
    match call.phase, call.slot with
    | .awaiting, none =>
      some (s.setRequest n { call with
        phase := .closing (.error (.internal "Request timed out after 30 seconds")) })
    | _, _ => none
  | none => none

/-- Cleanup the ephemeral subscription. -/
def close (s : RpcBus) (n : Nat) : Option RpcBus :=
  match s.requests[n]? with
  | some call =>
    match call.phase with
    | .closing response =>
      let bus := (s.bus.unsubscribe call.subscription).dropHandle call.subscription
      some ({ s with bus := bus }.setRequest n { call with phase := .returned response })
    | _ => none
  | none => none

/-- The future of `request` is dropped at one of its two waits. -/
def drop (s : RpcBus) (n : Nat) : Option RpcBus :=
  match s.requests[n]? with
  | some call =>
    match call.phase with
    | .publishing m =>
      (s.bus.dropCall m).map fun bus =>
        { s with bus := bus.dropHandle call.subscription }.setRequest n
          { call with phase := .dropped }
    | .awaiting =>
      some ({ s with bus := s.bus.dropHandle call.subscription }.setRequest n
        { call with phase := .dropped })
    | _ => none
  | none => none

/-- The handler of the inbox: the first response is sent to `rx`. -/
def deliver (config : EventBusConfig) (s : RpcBus) (n : Nat) : Option RpcBus :=
  match s.requests[n]? with
  | some call =>
    match s.bus.handling call.subscription with
    | some event =>
      match event.envelope.getEvent call.res with
      | .ok response =>
        (s.bus.stepHandler config call.subscription (.outcome .ok)).map fun bus =>
          { s with bus := bus }.setRequest n
            (if call.sender then { call with sender := false, slot := some response } else call)
      | .error _ =>
        (s.bus.stepHandler config call.subscription (.outcome .error)).map fun bus =>
          { s with bus := bus }
    | none => none
  | none => none

/-! ## `respond` -/

/-- `subscribe_typed::<Req, _>(responder, name, None)`, as it is registered. -/
def responderEntry (subscription : Uuid) (req : EventType) : SubscriptionEntry :=
  { id := subscription, name := some ("RPCResponder<" ++ req.eventType ++ ">") }

/-- `respond`. -/
def respond (config : EventBusConfig) (s : RpcBus) (subscription : Uuid) (req res : EventType) :
    Option RpcBus :=
  if s.bus.shutdownState ≠ .running then some s
  else
    (s.bus.subscribe config req.typeId req.eventType (responderEntry subscription req)).map
      fun bus =>
        { s with bus := bus, responders := s.responders ++ [⟨subscription, req, res, none⟩] }

/-- A responder whose handler is called with an event, and is not publishing a reply. -/
def called (s : RpcBus) (n : Nat) : Option (Responder × ArcEnvelope) :=
  match s.responders[n]? with
  | some responder =>
    if responder.replying.isNone then
      (s.bus.handling responder.subscription).map fun event => (responder, event)
    else none
  | none => none

/-- `envelope.get_event::<Req>()?` fails. -/
def refuse (config : EventBusConfig) (s : RpcBus) (n : Nat) : Option RpcBus :=
  match s.called n with
  | some (responder, event) =>
    match event.envelope.getEvent responder.req with
    | .ok _ => none
    | .error _ =>
      (s.bus.stepHandler config responder.subscription (.outcome .error)).map fun bus =>
        { s with bus := bus }
  | none => none

/-- `(self.handler)(req).await` is over, and the reply is published. -/
def compute (config : EventBusConfig) (s : RpcBus) (n : Nat) (response : Bytes) (eventId : Uuid)
    (timestamp : DateTime) : Option RpcBus :=
  match s.called n with
  | some (responder, event) =>
    match event.envelope.getEvent responder.req with
    | .ok request =>
      let computed := s.computed ++ [⟨responder.subscription, event, request, response⟩]
      match event.envelope.metadata.replyTo with
      | some replyTo =>
        let reply := responder.reply event.envelope replyTo response eventId timestamp
        some ({ s with bus := s.bus.publish reply false, computed := computed }.setReplying n
          responder (some s.bus.calls.length))
      -- Received RPC request without a reply_to topic!
      | none =>
        (s.bus.stepHandler config responder.subscription (.outcome .ok)).map fun bus =>
          { s with bus := bus, computed := computed }
    | .error _ => none
  | none => none

/-- `publish_with_metadata(response, metadata).await?` is over. -/
def replied (config : EventBusConfig) (s : RpcBus) (n : Nat) : Option RpcBus :=
  match s.responders[n]? with
  | some responder =>
    match responder.replying.bind s.bus.resultOf with
    | some result =>
      (s.bus.stepHandler config responder.subscription (.outcome result.outcome)).map
        fun bus => { s with bus := bus }.setReplying n responder none
    | _ => none
  | none => none

/-- An `abort` takes effect while the reply is being published. -/
def cancelReply (config : EventBusConfig) (s : RpcBus) (n : Nat) : Option RpcBus :=
  match s.responders[n]? with
  | some responder =>
    match responder.replying with
    | some m =>
      ((s.bus.dropCall m).bind fun bus =>
        bus.stepHandler config responder.subscription .cancelled).map
          fun bus => { s with bus := bus }.setReplying n responder none
    | none => none
  | none => none

/-- A step. -/
def step (config : EventBusConfig) (s : RpcBus) : RpcAction → Option RpcBus
  | .bus a => s.stepBus config a
  | .request inbox subscription req res event => s.request config inbox subscription req res event
  | .publishRequest n eventId timestamp => s.publishRequest n eventId timestamp
  | .requested n => s.requested n
  | .receive n => s.receive n
  | .timeout n => s.timeout n
  | .close n => s.close n
  | .drop n => s.drop n
  | .deliver n => s.deliver config n
  | .respond subscription req res => s.respond config subscription req res
  | .refuse n => s.refuse config n
  | .compute n response eventId timestamp => s.compute config n response eventId timestamp
  | .replied n => s.replied config n
  | .cancelReply n => s.cancelReply config n

/-- A run. -/
def exec (config : EventBusConfig) (s : RpcBus) (as : List RpcAction) : Option RpcBus :=
  Transition.exec (step config) s as

end RpcBus
end TokioEvents

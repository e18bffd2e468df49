/-
  TokioEvents.Bus.TraceContext

  Trees of events: from a root, by `EventEnvelope::chain` (`src/event/envelope.rs`) and by
  the replies of responders (`ResponderHandler::handle`, `src/bus/mod.rs`), each from any
  event that is already in the tree.

  A root without a correlation id keeps none: it is its own event id that the others carry.
-/

import TokioEvents.Bus.Rpc
import TokioEvents.Event.Chain

namespace TokioEvents

/-- What the responder publishes for an event that its handler answers, if it does. -/
def Responder.answer (responder : Responder) (event : EventEnvelope) (response : Bytes)
    (eventId : Uuid) (timestamp : DateTime) : Option EventEnvelope :=
  match event.getEvent responder.req with
  | .ok _ =>
    event.metadata.replyTo.map fun replyTo =>
      responder.reply event replyTo response eventId timestamp
  | .error _ => none

/-- How an event follows from another. -/
inductive Derivation where
  /-- `parent.chain(event)`, where `reply_to` may be set before it is published. -/
  | chain (T : EventType) (event : Bytes) (replyTo : Option String)
  /-- The responder handles `parent` with this response. -/
  | reply (responder : Responder) (response : Bytes)

/-- The event is made by `chain`. -/
def Derivation.IsChain : Derivation → Prop
  | .chain _ _ _ => True
  | .reply _ _ => False

/-- The event that follows, if there is one.  The id and the time are those
    `EventMetadata::new` draws. -/
def Derivation.derive (parent : EventEnvelope) (eventId : Uuid) (timestamp : DateTime) :
    Derivation → Option EventEnvelope
  | .chain T event replyTo =>
    let chained := parent.chain T event eventId timestamp
    some { chained with metadata := { chained.metadata with replyTo := replyTo } }
  | .reply responder response => responder.answer parent response eventId timestamp

/-- An event of a tree, and where it comes from: the place of its parent in the tree. -/
structure TraceNode where
  event : EventEnvelope
  origin : Option (Nat × Derivation)

/-- One more event. -/
structure Growth where
  parent : Nat
  derivation : Derivation
  eventId : Uuid
  timestamp : DateTime

/-- A tree that is a root. -/
def seed (root : EventEnvelope) : List TraceNode := [⟨root, none⟩]

/-- A tree grows by one event. -/
def grow (tree : List TraceNode) (g : Growth) : Option (List TraceNode) :=
  tree[g.parent]?.bind fun parent =>
    (g.derivation.derive parent.event g.eventId g.timestamp).map fun event =>
      tree ++ [⟨event, some (g.parent, g.derivation)⟩]

section Answer

variable {responder : Responder} {event reply : EventEnvelope} {response : Bytes} {eventId : Uuid}
  {timestamp : DateTime}

theorem Responder.answer_eq_some :
    responder.answer event response eventId timestamp = some reply ↔
      ∃ request replyTo, event.getEvent responder.req = .ok request ∧
        event.metadata.replyTo = some replyTo ∧
        reply = responder.reply event replyTo response eventId timestamp := by
  unfold Responder.answer
  cases event.getEvent responder.req with
  | ok request => simp [eq_comm]
  | error e => simp

/-- The answer is published when the handler is called with the event. -/
theorem RpcBus.compute_of_answer {config : EventBusConfig} {s : RpcBus} {n : Nat}
    {handled : ArcEnvelope} (hcalled : s.called n = some (responder, handled))
    (hanswer : responder.answer handled.envelope response eventId timestamp = some reply) :
    ∃ s', s.compute config n response eventId timestamp = some s' ∧
      s'.bus = s.bus.publish reply false := by
  obtain ⟨request, replyTo, hrequest, hreplyTo, rfl⟩ := Responder.answer_eq_some.mp hanswer
  unfold RpcBus.compute
  simp only [hcalled, hrequest, hreplyTo]
  exact ⟨_, rfl, rfl⟩

end Answer

section Derivation

variable {parent event : EventEnvelope} {d : Derivation} {eventId : Uuid} {timestamp : DateTime}

/-- Both ways carry the trace of the parent on. -/
theorem Derivation.correlationId_derive (h : d.derive parent eventId timestamp = some event) :
    event.metadata.correlationId = some parent.traceId := by
  cases d with
  | chain T bytes replyTo =>
    cases h
    exact parent.correlationId_or
  | reply responder response =>
    obtain ⟨request, replyTo, -, -, rfl⟩ := Responder.answer_eq_some.mp h
    exact parent.correlationId_or

/-- And name the parent as the cause. -/
theorem Derivation.causationId_derive (h : d.derive parent eventId timestamp = some event) :
    event.metadata.causationId = some parent.eventId := by
  cases d with
  | chain T bytes replyTo =>
    cases h
    rfl
  | reply responder response =>
    obtain ⟨request, replyTo, -, -, rfl⟩ := Responder.answer_eq_some.mp h
    rfl

/-- `chain` inherits the user and the session. -/
theorem Derivation.context_derive (h : d.derive parent eventId timestamp = some event)
    (hchain : d.IsChain) :
    event.metadata.userId = parent.metadata.userId ∧
      event.metadata.sessionId = parent.metadata.sessionId := by
  cases d with
  | chain T bytes replyTo =>
    cases h
    exact ⟨rfl, rfl⟩
  | reply responder response => exact hchain.elim

end Derivation

/-! ## The whole tree -/

/-- What holds of an event of a tree: it is the root, or it follows from an event before it,
    with the correlation id that the root hands down. -/
def TraceNode.InContext (root : EventEnvelope) (tree : List TraceNode) (i : Nat)
    (node : TraceNode) : Prop :=
  match node.origin with
  | none => i = 0 ∧ node.event = root
  | some (p, d) =>
    ∃ parent, p < i ∧ tree[p]? = some parent ∧
      node.event.metadata.correlationId
        = some (root.metadata.correlationId.getD root.metadata.eventId) ∧
      node.event.metadata.causationId = some parent.event.eventId ∧
      (d.IsChain →
        node.event.metadata.userId = parent.event.metadata.userId ∧
          node.event.metadata.sessionId = parent.event.metadata.sessionId)

/-- A tree with one trace. -/
def OneTrace (root : EventEnvelope) (tree : List TraceNode) : Prop :=
  ∀ (i : Nat) (node : TraceNode), tree[i]? = some node → node.InContext root tree i

section Tree

variable {root : EventEnvelope} {tree tree' : List TraceNode} {i : Nat} {node : TraceNode}

/-- The trace of each event is the one of the root. -/
theorem TraceNode.InContext.traceId_eq (h : node.InContext root tree i) :
    node.event.traceId = root.traceId := by
  unfold TraceNode.InContext at h
  split at h
  · rw [h.2]
  · obtain ⟨parent, -, -, hcorrelation, -⟩ := h
    exact EventEnvelope.traceId_of_correlationId hcorrelation

/-- Other events leave it as it is. -/
theorem TraceNode.InContext.append (h : node.InContext root tree i) (more : List TraceNode) :
    node.InContext root (tree ++ more) i := by
  unfold TraceNode.InContext at h ⊢
  split at h
  · exact h
  · obtain ⟨parent, hlt, hparent, hcontext⟩ := h
    have hp := (List.getElem?_eq_some_iff.mp hparent).1
    exact ⟨parent, hlt, (List.getElem?_append_left hp).trans hparent, hcontext⟩

theorem oneTrace_seed (root : EventEnvelope) : OneTrace root (seed root) := by
  intro i node hnode
  obtain ⟨hlt, rfl⟩ := List.getElem?_eq_some_iff.mp hnode
  have hzero : i = 0 := by
    rw [seed, List.length_singleton] at hlt
    omega
  subst hzero
  exact ⟨rfl, rfl⟩

/-- **Step.** The next event belongs to the trace of its parent. -/
theorem OneTrace.grow {g : Growth} (h : OneTrace root tree) (hgrow : grow tree g = some tree') :
    OneTrace root tree' := by
  obtain ⟨parent, hparent, hderived⟩ := Option.bind_eq_some_iff.mp hgrow
  obtain ⟨event, hevent, rfl⟩ := Option.map_eq_some_iff.mp hderived
  have hlt := (List.getElem?_eq_some_iff.mp hparent).1
  intro i node hnode
  by_cases hold : i < tree.length
  · -- an event that was there has its parent where it was
    rw [List.getElem?_append_left hold] at hnode
    exact (h i node hnode).append _
  · -- the new event is the last, and its parent carries the trace of the root already
    rw [List.getElem?_append_right (Nat.le_of_not_lt hold)] at hnode
    obtain rfl := List.mem_singleton.mp (List.mem_of_getElem? hnode)
    refine ⟨parent, by omega, (List.getElem?_append_left hlt).trans hparent, ?_,
      Derivation.causationId_derive hevent, Derivation.context_derive hevent⟩
    rw [Derivation.correlationId_derive hevent, (h g.parent parent hparent).traceId_eq]
    rfl

/-- **Every tree is one trace.**  However it grows from its root, every event but the root
    carries the correlation id of the root, or else the root's own id, and the id of its
    parent as its cause; what is made by `chain` has the user and the session of its
    parent. -/
theorem exec_grow_oneTrace {gs : List Growth}
    (hexec : Transition.exec grow (seed root) gs = some tree) :
    OneTrace root tree :=
  Transition.invariant (I := OneTrace root) (fun _ _ _ h hgrow => h.grow hgrow)
    (oneTrace_seed root) hexec

/-- An order whose payment is asked for and confirmed, and what follows. -/
def orderTree : List Growth :=
  [⟨0, .chain ⟨2, "ChargeCard", .ok, .ok⟩ [2] (some "billing.done"), 11, 5⟩,
    ⟨1, .reply ⟨50, ⟨2, "ChargeCard", .ok, .ok⟩, ⟨3, "CardCharged", .ok, .ok⟩, none⟩ [3], 12, 7⟩,
    ⟨2, .chain ⟨4, "OrderShipped", .ok, .ok⟩ [4] none, 13, 9⟩,
    ⟨0, .chain ⟨5, "CartCleared", .ok, .ok⟩ [5] none, 14, 9⟩]

/-- Its root has no correlation id. -/
def orderPlaced : EventEnvelope :=
  EventType.envelope ⟨1, "OrderPlaced", .ok, .ok⟩ [1]
    { eventId := 10, timestamp := 0, userId := some "ada" }

theorem exec_grow_oneTrace_orderTree :
    ∃ tree shipped, Transition.exec grow (seed orderPlaced) orderTree = some tree ∧
      tree[3]? = some shipped ∧ shipped.event.metadata.correlationId = some 10 ∧
      shipped.event.metadata.causationId = some 12 := by
  obtain ⟨tree, shipped, charged, hexec, hshipped, horigin, hcharged, hid⟩ :
      ∃ tree shipped charged, Transition.exec grow (seed orderPlaced) orderTree = some tree ∧
        tree[3]? = some shipped ∧
        shipped.origin = some (2, .chain ⟨4, "OrderShipped", .ok, .ok⟩ [4] none) ∧
        tree[2]? = some charged ∧ charged.event.eventId = 12 :=
    ⟨_, _, _, rfl, rfl, rfl, rfl, rfl⟩
  have h := exec_grow_oneTrace hexec 3 shipped hshipped
  unfold TraceNode.InContext at h
  rw [horigin] at h
  obtain ⟨parent, -, hparent, hcorrelation, hcausation, -⟩ := h
  obtain rfl := Option.some.inj (hcharged.symm.trans hparent)
  exact ⟨tree, shipped, hexec, hshipped, hcorrelation, hcausation.trans (congrArg some hid)⟩

/-- The root itself does not carry the id that it hands down. -/
theorem seed_orderPlaced_correlationId :
    ¬ ∀ (root : EventEnvelope) (gs : List Growth) (tree : List TraceNode),
      Transition.exec grow (seed root) gs = some tree → ∀ node ∈ tree,
        node.event.metadata.correlationId
          = some (root.metadata.correlationId.getD root.metadata.eventId) := by
  intro h
  -- the tree before anything follows from the root
  have hroot := h orderPlaced [] (seed orderPlaced) rfl ⟨orderPlaced, none⟩ List.mem_cons_self
  cases hroot

end Tree

end TokioEvents

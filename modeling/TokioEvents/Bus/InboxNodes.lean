/-
  TokioEvents.Bus.InboxNodes

  What `EventBus::request` leaves in the topic trie.  The call subscribes to its inbox and
  unsubscribes at its end, but the trie keeps the node of every inbox, so a bus that makes
  requests has a trie that grows with each of them.
-/

import TokioEvents.Bus.Invariant
import TokioEvents.Bus.Rpc
import TokioEvents.Registry.TrieNodes

namespace TokioEvents

open TopicTrie

namespace MemoryBus

open DashMapRegistry

variable {config : EventBusConfig} {s s' : MemoryBus}

/-- What the bus inserts into the trie in a step. -/
def Action.topics : Action → Finset (List (Wildcard.Seg String))
  | .subscriber (.subscribe _ _ entry) => entry.topic.elim ∅ fun topic => {patternOf topic}
  | _ => ∅

/-- **The trie in a step** of a bus that nobody has begun to shut down. -/
theorem extends_step {a : Action} (h : step config s a = some s') (hopen : s'.shutdowns = []) :
    s.shutdowns = [] ∧ Extends s.registry s'.registry a.topics := by
  cases a with
  | publisher b =>
    have hstep := stepPublisher_cases h
    refine ⟨?_, extends_of_eq (by rw [hstep.registry_eq])⟩
    obtain ⟨_, _, _, _, rfl⟩ := hstep.frame
    exact hopen
  | worker b =>
    have hstep := stepWorker_cases h
    refine ⟨?_, extends_of_eq (by rw [hstep.registry_eq])⟩
    obtain ⟨_, _, _, _, rfl⟩ := hstep.frame
    exact hopen
  | handler id b =>
    obtain ⟨task, -, hstep⟩ := stepHandler_cases h
    cases hstep with
    | ack => exact ⟨hopen, extends_incrementProcessed _ id⟩
    | _ => exact ⟨hopen, extends_of_eq rfl⟩
  | subscriber b =>
    have hstep := stepSubscriber_cases h
    have hsame : s.shutdowns = [] := by
      obtain ⟨_, _, _, _, _, rfl⟩ := hstep.frame
      exact hopen
    refine ⟨hsame, ?_⟩
    cases hstep with
    | subscribe => exact extends_register _ _ _ _
    | unregister => exact extends_unregister _ _
    | unsubscribe hid =>
      rw [registry_abort]
      exact extends_unregister _ _
    | autoUnsubscribe hunsubs hid =>
      rw [registry_abort]
      exact extends_unregister _ _
    | _ => exact extends_of_eq rfl
  | shutdown b =>
    -- a call that has begun stays in the list
    have hset : ∀ (t : MemoryBus) n (call : ShutdownCall) phase, s.shutdowns[n]? = some call →
        t.shutdowns = s.shutdowns → (t.setShutdown n call phase).shutdowns ≠ [] := by
      intro t n call phase hcall ht hnil
      have hlength := congrArg List.length hnil
      rw [setShutdown, List.length_set, ht, List.length_nil] at hlength
      rw [List.eq_nil_of_length_eq_zero hlength] at hcall
      cases hcall
    cases stepShutdown_cases h with
    | registerHook => exact ⟨hopen, extends_of_eq rfl⟩
    | begin graceful => exact absurd hopen (List.append_ne_nil_of_right_ne_nil _ (by simp))
    | lockHooks hcall => exact absurd hopen (hset s _ _ _ hcall rfl)
    | runHook hcall => exact absurd hopen (hset s _ _ _ hcall rfl)
    | releaseHooks hcall => exact absurd hopen (hset s _ _ _ hcall rfl)
    | noDispatcher hcall => exact absurd hopen (hset s _ _ _ hcall rfl)
    | takeDispatcher hcall => exact absurd hopen (hset _ _ _ _ hcall rfl)
    | skipJoin hcall => exact absurd hopen (hset _ _ _ _ hcall rfl)
    | join hcall => exact absurd hopen (hset _ _ _ _ hcall rfl)
    | collect hcall => exact absurd hopen (hset s _ _ _ hcall rfl)
    | abortAll hcall => exact absurd hopen (hset _ _ _ _ hcall rfl)
    | remove hcall => exact absurd hopen (hset _ _ _ _ hcall rfl)
    | skip hcall => exact absurd hopen (hset s _ _ _ hcall rfl)
    | await hcall => exact absurd hopen (hset s _ _ _ hcall rfl)
    | joinTask hcall => exact absurd hopen (hset s _ _ _ hcall rfl)
    | joinedAll hcall => exact absurd hopen (hset s _ _ _ hcall rfl)
    | store hcall => exact absurd hopen (hset _ _ _ _ hcall rfl)
    | timeout hcall => exact absurd hopen (hset s _ _ _ hcall rfl)
    | drop hcall => exact absurd hopen (hset s _ _ _ hcall rfl)

/-- A bus whose trie has come about by calls on the trie that inserted at least these
    patterns, unless somebody has begun to shut it down. -/
def Holds (s : MemoryBus) (patterns : Finset (List (Wildcard.Seg String))) : Prop :=
  s.shutdowns = [] →
    ∃ ops, s.registry.topicTrie = TrieOp.run ops ∧ patterns ⊆ TrieOp.insertedPatterns ops

theorem holds_build (config : EventBusConfig) : (build config).Holds ∅ :=
  fun _ => ⟨[], rfl, Finset.empty_subset _⟩

/-- **A step of the bus** takes no pattern away, and a subscription adds its own. -/
theorem Holds.step {patterns : Finset (List (Wildcard.Seg String))} (hs : s.Holds patterns)
    {a : Action} (h : step config s a = some s') : s'.Holds (patterns ∪ a.topics) := by
  intro hopen
  obtain ⟨hopen', ops', htrie', hinserted'⟩ := extends_step h hopen
  obtain ⟨ops, htrie, hinserted⟩ := hs hopen'
  refine ⟨ops ++ ops', ?_, ?_⟩
  · rw [htrie', htrie, TrieOp.run_append]
  · rw [TrieOp.insertedPatterns_append, hinserted']
    exact Finset.union_subset_union_left hinserted

theorem Holds.step_of_quiet {patterns : Finset (List (Wildcard.Seg String))}
    (hs : s.Holds patterns) {a : Action} (h : MemoryBus.step config s a = some s') :
    s'.Holds patterns := by
  intro hopen
  obtain ⟨ops, htrie, hinserted⟩ := hs.step h hopen
  exact ⟨ops, htrie, Finset.union_subset_left hinserted⟩

end MemoryBus

namespace RpcBus

variable {config : EventBusConfig} {s s' : RpcBus}

/-! ## The steps -/

/-- The patterns of the inboxes. -/
def inboxPatterns (s : RpcBus) : Finset (List (Wildcard.Seg String)) :=
  (s.requests.map fun call => patternOf (inboxTopic call.inbox)).toFinset

/-- The bus takes steps of its own, and there are the same inboxes as before. -/
structure Follows (config : EventBusConfig) (s s' : RpcBus) : Prop where
  bus : ∃ as, Transition.exec (MemoryBus.step config) s.bus as = some s'.bus
  inboxes : s'.inboxPatterns = s.inboxPatterns

theorem Follows.holds (h : Follows config s s') (hs : s.bus.Holds s.inboxPatterns) :
    s'.bus.Holds s'.inboxPatterns := by
  obtain ⟨⟨as, hexec⟩, hinboxes⟩ := h
  rw [hinboxes]
  exact Transition.invariant (I := fun bus => bus.Holds s.inboxPatterns)
    (fun _ _ _ hI hstep => hI.step_of_quiet hstep) hs hexec

theorem Follows.refl (s : RpcBus) : Follows config s s := ⟨⟨[], rfl⟩, rfl⟩

/-- One step of the bus. -/
theorem follows_step {bus : MemoryBus} {a : MemoryBus.Action}
    (h : MemoryBus.step config s.bus a = some bus) : Follows config s { s with bus := bus } :=
  ⟨⟨[a], by rw [Transition.exec_cons_of_step _ h]; rfl⟩, rfl⟩

theorem Follows.trans {s'' : RpcBus} (h : Follows config s s') (h' : Follows config s' s'') :
    Follows config s s'' := by
  obtain ⟨as, hexec⟩ := h.bus
  obtain ⟨as', hexec'⟩ := h'.bus
  exact ⟨⟨as ++ as', (Transition.exec_append_of_exec _ hexec).trans hexec'⟩,
    h'.inboxes.trans h.inboxes⟩

theorem Follows.setRequest (h : Follows config s s') {n : Nat} {call call' : RequestCall}
    (hcall : s'.requests[n]? = some call) (hinbox : call'.inbox = call.inbox) :
    Follows config s (s'.setRequest n call') := by
  refine ⟨h.bus, ?_⟩
  rw [← h.inboxes]
  obtain ⟨hlt, rfl⟩ := List.getElem?_eq_some_iff.mp hcall
  have hlt' : n < (s'.requests.map fun call => patternOf (inboxTopic call.inbox)).length := by
    rwa [List.length_map]
  have hself : patternOf (inboxTopic call'.inbox)
      = (s'.requests.map fun call => patternOf (inboxTopic call.inbox))[n] := by
    rw [List.getElem_map, hinbox]
  unfold inboxPatterns RpcBus.setRequest
  rw [List.map_set, hself, List.set_getElem_self]

theorem Follows.setReplying (h : Follows config s s') (n : Nat) (responder : Responder)
    (replying : Option Nat) : Follows config s (s'.setReplying n responder replying) :=
  ⟨h.bus, h.inboxes⟩

theorem follows_dropHandle (s : RpcBus) (id : Uuid) :
    Follows config s { s with bus := s.bus.dropHandle id } := by
  rcases MemoryBus.dropHandle_cases config s.bus id with hsame | hstep
  · rw [hsame]
    exact .refl s
  · exact follows_step hstep

theorem follows_dropCall {bus : MemoryBus} {n : Nat} (h : s.bus.dropCall n = some bus) :
    Follows config s { s with bus := bus } := by
  rcases MemoryBus.dropCall_cases config h with rfl | hstep
  · exact .refl s
  · exact follows_step hstep

theorem follows_stepHandler {bus : MemoryBus} {id : Uuid} {a : MemoryBus.HandlerAction}
    (h : s.bus.stepHandler config id a = some bus) : Follows config s { s with bus := bus } :=
  follows_step (a := .handler id a) h

theorem follows_publish (s : RpcBus) (envelope : EventEnvelope) :
    Follows config s { s with bus := s.bus.publish envelope false } :=
  follows_step (a := .publisher (.publish envelope false)) rfl

/-- **Every step but a request** follows the bus. -/
theorem follows_of_step {a : RpcAction} (h : s.step config a = some s')
    (ha : ∀ inbox subscription req res event, a ≠ .request inbox subscription req res event) :
    Follows config s s' := by
  cases a with
  | bus a =>
    simp only [RpcBus.step, RpcBus.stepBus] at h
    split at h
    · obtain ⟨bus, hbus, rfl⟩ := Option.map_eq_some_iff.mp h
      exact follows_step hbus
    · cases h
  | request inbox subscription req res event => exact absurd rfl (ha _ _ _ _ _)
  | publishRequest n eventId timestamp =>
    simp only [RpcBus.step, RpcBus.publishRequest] at h
    split at h
    · rename_i call hcall
      split at h
      · cases h
        exact (follows_publish s _).setRequest hcall rfl
      · cases h
    · cases h
  | requested n =>
    simp only [RpcBus.step, RpcBus.requested] at h
    split at h
    · rename_i call hcall
      split at h
      · split at h
        · cases h
          exact (Follows.refl s).setRequest hcall rfl
        · cases h
          exact (follows_dropHandle s _).setRequest hcall rfl
        · cases h
      · cases h
    · cases h
  | receive n =>
    simp only [RpcBus.step, RpcBus.receive] at h
    split at h
    · rename_i call hcall
      split at h
      · cases h
        exact (Follows.refl s).setRequest hcall rfl
      · split at h <;> cases h
        exact (Follows.refl s).setRequest hcall rfl
      · cases h
    · cases h
  | timeout n =>
    simp only [RpcBus.step, RpcBus.timeout] at h
    split at h
    · rename_i call hcall
      split at h
      · cases h
        exact (Follows.refl s).setRequest hcall rfl
      · cases h
    · cases h
  | close n =>
    simp only [RpcBus.step, RpcBus.close] at h
    split at h
    · rename_i call hcall
      split at h
      · cases h
        have hunsubscribe : Follows config s
            { s with bus := s.bus.unsubscribe call.subscription } :=
          follows_step (a := .subscriber (.unsubscribe call.subscription)) rfl
        exact (hunsubscribe.trans (follows_dropHandle _ _)).setRequest hcall rfl
      · cases h
    · cases h
  | drop n =>
    simp only [RpcBus.step, RpcBus.drop] at h
    split at h
    · rename_i call hcall
      split at h
      · obtain ⟨bus, hbus, rfl⟩ := Option.map_eq_some_iff.mp h
        exact ((follows_dropCall hbus).trans (follows_dropHandle _ _)).setRequest hcall rfl
      · cases h
        exact (follows_dropHandle s _).setRequest hcall rfl
      · cases h
    · cases h
  | deliver n =>
    simp only [RpcBus.step, RpcBus.deliver] at h
    split at h
    · rename_i call hcall
      split at h
      · split at h
        · obtain ⟨bus, hbus, rfl⟩ := Option.map_eq_some_iff.mp h
          refine (follows_stepHandler hbus).setRequest hcall ?_
          split <;> rfl
        · obtain ⟨bus, hbus, rfl⟩ := Option.map_eq_some_iff.mp h
          exact follows_stepHandler hbus
      · cases h
    · cases h
  | respond subscription req res =>
    simp only [RpcBus.step, respond] at h
    split at h
    · cases h
      exact .refl s
    · obtain ⟨bus, hbus, rfl⟩ := Option.map_eq_some_iff.mp h
      have hfollows := follows_step (a := .subscriber (.subscribe req.typeId req.eventType
        (responderEntry subscription req))) hbus
      exact ⟨hfollows.bus, rfl⟩
  | refuse n =>
    simp only [RpcBus.step, refuse] at h
    split at h
    · split at h
      · cases h
      · obtain ⟨bus, hbus, rfl⟩ := Option.map_eq_some_iff.mp h
        exact follows_stepHandler hbus
    · cases h
  | compute n response eventId timestamp =>
    simp only [RpcBus.step, compute] at h
    split at h
    · split at h
      · split at h
        · cases h
          exact ⟨(follows_publish s _).bus, rfl⟩
        · obtain ⟨bus, hbus, rfl⟩ := Option.map_eq_some_iff.mp h
          exact ⟨(follows_stepHandler hbus).bus, rfl⟩
      · cases h
    · cases h
  | replied n =>
    simp only [RpcBus.step, replied] at h
    split at h
    · split at h
      · obtain ⟨bus, hbus, rfl⟩ := Option.map_eq_some_iff.mp h
        exact (follows_stepHandler hbus).setReplying _ _ _
      · cases h
    · cases h
  | cancelReply n =>
    simp only [RpcBus.step, cancelReply] at h
    split at h
    · split at h
      · obtain ⟨bus, hbus, rfl⟩ := Option.map_eq_some_iff.mp h
        obtain ⟨bus₁, hdrop, hcancelled⟩ := Option.bind_eq_some_iff.mp hbus
        have hfollows := (follows_dropCall hdrop).trans (follows_stepHandler hcancelled)
        exact hfollows.setReplying _ _ _
      · cases h
    · cases h

/-- **One step.** A request inserts the pattern of its inbox. -/
theorem holds_step {a : RpcAction} (h : s.step config a = some s')
    (hs : s.bus.Holds s.inboxPatterns) : s'.bus.Holds s'.inboxPatterns := by
  by_cases ha : ∃ inbox subscription req res event, a = .request inbox subscription req res event
  · obtain ⟨inbox, subscription, req, res, event, rfl⟩ := ha
    simp only [RpcBus.step, RpcBus.request] at h
    split at h
    · cases h
      exact hs
    · obtain ⟨bus, hbus, rfl⟩ := Option.map_eq_some_iff.mp h
      have hstep : MemoryBus.step config s.bus (.subscriber (.subscribe res.typeId res.eventType
          (inboxEntry inbox subscription res))) = some bus := hbus
      have hholds := hs.step hstep
      unfold inboxPatterns
      rw [List.map_append, List.toFinset_append]
      exact hholds
  · refine (follows_of_step h fun inbox subscription req res event heq => ha ?_).holds hs
    exact ⟨inbox, subscription, req, res, event, heq⟩

/-- **Every run.** -/
theorem holds_exec {as : List RpcAction} (hexec : exec config (build config) as = some s) :
    s.bus.Holds s.inboxPatterns :=
  Transition.invariant (I := fun s => s.bus.Holds s.inboxPatterns)
    (fun _ _ _ hI h => holds_step h hI) (MemoryBus.holds_build config) hexec

/-- The nodes of the inboxes, with the node above them and the root. -/
theorem inboxes_le_nodeCount {ops : List TrieOp}
    (hinserted : s.inboxPatterns ⊆ TrieOp.insertedPatterns ops) (hsome : s.requests ≠ []) :
    2 + (s.requests.map (·.inbox)).toFinset.card ≤ (TrieOp.run ops).nodeCount := by
  have hinjective : Function.Injective fun id => patternOf (inboxTopic id) := by
    intro a b h
    have h : patternOf (inboxTopic a) = patternOf (inboxTopic b) := h
    rw [patternOf_inboxTopic, patternOf_inboxTopic] at h
    simp only [List.cons.injEq, Wildcard.Seg.lit.injEq, and_true, true_and] at h
    exact Uuid.hyphenated_injective h
  have himage : s.inboxPatterns
      = ((s.requests.map (·.inbox)).toFinset).image fun id => patternOf (inboxTopic id) := by
    ext p
    simp [inboxPatterns]
  have hcard : s.inboxPatterns.card = (s.requests.map (·.inbox)).toFinset.card := by
    rw [himage, Finset.card_image_of_injective _ hinjective]
  obtain ⟨call, hcall⟩ := List.exists_mem_of_ne_nil _ hsome
  have hmem : patternOf (inboxTopic call.inbox) ∈ s.inboxPatterns := by
    simp only [inboxPatterns, List.mem_toFinset, List.mem_map]
    exact ⟨call, hcall, rfl⟩
  -- none of the patterns is the root or the node above the inboxes
  have hlong : ∀ p ∈ s.inboxPatterns, p.length = 2 := by
    intro p hp
    rw [himage] at hp
    obtain ⟨id, -, rfl⟩ := Finset.mem_image.mp hp
    rw [patternOf_inboxTopic]
    rfl
  have habove : [Wildcard.Seg.lit "_INBOX"] ∉ s.inboxPatterns := fun h => by
    have := hlong _ h
    simp at this
  have hroot : [] ∉ insert [Wildcard.Seg.lit "_INBOX"] s.inboxPatterns := by
    intro h
    rcases Finset.mem_insert.mp h with h | h
    · cases h
    · have := hlong _ h
      simp at this
  have hsub : insert [] (insert [Wildcard.Seg.lit "_INBOX"] s.inboxPatterns)
      ⊆ TrieOp.prefixes ops := by
    refine Finset.insert_subset ?_ (Finset.insert_subset ?_ fun p hp => ?_)
    · exact TrieOp.mem_prefixes.mpr (.inl rfl)
    · refine TrieOp.mem_prefixes_of_inserted (hinserted hmem) ?_
      rw [patternOf_inboxTopic]
      exact ⟨[_], rfl⟩
    · exact TrieOp.mem_prefixes_of_inserted (hinserted hp) List.prefix_rfl
  have hle := Finset.card_le_card hsub
  rw [Finset.card_insert_of_notMem hroot, Finset.card_insert_of_notMem habove, hcard,
    ← TrieOp.nodeCount_run] at hle
  omega

/-- **Dead patterns stay in the trie.** After any sequence of calls the trie has one node
    for each prefix of each pattern that was ever inserted, and a call that inserts nothing
    changes nothing about that.  So every `request` leaves the node of its inbox behind. -/
theorem nodeCount_counts_inserted :
    (∀ ops, (TrieOp.run ops).nodeCount = (TrieOp.prefixes ops).card ∧
      (TrieOp.run ops).nodeCount ≤ 1 + ∑ p ∈ TrieOp.insertedPatterns ops, p.length) ∧
    (∀ (trie : TopicTrie) (op : TrieOp), op.inserted = none →
      (op.apply trie).nodeCount = trie.nodeCount) ∧
    ∀ (config : EventBusConfig) (as : List RpcAction) (s : RpcBus),
      exec config (build config) as = some s → s.bus.shutdowns = [] → s.requests ≠ [] →
        2 + (s.requests.map (·.inbox)).toFinset.card ≤ s.bus.registry.topicTrie.nodeCount := by
  refine ⟨fun ops => ⟨TrieOp.nodeCount_run ops, TrieOp.nodeCount_run_le ops⟩,
    fun trie op hop => TrieOp.nodeCount_apply_of_not_inserted hop trie,
    fun config as s hexec hopen hsome => ?_⟩
  obtain ⟨ops, htrie, hinserted⟩ := holds_exec hexec hopen
  rw [htrie]
  exact inboxes_le_nodeCount hinserted hsome

/-- A request that times out. -/
def unansweredRequest (n : Nat) (inbox subscription eventId : Uuid) : List RpcAction :=
  [.request inbox subscription ⟨1, "FetchUser", .ok, .ok⟩ ⟨2, "UserFetched", .ok, .ok⟩ [7],
    .publishRequest n eventId 0, .bus (.publisher (.acquire n)),
    .bus (.publisher (.dispatch n 0)), .bus (.publisher (.send n)), .requested n, .timeout n,
    .close n]

/-- Two of them, one after the other. -/
def unansweredRequests : List RpcAction :=
  unansweredRequest 0 100 200 300 ++ unansweredRequest 1 101 201 301

theorem nodeCount_counts_inserted_unansweredRequests :
    ∃ s, exec {} (build {}) unansweredRequests = some s ∧
      2 + (s.requests.map (·.inbox)).toFinset.card ≤ s.bus.registry.topicTrie.nodeCount := by
  have hsome : ((exec {} (build {}) unansweredRequests).map fun s =>
      (s.bus.shutdowns.isEmpty, s.requests.isEmpty)) = some (true, false) := by decide +kernel
  obtain ⟨s, hexec, hs⟩ := Option.map_eq_some_iff.mp hsome
  obtain ⟨hopen, hrequests⟩ := Prod.mk.inj hs
  exact ⟨s, hexec, nodeCount_counts_inserted.2.2 {} unansweredRequests s hexec
    (List.isEmpty_iff.mp hopen) (List.isEmpty_eq_false_iff.mp hrequests)⟩

/-- A pattern is inserted and removed, and its node stays; and so do the nodes of two
    requests that have returned, when nothing is registered any more. -/
theorem not_nodeCount_le_stored :
    ¬ (∀ ops, (TrieOp.run ops).nodeCount
        ≤ 1 + ∑ p ∈ (TrieOp.stored ops).image Prod.fst, p.length) ∧
      ((exec {} (build {}) unansweredRequests).map fun s =>
        (s.bus.registry.totalSubscriptions, s.bus.registry.topicTrie.nodeCount)) = some (0, 4) := by
  refine ⟨fun h => ?_, by decide +kernel⟩
  have hdead := h [.insert "a" 1, .removeTopic "a" 1]
  revert hdead
  decide +kernel

end RpcBus
end TokioEvents

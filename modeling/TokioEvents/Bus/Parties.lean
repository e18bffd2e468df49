/-
  TokioEvents.Bus.Parties

  The parties of an in-memory bus: its requests and its responders.  Each has a
  subscription of its own, and at any time at most one publish call that it waits for.
  Whatever a party does is made of steps of the bus (`Acts`), and it touches nothing that
  belongs to another party.
-/

import TokioEvents.Bus.Tuned
import TokioEvents.Bus.RpcEffects
import TokioEvents.Lib.Calls

namespace TokioEvents

/-- A request or a responder, by its place. -/
inductive Party where
  | request (n : Nat)
  | responder (n : Nat)

/-- The party whose step it is. -/
def RpcAction.party : RpcAction → Option Party
  | .publishRequest n _ _ => some (.request n)
  | .requested n => some (.request n)
  | .receive n => some (.request n)
  | .timeout n => some (.request n)
  | .close n => some (.request n)
  | .drop n => some (.request n)
  | .deliver n => some (.request n)
  | .refuse n => some (.responder n)
  | .compute n _ _ _ => some (.responder n)
  | .replied n => some (.responder n)
  | .cancelReply n => some (.responder n)
  | _ => none

/-- The party whose publish call is dropped. -/
def RpcAction.dropped : RpcAction → Option Party
  | .drop n => some (.request n)
  | .cancelReply n => some (.responder n)
  | _ => none

/-- The call has returned, or its future was dropped. -/
def RequestPhase.over : RequestPhase → Bool
  | .returned _ => true
  | .dropped => true
  | _ => false

/-- A step of the bus that no party minds. -/
def MemoryBus.Action.harmless : MemoryBus.Action → Bool
  | .publisher (.cancel _) => false
  | .handler _ _ => false
  | _ => true

namespace RpcBus

variable {config : EventBusConfig} {s s' : RpcBus} {a : RpcAction} {as : List MemoryBus.Action}

def subscriptionOf (s : RpcBus) : Party → Option Uuid
  | .request n => s.requests[n]?.map (·.subscription)
  | .responder n => s.responders[n]?.map (·.subscription)

/-- The publish call of the request, or of the reply that is being sent. -/
def callOf (s : RpcBus) : Party → Option Nat
  | .request n => s.requests[n]?.bind (·.call)
  | .responder n => s.responders[n]?.bind (·.replying)

theorem subscriptionOf_request {n : Nat} {call : RequestCall} (h : s.requests[n]? = some call) :
    s.subscriptionOf (.request n) = some call.subscription := by
  rw [subscriptionOf, h]
  rfl

theorem subscriptionOf_responder {n : Nat} {responder : Responder}
    (h : s.responders[n]? = some responder) :
    s.subscriptionOf (.responder n) = some responder.subscription := by
  rw [subscriptionOf, h]
  rfl

theorem callOf_responder {n m : Nat} {responder : Responder}
    (h : s.responders[n]? = some responder) (hreplying : responder.replying = some m) :
    s.callOf (.responder n) = some m := by
  rw [callOf, h]
  exact hreplying

/-- No two parties share a subscription or a publish call. -/
structure Apart (s : RpcBus) : Prop where
  subscriptions : ∀ p q id, s.subscriptionOf p = some id → s.subscriptionOf q = some id → p = q
  calls : ∀ p q m, s.callOf p = some m → s.callOf q = some m → p = q
  stored : ∀ p id, s.subscriptionOf p = some id → (s.bus.tasks[id]?).isSome
  made : ∀ p m, s.callOf p = some m → m < s.bus.calls.length

/-- The steps of the bus that a step is made of.  A publish call is dropped, and a handler that
    publishes goes on, with its own party only; and the handler of an inbox does not panic. -/
structure Acts (config : EventBusConfig) (s : RpcBus) (a : RpcAction) (s' : RpcBus)
    (as : List MemoryBus.Action) : Prop where
  exec : MemoryBus.exec config s.bus as = some s'.bus
  panics : ∀ call ∈ s.requests, .handler call.subscription (.outcome .panic) ∉ as
  calls : ∀ p m, s.callOf p = some m → .publisher (.cancel m) ∈ as → a.dropped = some p
  handlers : ∀ n responder x, a.party ≠ some (.responder n) → s.responders[n]? = some responder →
    responder.replying.isSome → .handler responder.subscription x ∈ as →
    (∀ outcome, x ≠ .outcome outcome) ∧ x ≠ .cancelled

/-- Beside harmless steps a party drops its publish call, and its handler goes on. -/
theorem acts_of_own (hapart : s.Apart) (hexec : MemoryBus.exec config s.bus as = some s'.bus)
    (hown : ∀ b ∈ as, b.harmless = true ∨
      (∃ p m, a.dropped = some p ∧ s.callOf p = some m ∧ b = .publisher (.cancel m)) ∨
      ∃ p id x, a.party = some p ∧ s.subscriptionOf p = some id ∧ x ≠ .outcome .panic ∧
        b = .handler id x) : s.Acts config a s' as := by
  refine ⟨hexec, fun call hcall hmem => ?_, fun p m hm hmem => ?_,
    fun n responder x hn hresponder hreplying hmem => ?_⟩
  · rcases hown _ hmem with hharmless | ⟨p, m, -, -, hb⟩ | ⟨p, id, x, -, -, hx, hb⟩
    · cases hharmless
    · cases hb
    · cases hb
      exact absurd rfl hx
  · rcases hown _ hmem with hharmless | ⟨q, m', hq, hm', hb⟩ | ⟨q, id, x, -, -, -, hb⟩
    · cases hharmless
    · cases hb
      exact hapart.calls q p m hm' hm ▸ hq
    · cases hb
  · rcases hown _ hmem with hharmless | ⟨q, m, -, -, hb⟩ | ⟨q, id, x', hq, hid, -, hb⟩
    · cases hharmless
    · cases hb
    · cases hb
      exact absurd (hapart.subscriptions q _ _ hid (subscriptionOf_responder hresponder) ▸ hq) hn

/-- What `permits` leaves to the parties. -/
theorem acts_bus {b : MemoryBus.Action} {bus : MemoryBus} (hpermits : s.permits b = true)
    (hbus : s.bus.step config b = some bus) : s.Acts config (.bus b) { s with bus := bus } [b] := by
  refine ⟨(Transition.exec_cons_of_step _ hbus).trans rfl, fun call hcall hmem => ?_,
    fun p m hm hmem => ?_, fun n responder x _ hresponder hreplying hmem => ?_⟩
  · cases List.mem_singleton.mp hmem
    simp only [permits, Bool.and_eq_true, isInbox, Bool.not_eq_true', List.any_eq_false] at hpermits
    exact hpermits.1 call hcall (beq_self_eq_true _)
  · cases List.mem_singleton.mp hmem
    simp only [permits, owns, Bool.not_eq_true', Bool.or_eq_false_iff, List.any_eq_false]
      at hpermits
    cases p with
    | request n =>
      obtain ⟨call, hcall, hm⟩ := Option.bind_eq_some_iff.mp hm
      exact absurd (by simp [hm]) (hpermits.1 call (List.mem_of_getElem? hcall))
    | responder n =>
      obtain ⟨responder, hresponder, hm⟩ := Option.bind_eq_some_iff.mp hm
      exact absurd (by simp [hm]) (hpermits.2 responder (List.mem_of_getElem? hresponder))
  · cases List.mem_singleton.mp hmem
    have hin := List.mem_of_getElem? hresponder
    cases x with
    | outcome outcome =>
      simp only [permits, Bool.and_eq_true, List.all_eq_true] at hpermits
      have hallows := hpermits.2 responder hin
      cases outcome <;> simp_all [Responder.allows]
    | cancelled =>
      simp only [permits, List.all_eq_true] at hpermits
      have hallows := hpermits responder hin
      simp_all
    | _ => exact ⟨by simp, by simp⟩

/-- The last handle is dropped: a signal, or nothing. -/
theorem exec_dropHandle (config : EventBusConfig) (bus : MemoryBus) (id : Uuid) :
    ∃ as, MemoryBus.exec config bus as = some (bus.dropHandle id) ∧
      ∀ b ∈ as, b.harmless = true := by
  rcases MemoryBus.dropHandle_cases config bus id with hsame | hstep
  · exact ⟨[], by rw [hsame]; rfl, by simp⟩
  · exact ⟨_, (Transition.exec_cons_of_step _ hstep).trans rfl,
      fun b hb => List.mem_singleton.mp hb ▸ rfl⟩

/-- The future of a publish call is dropped: the call is, or it has returned. -/
theorem exec_dropCall (config : EventBusConfig) {bus bus' : MemoryBus} {m : Nat}
    (h : bus.dropCall m = some bus') :
    ∃ as, MemoryBus.exec config bus as = some bus' ∧ ∀ b ∈ as, b = .publisher (.cancel m) := by
  rcases MemoryBus.dropCall_cases config h with rfl | hstep
  · exact ⟨[], rfl, by simp⟩
  · exact ⟨_, (Transition.exec_cons_of_step _ hstep).trans rfl,
      fun b hb => List.mem_singleton.mp hb⟩

/-- One step of the bus. -/
theorem exec_one {b : MemoryBus.Action} {bus bus' : MemoryBus} (h : bus.step config b = some bus') :
    MemoryBus.exec config bus [b] = some bus' := (Transition.exec_cons_of_step _ h).trans rfl

theorem exec_both {bus bus' bus'' : MemoryBus} {bs : List MemoryBus.Action}
    (h : MemoryBus.exec config bus as = some bus')
    (h' : MemoryBus.exec config bus' bs = some bus'') :
    MemoryBus.exec config bus (as ++ bs) = some bus'' :=
  (Transition.exec_append_of_exec _ h).trans h'

/-- **Every step** is made of steps of the bus. -/
theorem RpcStep.acts (h : RpcStep config s a s') (hapart : s.Apart)
    (hcalls : ∀ (n : Nat) call m, s.requests[n]? = some call →
      call.phase = .publishing m → call.call = some m) :
    ∃ as, s.Acts config a s' as := by
  have hharmless : ∀ {s' : RpcBus} {as}, MemoryBus.exec config s.bus as = some s'.bus →
      (∀ b ∈ as, b.harmless = true) → ∃ as, s.Acts config a s' as :=
    fun hexec hall => ⟨_, acts_of_own hapart hexec fun b hb => .inl (hall b hb)⟩
  have hnone : ∀ {s' : RpcBus}, s'.bus = s.bus → ∃ as, s.Acts config a s' as :=
    fun hbus => ⟨[], acts_of_own hapart (by rw [hbus]; rfl) (by simp)⟩
  have hone : ∀ {s' : RpcBus} (b : MemoryBus.Action), s.bus.step config b = some s'.bus →
      b.harmless = true → ∃ as, s.Acts config a s' as :=
    fun b hb hkind => hharmless (exec_one hb) fun c hc => List.mem_singleton.mp hc ▸ hkind
  cases h with
  | @bus b bus hpermits hbus => exact ⟨[b], acts_bus hpermits hbus⟩
  | reject => exact hnone rfl
  | request hbus => exact hone (.subscriber (.subscribe _ _ _)) hbus rfl
  | publishRequest => exact hone (.publisher (.publish _ false)) rfl rfl
  | awaitReply => exact hnone rfl
  | @failRequest n m call =>
    obtain ⟨as, hexec, hall⟩ := exec_dropHandle config s.bus call.subscription
    exact hharmless hexec hall
  | conclude => exact hnone rfl
  | @close n call =>
    obtain ⟨as, hexec, hall⟩ :=
      exec_dropHandle config (s.bus.unsubscribe call.subscription) call.subscription
    have hstep : s.bus.step config (.subscriber (.unsubscribe call.subscription))
        = some (s.bus.unsubscribe call.subscription) := rfl
    exact hharmless ((Transition.exec_cons_of_step _ hstep).trans hexec)
      (List.forall_mem_cons.mpr ⟨rfl, hall⟩)
  | @dropPublishing n m call bus hcall hphase hdrop =>
    obtain ⟨as, hexec, hall⟩ := exec_dropCall config hdrop
    obtain ⟨bs, hexec', hall'⟩ := exec_dropHandle config bus call.subscription
    refine ⟨as ++ bs, acts_of_own hapart (exec_both hexec hexec') fun b hb => ?_⟩
    rcases List.mem_append.mp hb with hb | hb
    · refine .inr (.inl ⟨.request n, m, rfl, ?_, hall b hb⟩)
      rw [callOf, hcall]
      exact hcalls n call m hcall hphase
    · exact .inl (hall' b hb)
  | @dropAwaiting n call =>
    obtain ⟨as, hexec, hall⟩ := exec_dropHandle config s.bus call.subscription
    exact hharmless hexec hall
  | @deliver n call call' outcome bus hcall hpanic hbus =>
    refine ⟨_, acts_of_own hapart (exec_one (b := .handler call.subscription (.outcome outcome))
      hbus) fun b hb => .inr (.inr ?_)⟩
    exact ⟨.request n, _, _, rfl, subscriptionOf_request hcall,
      fun heq => hpanic (by cases heq; rfl), List.mem_singleton.mp hb⟩
  | respond hbus => exact hone (.subscriber (.subscribe _ _ _)) hbus rfl
  | @answer a n responder outcome bus computed ha hresponder hreplying hpanic hbus =>
    refine ⟨_, acts_of_own hapart (exec_one
      (b := .handler responder.subscription (.outcome outcome)) hbus)
      fun b hb => .inr (.inr ⟨.responder n, _, _, ?_, subscriptionOf_responder hresponder,
        fun heq => hpanic (by cases heq; rfl), List.mem_singleton.mp hb⟩)⟩
    rcases ha with rfl | ⟨_, _, _, rfl⟩
    · rfl
    · rfl
  | reply => exact hone (.publisher (.publish _ false)) rfl rfl
  | @replied n m responder result bus hresponder hreplying hresult hbus =>
    refine ⟨_, acts_of_own hapart (exec_one
      (b := .handler responder.subscription (.outcome result.outcome)) hbus)
      fun b hb => .inr (.inr ⟨.responder n, _, _, rfl, subscriptionOf_responder hresponder,
        fun heq => ?_, List.mem_singleton.mp hb⟩)⟩
    cases result <;> cases heq
  | @cancelReply n m responder bus bus' hresponder hreplying hdrop hbus =>
    obtain ⟨as, hexec, hall⟩ := exec_dropCall config hdrop
    have hlast : MemoryBus.exec config bus [.handler responder.subscription .cancelled]
        = some bus' := exec_one hbus
    refine ⟨_, acts_of_own hapart (exec_both hexec hlast) fun b hb => .inr ?_⟩
    rcases List.mem_append.mp hb with hb | hb
    · exact .inl ⟨.responder n, m, rfl, callOf_responder hresponder hreplying, hall b hb⟩
    · exact .inr ⟨.responder n, _, _, rfl, subscriptionOf_responder hresponder, by simp,
        List.mem_singleton.mp hb⟩

/-! ## What stays apart -/

theorem subscriptionOf_setRequest {n : Nat} {call call' : RequestCall} {p : Party} {id : Uuid}
    (hcall : s.requests[n]? = some call) (h : (s.setRequest n call').subscriptionOf p = some id)
    (hsame : call'.subscription = call.subscription) : s.subscriptionOf p = some id := by
  cases p with
  | responder k => exact h
  | request k =>
    obtain ⟨found, hfound, rfl⟩ := Option.map_eq_some_iff.mp h
    rcases Calls.getElem?_advance hcall hfound with ⟨rfl, rfl⟩ | ⟨-, hold⟩
    · rw [hsame]
      exact subscriptionOf_request hcall
    · exact subscriptionOf_request hold

theorem subscriptionOf_setReplying {n : Nat} {responder : Responder} {replying : Option Nat}
    {p : Party} {id : Uuid} (hresponder : s.responders[n]? = some responder)
    (h : (s.setReplying n responder replying).subscriptionOf p = some id) :
    s.subscriptionOf p = some id := by
  cases p with
  | request k => exact h
  | responder k =>
    obtain ⟨found, hfound, rfl⟩ := Option.map_eq_some_iff.mp h
    rcases Calls.getElem?_advance hresponder hfound with ⟨rfl, rfl⟩ | ⟨-, hold⟩
    · have hsame := subscriptionOf_responder hresponder
      exact hsame
    · exact subscriptionOf_responder hold

theorem callOf_setRequest {n m : Nat} {call call' : RequestCall} {p : Party}
    (hcall : s.requests[n]? = some call) (h : (s.setRequest n call').callOf p = some m) :
    s.callOf p = some m ∨ p = .request n ∧ call'.call = some m := by
  cases p with
  | responder k => exact .inl h
  | request k =>
    obtain ⟨found, hfound, hm⟩ := Option.bind_eq_some_iff.mp h
    rcases Calls.getElem?_advance hcall hfound with ⟨rfl, rfl⟩ | ⟨-, hold⟩
    · exact .inr ⟨rfl, hm⟩
    · exact .inl (Option.bind_eq_some_iff.mpr ⟨found, hold, hm⟩)

/-- A request keeps its publish call where it goes on. -/
theorem callOf_of_same {n m : Nat} {call call' : RequestCall} {p : Party}
    (hcall : s.requests[n]? = some call) (h : (s.setRequest n call').callOf p = some m)
    (hsame : call'.call = call.call) : s.callOf p = some m := by
  rcases callOf_setRequest hcall h with hold | ⟨rfl, hm⟩
  · exact hold
  · rw [callOf, hcall]
    exact hsame.symm.trans hm

theorem callOf_setReplying {n m : Nat} {responder : Responder} {replying : Option Nat} {p : Party}
    (hresponder : s.responders[n]? = some responder)
    (h : (s.setReplying n responder replying).callOf p = some m) :
    s.callOf p = some m ∨ p = .responder n ∧ replying = some m := by
  cases p with
  | request k => exact .inl h
  | responder k =>
    obtain ⟨found, hfound, hm⟩ := Option.bind_eq_some_iff.mp h
    rcases Calls.getElem?_advance hresponder hfound with ⟨rfl, rfl⟩ | ⟨-, hold⟩
    · exact .inr ⟨rfl, hm⟩
    · exact .inl (Option.bind_eq_some_iff.mpr ⟨found, hold, hm⟩)

theorem callOf_of_done {n m : Nat} {responder : Responder} {p : Party}
    (hresponder : s.responders[n]? = some responder)
    (h : (s.setReplying n responder none).callOf p = some m) : s.callOf p = some m := by
  rcases callOf_setReplying hresponder h with hold | ⟨-, hm⟩
  · exact hold
  · cases hm

/-- The subscription of a new party is fresh. -/
structure Fresh (bus bus' : MemoryBus) (id : Uuid) : Prop where
  before : bus.tasks[id]? = none
  after : ∃ channel, bus'.tasks[id]? = some ⟨channel, .selecting, false, false⟩

theorem fresh_of_subscribe {bus bus' : MemoryBus} {eventType : TypeId} {typeName : String}
    {entry : SubscriptionEntry}
    (hbus : bus.subscribe config eventType typeName entry = some bus') :
    Fresh bus bus' entry.id := by
  have hstep : bus.step config (.subscriber (.subscribe eventType typeName entry))
      = some bus' := hbus
  cases MemoryBus.stepSubscriber_cases (a := .subscribe eventType typeName entry) hstep with
  | subscribe hfresh => exact ⟨hfresh, _, Std.ExtTreeMap.getElem?_insert_self⟩

/-- Only a new party has a new subscription. -/
theorem RpcStep.subscriptionOf (h : RpcStep config s a s') :
    ∃ q, ∀ p id, s'.subscriptionOf p = some id →
      s.subscriptionOf p = some id ∨ p = q ∧ Fresh s.bus s'.bus id := by
  have hnobody : (∀ p id, s'.subscriptionOf p = some id → s.subscriptionOf p = some id) →
      ∃ q, ∀ p id, s'.subscriptionOf p = some id →
        s.subscriptionOf p = some id ∨ p = q ∧ Fresh s.bus s'.bus id :=
    fun hold => ⟨.request 0, fun p id hid => .inl (hold p id hid)⟩
  cases h with
  | bus => exact hnobody fun p id hid => hid
  | reject => exact hnobody fun p id hid => hid
  | request hbus =>
    refine ⟨.request s.requests.length, fun p id hid => ?_⟩
    cases p with
    | responder k => exact .inl hid
    | request k =>
      obtain ⟨found, hfound, rfl⟩ := Option.map_eq_some_iff.mp hid
      rcases Calls.getElem?_begin hfound with hold | ⟨rfl, rfl⟩
      · exact .inl (subscriptionOf_request hold)
      · have hfresh := fresh_of_subscribe hbus
        exact .inr ⟨rfl, hfresh⟩
  | respond hbus =>
    refine ⟨.responder s.responders.length, fun p id hid => ?_⟩
    cases p with
    | request k => exact .inl hid
    | responder k =>
      obtain ⟨found, hfound, rfl⟩ := Option.map_eq_some_iff.mp hid
      rcases Calls.getElem?_begin hfound with hold | ⟨rfl, rfl⟩
      · exact .inl (subscriptionOf_responder hold)
      · have hfresh := fresh_of_subscribe hbus
        exact .inr ⟨rfl, hfresh⟩
  | answer => exact hnobody fun p id hid => hid
  | deliver hcall _ _ hsame =>
    exact hnobody fun p id hid => subscriptionOf_setRequest hcall hid hsame.1
  | reply hresponder => exact hnobody fun p id hid => subscriptionOf_setReplying hresponder hid
  | replied hresponder => exact hnobody fun p id hid => subscriptionOf_setReplying hresponder hid
  | cancelReply hresponder =>
    exact hnobody fun p id hid => subscriptionOf_setReplying hresponder hid
  | conclude _ hcall => exact hnobody fun p id hid => subscriptionOf_setRequest hcall hid rfl
  | publishRequest hcall => exact hnobody fun p id hid => subscriptionOf_setRequest hcall hid rfl
  | awaitReply hcall => exact hnobody fun p id hid => subscriptionOf_setRequest hcall hid rfl
  | failRequest hcall => exact hnobody fun p id hid => subscriptionOf_setRequest hcall hid rfl
  | close hcall => exact hnobody fun p id hid => subscriptionOf_setRequest hcall hid rfl
  | dropPublishing hcall => exact hnobody fun p id hid => subscriptionOf_setRequest hcall hid rfl
  | dropAwaiting hcall => exact hnobody fun p id hid => subscriptionOf_setRequest hcall hid rfl

/-- And only a party that publishes has a new publish call. -/
theorem RpcStep.callOf (h : RpcStep config s a s') {p : Party} {m : Nat}
    (hm : s'.callOf p = some m) :
    s.callOf p = some m ∨
      a.party = some p ∧ m = s.bus.calls.length ∧ s'.bus.calls.length = m + 1 := by
  have hpublish : ∀ envelope, (s.bus.publish envelope false).calls.length
      = s.bus.calls.length + 1 := fun envelope => List.length_append
  cases h with
  | bus => exact .inl hm
  | reject => exact .inl hm
  | request =>
    cases p with
    | responder k => exact .inl hm
    | request k =>
      obtain ⟨found, hfound, hm⟩ := Option.bind_eq_some_iff.mp hm
      rcases Calls.getElem?_begin hfound with hold | ⟨rfl, rfl⟩
      · exact .inl (Option.bind_eq_some_iff.mpr ⟨found, hold, hm⟩)
      · cases hm
  | respond =>
    cases p with
    | request k => exact .inl hm
    | responder k =>
      obtain ⟨found, hfound, hm⟩ := Option.bind_eq_some_iff.mp hm
      rcases Calls.getElem?_begin hfound with hold | ⟨rfl, rfl⟩
      · exact .inl (Option.bind_eq_some_iff.mpr ⟨found, hold, hm⟩)
      · cases hm
  | publishRequest hcall =>
    rcases callOf_setRequest hcall hm with hold | ⟨rfl, heq⟩
    · exact .inl hold
    · cases heq
      exact .inr ⟨rfl, rfl, hpublish _⟩
  | reply hresponder =>
    rcases callOf_setReplying hresponder hm with hold | ⟨rfl, heq⟩
    · exact .inl hold
    · cases heq
      exact .inr ⟨rfl, rfl, hpublish _⟩
  | answer => exact .inl hm
  | deliver hcall _ _ hsame => exact .inl (callOf_of_same hcall hm hsame.2.1)
  | replied hresponder => exact .inl (callOf_of_done hresponder hm)
  | cancelReply hresponder => exact .inl (callOf_of_done hresponder hm)
  | conclude _ hcall => exact .inl (callOf_of_same hcall hm rfl)
  | awaitReply hcall => exact .inl (callOf_of_same hcall hm rfl)
  | failRequest hcall => exact .inl (callOf_of_same hcall hm rfl)
  | close hcall => exact .inl (callOf_of_same hcall hm rfl)
  | dropPublishing hcall => exact .inl (callOf_of_same hcall hm rfl)
  | dropAwaiting hcall => exact .inl (callOf_of_same hcall hm rfl)

theorem apart_build (config : EventBusConfig) : (build config).Apart := by
  have hnone : ∀ p id, (build config).subscriptionOf p ≠ some id := by
    intro p id
    cases p <;> simp [subscriptionOf, build]
  have hno : ∀ p m, (build config).callOf p ≠ some m := by
    intro p m
    cases p <;> simp [callOf, build]
  exact ⟨fun p _ id hp => absurd hp (hnone p id), fun p _ m hp => absurd hp (hno p m),
    fun p id hp => absurd hp (hnone p id), fun p m hp => absurd hp (hno p m)⟩

/-- Tasks and publish calls stay. -/
theorem isSome_task_exec {bus bus' : MemoryBus} (h : MemoryBus.exec config bus as = some bus')
    {id : Uuid} (hid : (bus.tasks[id]?).isSome) : (bus'.tasks[id]?).isSome :=
  Transition.invariant (I := fun bus : MemoryBus => (bus.tasks[id]?).isSome)
    (fun _ _ _ hid h => MemoryBus.isSome_task_step h hid) hid h

theorem calls_length_exec {bus bus' : MemoryBus} (h : MemoryBus.exec config bus as = some bus') :
    bus.calls.length ≤ bus'.calls.length := by
  refine Transition.invariant (I := fun t : MemoryBus => bus.calls.length ≤ t.calls.length)
    (fun s b s' hs hstep => ?_) (Nat.le_refl _) h
  have hpublished := congrArg List.length (MemoryBus.published_step hstep)
  simp only [MemoryBus.published, List.length_append, List.length_map] at hpublished
  omega

/-- **Every step** keeps the parties apart. -/
theorem Apart.step (hs : s.Apart) (h : RpcStep config s a s') (hacts : s.Acts config a s' as) :
    s'.Apart := by
  obtain ⟨fresh, hsubscriptions⟩ := h.subscriptionOf
  constructor
  case subscriptions =>
    intro p q id hp hq
    rcases hsubscriptions p id hp with hp | ⟨rfl, hfresh⟩
    · rcases hsubscriptions q id hq with hq | ⟨-, hfresh⟩
      · exact hs.subscriptions p q id hp hq
      · simpa [hfresh.before] using hs.stored p id hp
    · rcases hsubscriptions q id hq with hq | ⟨rfl, -⟩
      · simpa [hfresh.before] using hs.stored q id hq
      · rfl
  case calls =>
    intro p q m hp hq
    rcases h.callOf hp with hp | ⟨hactor, hm, -⟩
    · rcases h.callOf hq with hq | ⟨-, hm, -⟩
      · exact hs.calls p q m hp hq
      · exact absurd (hs.made p m hp) (by omega)
    · rcases h.callOf hq with hq | ⟨hactor', -, -⟩
      · exact absurd (hs.made q m hq) (by omega)
      · exact Option.some.inj (hactor.symm.trans hactor')
  case stored =>
    intro p id hp
    rcases hsubscriptions p id hp with hp | ⟨-, hfresh⟩
    · exact isSome_task_exec hacts.exec (hs.stored p id hp)
    · obtain ⟨channel, htask⟩ := hfresh.after
      rw [htask]
      rfl
  case made =>
    intro p m hp
    rcases h.callOf hp with hp | ⟨-, -, hlength⟩
    · exact Nat.lt_of_lt_of_le (hs.made p m hp) (calls_length_exec hacts.exec)
    · omega

/-! ## One step of each party -/

/-- What has become of a request. -/
inductive RequestChange (s : RpcBus) (a : RpcAction) (s' : RpcBus) (n : Nat)
    (call' : RequestCall) : Prop where
  | same (hcall : s.requests[n]? = some call') (hparty : a.party ≠ some (.request n))
  | begun (hphase : call'.phase = .subscribed)
  | published {envelope : EventEnvelope} (hown : call'.call = some s.bus.calls.length)
      (hphase : call'.phase = .publishing s.bus.calls.length)
      (hbus : s'.bus = s.bus.publish envelope false)
  /-- Its inbox has handled an event. -/
  | kept {call : RequestCall} (hcall : s.requests[n]? = some call)
      (hsame : call'.subscription = call.subscription ∧ call'.call = call.call ∧
        call'.phase = call.phase) (hdropped : a.dropped = none)
  | waiting (hphase : call'.phase = .awaiting ∨ ∃ response, call'.phase = .closing response)
  | ended {bus : MemoryBus} (hover : call'.phase.over = true)
      (hbus : s'.bus = bus.dropHandle call'.subscription)

theorem RpcStep.request_cases (h : RpcStep config s a s') {n : Nat} {call' : RequestCall}
    (hcall' : s'.requests[n]? = some call') : RequestChange s a s' n call' := by
  have hset : ∀ {k : Nat} {call call'' : RequestCall}, s.requests[k]? = some call →
      (s.requests.set k call'')[n]? = some call' → a.party = some (.request k) →
      RequestChange s a s' n call'' → RequestChange s a s' n call' := by
    intro k call call'' hcall hfound hparty hchange
    rcases Calls.getElem?_advance hcall hfound with ⟨-, rfl⟩ | ⟨hne, hold⟩
    · exact hchange
    · refine .same hold fun heq => hne ?_
      cases hparty.symm.trans heq
      rfl
  cases h with
  | bus => exact .same hcall' (by simp [RpcAction.party])
  | reject hasked =>
    refine .same hcall' ?_
    rcases hasked with ⟨_, _, _, _, _, rfl⟩ | ⟨_, _, _, rfl⟩
    · simp [RpcAction.party]
    · simp [RpcAction.party]
  | respond => exact .same hcall' (by simp [RpcAction.party])
  | answer ha =>
    refine .same hcall' ?_
    rcases ha with rfl | ⟨_, _, _, rfl⟩
    · simp [RpcAction.party]
    · simp [RpcAction.party]
  | reply => exact .same hcall' (by simp [RpcAction.party])
  | replied => exact .same hcall' (by simp [RpcAction.party])
  | cancelReply => exact .same hcall' (by simp [RpcAction.party])
  | request =>
    rcases Calls.getElem?_begin hcall' with hold | ⟨-, rfl⟩
    · exact .same hold (by simp [RpcAction.party])
    · exact .begun rfl
  | publishRequest hcall => exact hset hcall hcall' rfl (.published rfl rfl rfl)
  | awaitReply hcall => exact hset hcall hcall' rfl (.waiting (.inl rfl))
  | failRequest hcall => exact hset hcall hcall' rfl (.ended rfl rfl)
  | conclude ha hcall =>
    refine hset hcall hcall' ?_ (.waiting (.inr ⟨_, rfl⟩))
    rcases ha with rfl | rfl
    · rfl
    · rfl
  | close hcall => exact hset hcall hcall' rfl (.ended rfl rfl)
  | dropPublishing hcall => exact hset hcall hcall' rfl (.ended rfl rfl)
  | dropAwaiting hcall => exact hset hcall hcall' rfl (.ended rfl rfl)
  | @deliver k call call'' _ _ hcall _ _ hsame =>
    rcases Calls.getElem?_advance hcall hcall' with ⟨rfl, rfl⟩ | ⟨hne, hold⟩
    · exact .kept hcall hsame rfl
    · exact .same hold (by simp [RpcAction.party, Ne.symm hne])

/-- What has become of a responder that publishes a reply: the step is not its own, or it has
    just begun, with an event that asks for one. -/
theorem RpcStep.replying (h : RpcStep config s a s') {n m : Nat} {responder' : Responder}
    (hresponder' : s'.responders[n]? = some responder') (hm : responder'.replying = some m) :
    (s.responders[n]? = some responder' ∧ a.party ≠ some (.responder n)) ∨
      m = s.bus.calls.length ∧ (∃ envelope, s'.bus = s.bus.publish envelope false) ∧
        ∃ event, s.bus.handling responder'.subscription = some event ∧
          event.envelope.metadata.replyTo.isSome = true := by
  have hset : ∀ {k : Nat} {responder responder'' : Responder},
      s.responders[k]? = some responder → (s.responders.set k responder'')[n]? = some responder' →
      a.party = some (.responder k) → responder'' = responder' ∨
        s.responders[n]? = some responder' ∧ a.party ≠ some (.responder n) := by
    intro k responder responder'' hresponder hfound hparty
    rcases Calls.getElem?_advance hresponder hfound with ⟨-, rfl⟩ | ⟨hne, hold⟩
    · exact .inl rfl
    · refine .inr ⟨hold, fun heq => hne ?_⟩
      cases hparty.symm.trans heq
      rfl
  cases h with
  | bus => exact .inl ⟨hresponder', by simp [RpcAction.party]⟩
  | reject hasked =>
    refine .inl ⟨hresponder', ?_⟩
    rcases hasked with ⟨_, _, _, _, _, rfl⟩ | ⟨_, _, _, rfl⟩
    · simp [RpcAction.party]
    · simp [RpcAction.party]
  | respond =>
    rcases Calls.getElem?_begin hresponder' with hold | ⟨-, rfl⟩
    · exact .inl ⟨hold, by simp [RpcAction.party]⟩
    · cases hm
  | @answer a k responder outcome bus computed ha hresponder hfree =>
    have hne : k ≠ n := by
      rintro rfl
      cases hresponder.symm.trans hresponder'
      cases hfree.symm.trans hm
    refine .inl ⟨hresponder', ?_⟩
    rcases ha with rfl | ⟨_, _, _, rfl⟩
    · simp [RpcAction.party, hne]
    · simp [RpcAction.party, hne]
  | @reply k responder event reply _ _ _ computed hresponder _ hhandling hasks =>
    rcases hset hresponder hresponder' rfl with rfl | hold
    · cases hm
      exact .inr ⟨rfl, ⟨_, rfl⟩, event, hhandling, hasks⟩
    · exact .inl hold
  | replied hresponder =>
    rcases hset hresponder hresponder' rfl with rfl | hold
    · cases hm
    · exact .inl hold
  | cancelReply hresponder =>
    rcases hset hresponder hresponder' rfl with rfl | hold
    · cases hm
    · exact .inl hold
  | conclude ha =>
    refine .inl ⟨hresponder', ?_⟩
    rcases ha with rfl | rfl
    · simp [RpcAction.party]
    · simp [RpcAction.party]
  | _ => exact .inl ⟨hresponder', by simp [RpcAction.party]⟩

theorem party_of_dropped {p : Party} (h : a.dropped = some p) : a.party = some p := by
  cases a <;> first | exact h | cases h

end RpcBus
end TokioEvents

/-
  TokioEvents.Subscription.Untyped

  `subscribe` and `subscribe_untyped` side by side: two subscriptions of the same handler to
  the same type, the same events dispatched in the same order, and the same outcomes of the
  handler's calls.

  The handler tasks are the same but for the metrics.  The entries are not: the untyped one
  has no filter, so its task receives what the handler's `filter()` rejects.
-/

import TokioEvents.Bus.RetryLoop
import TokioEvents.Subscription.Handler

namespace TokioEvents

/-! ## A subscription and its handler task -/

/-- The channel of a subscription and the task that reads it.  A send that waits for room
    counts as sent: the order in the channel is the order of the sends. -/
structure HandlerRun where
  channel : List EventEnvelope
  /-- The event in the retry loop, with its `attempt`. -/
  current : Option (EventEnvelope × Nat)
  /-- How often the handler was called. -/
  handled : Nat
  /-- The task panicked: its receiver is gone. -/
  ended : Bool
  /-- The events the task has received. -/
  received : List EventEnvelope
  /-- What the task has called, and for which event. -/
  trace : List (EventEnvelope × LoopCall)

/-- The subscription begins. -/
def HandlerRun.new : HandlerRun := ⟨[], none, 0, false, [], []⟩

/-- What happens to a subscription. -/
inductive TaskAction where
  /-- `dispatch(envelope)`. -/
  | dispatch (envelope : EventEnvelope)
  /-- One turn of the task: the next attempt, for a received event if none is in the loop. -/
  | round

namespace HandlerRun

section Step

variable (config : EventBusConfig) (metrics : MetricPoint → List LoopCall) (dlq : Bool)
  (outcomes : Nat → EventEnvelope → Outcome)

/-- `handler.handle(&envelope)` and what follows its result. -/
def attempt (r : HandlerRun) (envelope : EventEnvelope) (attempt : Nat) : HandlerRun :=
  let (calls, after) := config.retryRound metrics dlq attempt (outcomes r.handled envelope)
  let r := { r with
    handled := r.handled + 1
    trace := r.trace ++ calls.map fun call => (envelope, call) }
  match after with
  | .leave => { r with current := none }
  | .again attempt => { r with current := some (envelope, attempt) }
  | .panicked => { r with current := none, channel := [], ended := true }

/-- `sender.send(envelope)`: an error, when the receiver is gone, is only logged. -/
def send (r : HandlerRun) (envelope : EventEnvelope) : HandlerRun :=
  if r.ended then r else { r with channel := r.channel ++ [envelope] }

/-- `msg = rx.recv()`. -/
def recv (r : HandlerRun) (envelope : EventEnvelope) (rest : List EventEnvelope) : HandlerRun :=
  { r with channel := rest, received := r.received ++ [envelope] }

/-- A turn of the task. -/
def round (r : HandlerRun) : HandlerRun :=
  if r.ended then r
  else
    match r.current, r.channel with
    | some (envelope, n), _ => r.attempt config metrics dlq outcomes envelope n
    | none, envelope :: rest =>
      (r.recv envelope rest).attempt config metrics dlq outcomes envelope 0
    | none, [] => r

/-- A step of a subscription to this type, with this entry. -/
def step (typeId : TypeId) (entry : SubscriptionEntry) (r : HandlerRun) : TaskAction → HandlerRun
  | .dispatch envelope =>
    if envelope.typeId = typeId ∧ entry.accepts envelope = true then r.send envelope else r
  | .round => r.round config metrics dlq outcomes

/-- A run of the subscription. -/
def run (typeId : TypeId) (entry : SubscriptionEntry) (as : List TaskAction) : HandlerRun :=
  as.foldl (step config metrics dlq outcomes typeId entry) new

theorem run_concat {typeId : TypeId} {entry : SubscriptionEntry} {as : List TaskAction}
    {a : TaskAction} :
    run config metrics dlq outcomes typeId entry (as ++ [a])
      = step config metrics dlq outcomes typeId entry
        (run config metrics dlq outcomes typeId entry as) a := by
  unfold run
  rw [List.foldl_append, List.foldl_cons, List.foldl_nil]

end Step

/-- The calls that others see: of the handler, and the acknowledgements, the dead letters and
    the failures. -/
def isEffect : LoopCall → Bool
  | .handle | .ackEvent | .dlqSend | .markFailed => true
  | .incrementProcessed | .sleep _ | .metric _ => false

def effects (r : HandlerRun) : List (EventEnvelope × LoopCall) :=
  r.trace.filter fun entry => isEffect entry.2

/-! ## The rounds of the two loops -/

section Rounds

variable {config : EventBusConfig} {metrics : MetricPoint → List LoopCall} {dlq : Bool}

/-- A metric is no effect. -/
theorem filter_isEffect (hmetrics : EventBusConfig.OnlyMetrics metrics) (point : MetricPoint) :
    (metrics point).filter isEffect = [] := by
  rw [List.filter_eq_nil_iff]
  intro call hcall
  have hmetric := List.filter_eq_nil_iff.mp (hmetrics point) call hcall
  cases call with
  | metric name => simp [isEffect]
  | handle => simp [LoopCall.isMetric] at hmetric
  | incrementProcessed => simp [LoopCall.isMetric] at hmetric
  | ackEvent => simp [LoopCall.isMetric] at hmetric
  | dlqSend => simp [LoopCall.isMetric] at hmetric
  | markFailed => simp [LoopCall.isMetric] at hmetric
  | sleep backoff => simp [LoopCall.isMetric] at hmetric

/-- **A round does the same whatever it measures.** -/
theorem retryRound_untyped (hmetrics : EventBusConfig.OnlyMetrics metrics) (n : Nat)
    (outcome : Outcome) :
    (config.retryRound metrics dlq n outcome).1.filter isEffect
        = (config.retryRound untypedMetrics dlq n outcome).1.filter isEffect ∧
      (config.retryRound metrics dlq n outcome).2
        = (config.retryRound untypedMetrics dlq n outcome).2 := by
  have hnone := filter_isEffect hmetrics
  have hnone' := filter_isEffect EventBusConfig.onlyMetrics_untyped
  cases outcome with
  | panic => exact ⟨rfl, rfl⟩
  | ok =>
    unfold EventBusConfig.retryRound
    simp [List.filter_cons, List.filter_append, hnone, hnone', isEffect]
  | error =>
    unfold EventBusConfig.retryRound
    cases config.nextAttempt n with
    | none => simp [List.filter_cons, hnone, hnone', isEffect]
    | some n =>
      dsimp only
      split
      · cases dlq <;> simp [List.filter_cons, List.filter_append, hnone, hnone', isEffect]
      · cases config.backoff n <;>
          simp [List.filter_cons, List.filter_append, hnone, hnone', isEffect]

/-- Every round calls the handler. -/
theorem handle_mem_retryRound (n : Nat) (outcome : Outcome) :
    .handle ∈ (config.retryRound metrics dlq n outcome).1 := by
  unfold EventBusConfig.retryRound
  cases outcome with
  | panic => simp
  | ok => simp
  | error =>
    dsimp only
    split
    · simp
    · split
      · simp
      · split <;> simp

end Rounds

/-! ## The untyped subscription follows the typed one -/

section Agreement

variable {config : EventBusConfig} {metrics : MetricPoint → List LoopCall} {dlq : Bool}
  {outcomes : Nat → EventEnvelope → Outcome} {typeId : TypeId} {σ : Type}

/-- The typed subscription is where the untyped one is, without what the filter rejects. -/
structure Follows (accepts : EventEnvelope → Bool) (untyped typed : HandlerRun) : Prop where
  channel : typed.channel = untyped.channel.filter accepts
  current : typed.current = untyped.current
  handled : typed.handled = untyped.handled
  ended : typed.ended = untyped.ended
  effects : typed.effects = untyped.effects

/-- An attempt for the same event keeps the two together. -/
theorem Follows.attempt {accepts : EventEnvelope → Bool} {untyped typed : HandlerRun}
    (h : Follows accepts untyped typed) (hmetrics : EventBusConfig.OnlyMetrics metrics)
    (envelope : EventEnvelope) (n : Nat) :
    Follows accepts (untyped.attempt config untypedMetrics dlq outcomes envelope n)
      (typed.attempt config metrics dlq outcomes envelope n) := by
  have hround : (config.retryRound metrics dlq n _).1.filter isEffect = _ ∧ _ :=
    retryRound_untyped hmetrics n (outcomes untyped.handled envelope)
  obtain ⟨hcalls, hafter⟩ := hround
  have heffects : ∀ calls calls' : List LoopCall,
      calls.filter isEffect = calls'.filter isEffect →
      (typed.trace ++ calls.map fun call => (envelope, call)).filter (fun x => isEffect x.2)
        = (untyped.trace ++ calls'.map fun call => (envelope, call)).filter
          (fun x => isEffect x.2) := by
    intro calls calls' heq
    have htrace := h.effects
    change typed.trace.filter _ = untyped.trace.filter _ at htrace
    rw [List.filter_append, List.filter_append, List.filter_map, List.filter_map, htrace]
    show _ ++ (calls.filter isEffect).map _ = _ ++ (calls'.filter isEffect).map _
    rw [heq]
  unfold HandlerRun.attempt
  rw [h.handled]
  generalize config.retryRound metrics dlq n (outcomes untyped.handled envelope) = typedRound
    at hcalls hafter
  generalize config.retryRound untypedMetrics dlq n (outcomes untyped.handled envelope)
    = untypedRound at hcalls hafter
  obtain ⟨calls, after⟩ := typedRound
  obtain ⟨calls', after'⟩ := untypedRound
  cases hafter
  dsimp only at hcalls ⊢
  cases after with
  | leave => exact ⟨h.channel, rfl, rfl, h.ended, heffects _ _ hcalls⟩
  | again m => exact ⟨h.channel, rfl, rfl, h.ended, heffects _ _ hcalls⟩
  | panicked => exact ⟨rfl, rfl, rfl, rfl, heffects _ _ hcalls⟩

theorem received_attempt (r : HandlerRun) (envelope : EventEnvelope) (n : Nat) :
    (r.attempt config metrics dlq outcomes envelope n).received = r.received := by
  unfold HandlerRun.attempt
  dsimp only
  split <;> rfl

theorem received_send (r : HandlerRun) (envelope : EventEnvelope) :
    (r.send envelope).received = r.received := by
  unfold HandlerRun.send
  split <;> rfl

/-- What was received stays received. -/
theorem received_subset_step {entry : SubscriptionEntry} (r : HandlerRun) (a : TaskAction) :
    r.received ⊆ (r.step config metrics dlq outcomes typeId entry a).received := by
  intro e he
  cases a with
  | dispatch envelope =>
    show e ∈ (if _ then r.send envelope else r).received
    split
    · rwa [received_send]
    · exact he
  | round =>
    show e ∈ (r.round config metrics dlq outcomes).received
    unfold HandlerRun.round
    split
    · exact he
    · split
      · rwa [received_attempt]
      · rw [received_attempt]
        exact List.mem_append_left _ he
      · exact he

/-- An event that the filter accepts enters both channels. -/
theorem Follows.send {accepts : EventEnvelope → Bool} {untyped typed : HandlerRun}
    (h : Follows accepts untyped typed) {envelope : EventEnvelope}
    (hacc : accepts envelope = true) :
    Follows accepts (untyped.send envelope) (typed.send envelope) := by
  unfold HandlerRun.send
  rw [h.ended]
  split
  · exact h
  · refine ⟨?_, h.current, h.handled, rfl, h.effects⟩
    show typed.channel ++ [envelope] = (untyped.channel ++ [envelope]).filter accepts
    rw [List.filter_append, List.filter_cons_of_pos hacc, List.filter_nil, h.channel]

/-- One that it rejects enters the channel of the untyped subscription only. -/
theorem Follows.send_left {accepts : EventEnvelope → Bool} {untyped typed : HandlerRun}
    (h : Follows accepts untyped typed) {envelope : EventEnvelope}
    (hrej : accepts envelope = false) : Follows accepts (untyped.send envelope) typed := by
  unfold HandlerRun.send
  split
  · exact h
  · refine ⟨?_, h.current, h.handled, h.ended, h.effects⟩
    show typed.channel = (untyped.channel ++ [envelope]).filter accepts
    rw [List.filter_append, List.filter_cons_of_neg (by simp [hrej]), List.filter_nil,
      List.append_nil, h.channel]

/-- Both receive an event. -/
theorem Follows.recv {accepts : EventEnvelope → Bool} {untyped typed : HandlerRun}
    (h : Follows accepts untyped typed) (envelope : EventEnvelope) (rest : List EventEnvelope) :
    Follows accepts (untyped.recv envelope rest) (typed.recv envelope (rest.filter accepts)) :=
  ⟨rfl, h.current, h.handled, h.ended, h.effects⟩

/-- A turn for an event that the filter accepts keeps the two together. -/
theorem Follows.round {accepts : EventEnvelope → Bool} {untyped typed : HandlerRun}
    (h : Follows accepts untyped typed) (hmetrics : EventBusConfig.OnlyMetrics metrics)
    (haccepts : ∀ e ∈ (untyped.round config untypedMetrics dlq outcomes).received,
      accepts e = true) :
    Follows accepts (untyped.round config untypedMetrics dlq outcomes)
      (typed.round config metrics dlq outcomes) := by
  unfold HandlerRun.round at haccepts ⊢
  rw [h.ended, h.current, h.channel]
  cases hended : untyped.ended with
  | true => exact h
  | false =>
    rw [hended] at haccepts
    simp only [Bool.false_eq_true, if_false] at haccepts ⊢
    cases hcurrent : untyped.current with
    | some work => exact h.attempt hmetrics work.1 work.2
    | none =>
      rw [hcurrent] at haccepts
      cases hchannel : untyped.channel with
      | nil => exact h
      | cons envelope rest =>
        rw [hchannel] at haccepts
        have hacc : accepts envelope = true := by
          refine haccepts envelope ?_
          show envelope ∈ (HandlerRun.attempt _ _ _ _ _ _ _).received
          rw [received_attempt]
          exact List.mem_append_right _ (List.mem_singleton_self _)
        rw [List.filter_cons_of_pos hacc]
        exact (h.recv envelope rest).attempt hmetrics envelope 0

/-- **A step keeps the two together** as long as the untyped subscription receives nothing
    that the filter rejects. -/
theorem Follows.step {accepts : EventEnvelope → Bool} {untypedEntry typedEntry : SubscriptionEntry}
    {untyped typed : HandlerRun} (h : Follows accepts untyped typed)
    (hmetrics : EventBusConfig.OnlyMetrics metrics)
    (hall : ∀ e, untypedEntry.accepts e = true) (hfilter : ∀ e, typedEntry.accepts e = accepts e)
    (a : TaskAction)
    (haccepts : ∀ e ∈ (untyped.step config untypedMetrics dlq outcomes typeId untypedEntry
      a).received, accepts e = true) :
    Follows accepts (untyped.step config untypedMetrics dlq outcomes typeId untypedEntry a)
      (typed.step config metrics dlq outcomes typeId typedEntry a) := by
  cases a with
  | dispatch envelope =>
    unfold HandlerRun.step
    simp only [hall, hfilter, and_true]
    by_cases htype : envelope.typeId = typeId
    · rw [if_pos htype]
      cases hacc : accepts envelope with
      | true =>
        rw [if_pos ⟨htype, rfl⟩]
        exact h.send hacc
      | false =>
        rw [if_neg fun hboth => Bool.false_ne_true hboth.2]
        exact h.send_left hacc
    · rw [if_neg htype, if_neg fun hboth => htype hboth.1]
      exact h
  | round => exact h.round hmetrics haccepts

/-- A run of both. -/
theorem follows_run {accepts : EventEnvelope → Bool} {untypedEntry typedEntry : SubscriptionEntry}
    (hmetrics : EventBusConfig.OnlyMetrics metrics)
    (hall : ∀ e, untypedEntry.accepts e = true) (hfilter : ∀ e, typedEntry.accepts e = accepts e)
    (as : List TaskAction)
    (haccepts : ∀ e ∈ (run config untypedMetrics dlq outcomes typeId untypedEntry as).received,
      accepts e = true) :
    Follows accepts (run config untypedMetrics dlq outcomes typeId untypedEntry as)
      (run config metrics dlq outcomes typeId typedEntry as) := by
  induction as using List.reverseRecOn with
  | nil => exact ⟨rfl, rfl, rfl, rfl, rfl⟩
  | append_singleton as a ih =>
    rw [run_concat] at haccepts
    rw [run_concat, run_concat]
    refine (ih fun e he => haccepts e ?_).step hmetrics hall hfilter a haccepts
    exact received_subset_step _ a he

/-! ## What the traces tell -/

/-- The subscription deals only with events that the filter accepts. -/
structure OnlyAccepted (accepts : EventEnvelope → Bool) (r : HandlerRun) : Prop where
  channel : ∀ e ∈ r.channel, accepts e = true
  current : ∀ work, r.current = some work → accepts work.1 = true
  trace : ∀ x ∈ r.trace, accepts x.1 = true

theorem OnlyAccepted.attempt {accepts : EventEnvelope → Bool} {r : HandlerRun}
    (h : OnlyAccepted accepts r) {envelope : EventEnvelope} (hacc : accepts envelope = true)
    (n : Nat) : OnlyAccepted accepts (r.attempt config metrics dlq outcomes envelope n) := by
  have htrace : ∀ calls : List LoopCall, ∀ x ∈ r.trace ++ calls.map fun call => (envelope, call),
      accepts x.1 = true := by
    intro calls x hx
    rcases List.mem_append.mp hx with hold | hnew
    · exact h.trace x hold
    · obtain ⟨call, -, rfl⟩ := List.mem_map.mp hnew
      exact hacc
  unfold HandlerRun.attempt
  dsimp only
  split
  · exact ⟨h.channel, fun _ hnone => (Option.some_ne_none _ hnone.symm).elim, htrace _⟩
  · refine ⟨h.channel, fun work hwork => ?_, htrace _⟩
    cases hwork
    exact hacc
  · refine ⟨fun _ he => ?_, fun _ hnone => (Option.some_ne_none _ hnone.symm).elim, htrace _⟩
    cases he

theorem OnlyAccepted.step {accepts : EventEnvelope → Bool} {r : HandlerRun}
    (h : OnlyAccepted accepts r) {entry : SubscriptionEntry}
    (hfilter : ∀ e, entry.accepts e = accepts e) (a : TaskAction) :
    OnlyAccepted accepts (r.step config metrics dlq outcomes typeId entry a) := by
  cases a with
  | dispatch envelope =>
    unfold HandlerRun.step
    dsimp only
    split
    · rename_i hadmitted
      unfold HandlerRun.send
      split
      · exact h
      · refine ⟨fun e he => ?_, h.current, h.trace⟩
        rcases List.mem_append.mp he with hold | hnew
        · exact h.channel e hold
        · rw [List.mem_singleton.mp hnew, ← hfilter]
          exact hadmitted.2
    · exact h
  | round =>
    show OnlyAccepted accepts (r.round config metrics dlq outcomes)
    unfold HandlerRun.round
    split
    · exact h
    · split
      · rename_i work n hwork
        exact h.attempt (h.current _ hwork) n
      · rename_i envelope rest hnone hchannel
        have hrecv : OnlyAccepted accepts (r.recv envelope rest) :=
          ⟨fun e he => h.channel e (hchannel ▸ List.mem_cons_of_mem _ he), h.current, h.trace⟩
        exact hrecv.attempt (h.channel envelope (hchannel ▸ List.mem_cons_self)) 0
      · exact h

theorem onlyAccepted_run {accepts : EventEnvelope → Bool} {entry : SubscriptionEntry}
    (hfilter : ∀ e, entry.accepts e = accepts e) (as : List TaskAction) :
    OnlyAccepted accepts (run config metrics dlq outcomes typeId entry as) := by
  induction as using List.reverseRecOn with
  | nil =>
    refine ⟨fun _ he => ?_, fun _ hnone => (Option.some_ne_none _ hnone.symm).elim, fun _ hx => ?_⟩
    · cases he
    · cases hx
  | append_singleton as a ih =>
    rw [run_concat]
    exact ih.step hfilter a

/-- Every received event was handed to the handler. -/
def HandlesReceived (r : HandlerRun) : Prop := ∀ e ∈ r.received, (e, .handle) ∈ r.trace

theorem mem_trace_attempt (r : HandlerRun) (envelope : EventEnvelope) (n : Nat) :
    r.trace ⊆ (r.attempt config metrics dlq outcomes envelope n).trace ∧
      (envelope, .handle) ∈ (r.attempt config metrics dlq outcomes envelope n).trace := by
  have hhandle : .handle
      ∈ (config.retryRound metrics dlq n (outcomes r.handled envelope)).1 :=
    handle_mem_retryRound n _
  have htrace : (r.attempt config metrics dlq outcomes envelope n).trace
      = r.trace ++ (config.retryRound metrics dlq n (outcomes r.handled envelope)).1.map
        fun call => (envelope, call) := by
    unfold HandlerRun.attempt
    dsimp only
    split <;> rfl
  rw [htrace]
  exact ⟨List.subset_append_left _ _,
    List.mem_append_right _ (List.mem_map.mpr ⟨_, hhandle, rfl⟩)⟩

theorem HandlesReceived.step {r : HandlerRun} (h : HandlesReceived r) {entry : SubscriptionEntry}
    (a : TaskAction) :
    HandlesReceived (r.step config metrics dlq outcomes typeId entry a) := by
  cases a with
  | dispatch envelope =>
    unfold HandlerRun.step HandlerRun.send
    dsimp only
    split
    · split
      · exact h
      · exact h
    · exact h
  | round =>
    show HandlesReceived (r.round config metrics dlq outcomes)
    unfold HandlerRun.round
    split
    · exact h
    · split
      · rename_i envelope n hwork
        obtain ⟨hkeeps, -⟩ := r.mem_trace_attempt envelope n
        intro e he
        rw [received_attempt] at he
        exact hkeeps (h e he)
      · rename_i envelope rest hnone hchannel
        obtain ⟨hkeeps, hhandled⟩ := (r.recv envelope rest).mem_trace_attempt envelope 0
        intro e he
        rw [received_attempt] at he
        rcases List.mem_append.mp he with hold | hnew
        · exact hkeeps (h e hold)
        · rw [List.mem_singleton.mp hnew]
          exact hhandled
      · exact h

theorem handlesReceived_run {entry : SubscriptionEntry} (as : List TaskAction) :
    HandlesReceived (run config metrics dlq outcomes typeId entry as) := by
  induction as using List.reverseRecOn with
  | nil =>
    intro e he
    cases he
  | append_singleton as a ih =>
    rw [run_concat]
    exact ih.step a

/-- The events of a run that are dispatched to the type. -/
def dispatched (typeId : TypeId) (as : List TaskAction) : List EventEnvelope :=
  as.filterMap fun
    | .dispatch envelope => if envelope.typeId = typeId then some envelope else none
    | .round => none

/-- What was sent to a task that has not panicked is received or in the channel. -/
def KeepsSent (sent : List EventEnvelope) (r : HandlerRun) : Prop :=
  r.ended = false → r.received ++ r.channel = sent

theorem KeepsSent.attempt {sent : List EventEnvelope} {r : HandlerRun} (h : KeepsSent sent r)
    (envelope : EventEnvelope) (n : Nat) :
    KeepsSent sent (r.attempt config metrics dlq outcomes envelope n) := by
  unfold HandlerRun.attempt
  dsimp only
  split
  · exact h
  · exact h
  · intro hended
    cases hended

theorem KeepsSent.send {sent : List EventEnvelope} {r : HandlerRun} (h : KeepsSent sent r)
    (envelope : EventEnvelope) : KeepsSent (sent ++ [envelope]) (r.send envelope) := by
  unfold HandlerRun.send
  split
  · rename_i hpanicked
    intro hended
    cases hpanicked.symm.trans hended
  · intro hended
    show r.received ++ (r.channel ++ [envelope]) = sent ++ [envelope]
    rw [← List.append_assoc, h hended]

theorem KeepsSent.step {sent : List EventEnvelope} {r : HandlerRun} (h : KeepsSent sent r)
    {entry : SubscriptionEntry} (hall : ∀ e, entry.accepts e = true) (a : TaskAction) :
    KeepsSent (sent ++ dispatched typeId [a])
      (r.step config metrics dlq outcomes typeId entry a) := by
  cases a with
  | dispatch envelope =>
    unfold HandlerRun.step
    simp only [hall, and_true]
    by_cases htype : envelope.typeId = typeId
    · have hsent : dispatched typeId [.dispatch envelope] = [envelope] := by
        simp [dispatched, htype]
      rw [if_pos htype, hsent]
      exact h.send envelope
    · have hsent : dispatched typeId [.dispatch envelope] = [] := by
        simp [dispatched, htype]
      rw [if_neg htype, hsent, List.append_nil]
      exact h
  | round =>
    show KeepsSent (sent ++ []) (r.round config metrics dlq outcomes)
    rw [List.append_nil]
    unfold HandlerRun.round
    split
    · exact h
    · split
      · exact h.attempt _ _
      · rename_i envelope rest hnone hchannel
        refine KeepsSent.attempt (fun hended => ?_) envelope 0
        show (r.received ++ [envelope]) ++ rest = sent
        rw [List.append_assoc, List.singleton_append, ← hchannel]
        exact h hended
      · exact h

end Agreement

/-! ## The two ways to subscribe -/

section Subscribed

open SubscriptionManager

variable {σ : Type} (config : EventBusConfig) (dlq : Bool)
  (outcomes : Nat → EventEnvelope → Outcome) (typeId : TypeId) (typeName : String)

/-- A run of the subscription that `subscribe` makes. -/
def subscribed (metricsFeature : Bool) (handler : EventHandler σ) (id : Uuid)
    (as : List TaskAction) : HandlerRun :=
  run config (typedMetrics metricsFeature) dlq outcomes typeId
    (typedEntry id ("Handler<" ++ typeName ++ ">") none handler) as

/-- A run of the subscription that `subscribe_untyped` makes. -/
def subscribedUntyped (id : Uuid) (as : List TaskAction) : HandlerRun :=
  run config untypedMetrics dlq outcomes typeId (untypedEntry id typeName) as

/-- **`subscribe_untyped` and `subscribe`** have the same effects in a run exactly if the
    filter of the handler accepts every event that the untyped subscription receives. -/
theorem subscribedUntyped_effects_iff (metricsFeature : Bool) (handler : EventHandler σ)
    (id id' : Uuid) (as : List TaskAction) :
    (subscribedUntyped config dlq outcomes typeId typeName id' as).effects
        = (subscribed config dlq outcomes typeId typeName metricsFeature handler id as).effects
      ↔ ∀ e ∈ (subscribedUntyped config dlq outcomes typeId typeName id' as).received,
          handler.accepts e = true := by
  constructor
  · intro heffects e he
    -- its handler was called for the event, and the other one's for accepted events only
    have hhandled : (e, LoopCall.handle)
        ∈ (subscribedUntyped config dlq outcomes typeId typeName id' as).effects :=
      List.mem_filter.mpr ⟨handlesReceived_run as e he, rfl⟩
    rw [heffects] at hhandled
    have honly : OnlyAccepted handler.accepts
        (subscribed config dlq outcomes typeId typeName metricsFeature handler id as) :=
      onlyAccepted_run (typedEntry_accepts id _ none handler) as
    exact honly.trace _ (List.mem_filter.mp hhandled).1
  · intro haccepts
    exact (follows_run (EventBusConfig.onlyMetrics_typed metricsFeature)
      (untypedEntry_accepts id' typeName) (typedEntry_accepts id _ none handler) as
        haccepts).effects.symm

/-- Until its task panics, the untyped subscription receives whatever is dispatched to the
    type, in this order, but for what is still in its channel. -/
theorem keepsSent_subscribedUntyped (id : Uuid) (as : List TaskAction) :
    KeepsSent (dispatched typeId as)
      (subscribedUntyped config dlq outcomes typeId typeName id as) := by
  induction as using List.reverseRecOn with
  | nil => exact fun _ => rfl
  | append_singleton as a ih =>
    have hsent : dispatched typeId (as ++ [a]) = dispatched typeId as ++ dispatched typeId [a] :=
      List.filterMap_append
    unfold subscribedUntyped
    rw [run_concat, hsent]
    exact ih.step (untypedEntry_accepts id typeName) a

/-- A handler that is not to see any order. -/
def dropsOrders : EventHandler Unit where
  handle _ s := (.ok (), s)
  filter := some fun _ => false

/-- One order is dispatched, and the tasks have a turn. -/
def orderDispatched : List TaskAction := [.dispatch orderEnvelope, .round]

/-- The untyped subscription handles the order that the filter rejects. -/
theorem subscribedUntyped_effects_orderDispatched :
    (subscribedUntyped {} true (fun _ _ => .ok) 1 "OrderEvent" 11 orderDispatched).effects
        = [(orderEnvelope, .handle), (orderEnvelope, .ackEvent)] ∧
      (subscribed {} true (fun _ _ => .ok) 1 "OrderEvent" false dropsOrders 10
        orderDispatched).effects = [] := ⟨rfl, rfl⟩

theorem not_subscribedUntyped_effects_dropsOrders :
    (subscribedUntyped {} true (fun _ _ => .ok) 1 "OrderEvent" 11 orderDispatched).effects
      ≠ (subscribed {} true (fun _ _ => .ok) 1 "OrderEvent" false dropsOrders 10
        orderDispatched).effects := by
  intro h
  rw [subscribedUntyped_effects_orderDispatched.1, subscribedUntyped_effects_orderDispatched.2] at h
  cases h

end Subscribed

end HandlerRun
end TokioEvents

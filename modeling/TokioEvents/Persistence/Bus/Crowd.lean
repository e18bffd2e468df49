/-
  TokioEvents.Persistence.Bus.Crowd

  A type with a crowd of subscriptions of which one is served by a handler, and the way
  of a single message through the bus to this handler.
-/

import TokioEvents.Persistence.Bus.Log
import TokioEvents.Persistence.WriteAhead

namespace TokioEvents
namespace PersistentBus

variable {json : SerdeJson} {s : PersistentBus} {log : Log}

/-- The bus is idle, and so is the handler of the subscription. -/
structure Ready (s : PersistentBus) (i : Uuid) : Prop where
  worker : s.worker = .receiving
  running : s.isRunning = true
  sender : s.sender = true
  exclusive : s.exclusive = false
  queue : s.queue = .new 10000
  channel : s.manager.subscriptions[i]? = some ⟨[], true⟩
  idle : s.busy[i]? = none

/-- A message is published, counted, written, dispatched to one subscription, and given up
    by its handler; no other handler is waited for. -/
def oneMessage (envelope : EventEnvelope) (i : Uuid) : List Action :=
  [.publisher (.dispatch envelope), .worker .recv, .worker (.check fun _ => true),
    .worker (.count 0), .worker (.write noFaults), .worker (.deliver 0), .worker (.push i),
    .worker .dispatched, .worker (.deliver 0), .handler (.take i), .handler (.complete i false)]

/-- A batch that is being counted is this message. -/
def Alone (s : PersistentBus) (counted : Counted) : Prop :=
  ∀ done rest, s.worker = .counting done rest →
    (done = [] ∧ rest = [counted.msg]) ∨ (done = [counted] ∧ rest = [])

theorem writeResult_noFaults (json : SerdeJson) (done : List Counted) :
    writeResult json noFaults done = .committed := by
  unfold writeResult
  split
  · rfl
  · exact writeOutcome_eq_committed.mpr fun _ _ => rfl

theorem write_noFaults (json : SerdeJson) {done : List Counted}
    (hphase : s.worker = .counting done []) :
    ∃ history, s.write json noFaults = some { s with
      db := s.db.insertRows (rowsOf json done)
      worker := .delivering (done.map (·.msg))
      history := history } := by
  have hresult := writeResult_noFaults json done
  have hsome : ∃ s', s.write json noFaults = some s' := by
    unfold write
    rw [hphase]
    dsimp only
    cases (if (rowsOf json done).isEmpty = true then (WriteOutcome.committed, s.db)
      else joinWrite s.db (writeTxn noFaults s.db (rowsOf json done))) with
    | mk outcome db => cases outcome <;> exact ⟨_, rfl⟩
  obtain ⟨s', hs'⟩ := hsome
  obtain ⟨done', hphase', ⟨-, rfl⟩ | ⟨msg, hfailed, -⟩ | ⟨hpanicked, -⟩⟩ := write_cases hs'
  · rw [hphase] at hphase'
    cases hphase'
    exact ⟨_, hs'⟩
  · rw [hphase] at hphase'
    cases hphase'
    rw [hresult] at hfailed
    cases hfailed
  · rw [hphase] at hphase'
    cases hphase'
    rw [hresult] at hpanicked
    cases hpanicked

/-- What the message leaves in the state. -/
structure After (s' s : PersistentBus) (json : SerdeJson) (envelope : EventEnvelope) (i : Uuid) :
    Prop where
  ready : s'.Ready i
  db : s'.db = s.db.insertRows
    (rowsOf json [⟨⟨envelope, none⟩, s.manager.registry.subCount envelope, 0⟩])
  registry : s'.manager.registry =
    { s.manager.registry with ackTx := s.manager.registry.ackTx ++ [(envelope.eventId, false)] }
  channels : ∀ j : Uuid, (s'.manager.subscriptions[j]?).isSome
    = (s.manager.subscriptions[j]?).isSome

/-- What the message leaves in the log. -/
structure LoggedAfter (log' log : Log) (s : PersistentBus) (json : SerdeJson)
    (envelope : EventEnvelope) (i : Uuid) : Prop where
  published : log'.published = log.published ++ [envelope.eventId]
  counted : log'.counted = log.counted ++ withEvent (s.listed envelope.typeId) envelope.eventId
  committed : log'.committed = log.committed ++
    ((rowsOf json [⟨⟨envelope, none⟩, s.manager.registry.subCount envelope, 0⟩]).filter
      fun row => !row.isScheduled).map (·.id)
  finished : log'.finished = log.finished ++ [(i, envelope.eventId)]
  keys : log'.keys = log.keys ++ envelope.metadata.idempotencyKey.toList
  invoked : log'.invoked
    = log.invoked ++ (envelope.metadata.idempotencyKey.map (i, ·)).toList

/-- The steps of a run, each with its condition. -/
theorem exec_oneMessage (json : SerdeJson) (log : Log) (envelope : EventEnvelope) {i : Uuid}
    {C : PersistentBus × Log → Action → Prop} (h : s.Ready i)
    (hdue : envelope.metadata.deliverAt = none)
    (hfresh : ∀ k, envelope.metadata.idempotencyKey = some k → s.db.keyRecorded k = false)
    (hsenders : s.manager.senders envelope = [i])
    (hfirst : C (s, log) (.publisher (.dispatch envelope)))
    (hC : ∀ a ∈ (oneMessage envelope i).tail, ∀ t : PersistentBus × Log,
      t.1.manager.registry = s.manager.registry →
      t.1.Alone ⟨⟨envelope, none⟩, s.manager.registry.subCount envelope, 0⟩ → C t a) :
    ∃ s' log', Transition.exec (stepLogged json {}) (s, log) (oneMessage envelope i)
        = some (s', log') ∧
      Transition.Along (stepLogged json {}) C (s, log) (oneMessage envelope i) ∧
      s'.After s json envelope i ∧ LoggedAfter log' log s json envelope i := by
  set n := s.manager.registry.subCount envelope
  obtain ⟨s₁, hs₁⟩ : ∃ s₁, s₁ = { s with
      nextCall := s.nextCall + 1
      queue := (Mpsc.Channel.new 10000).push ⟨envelope, none⟩
      returned := s.returned ++ [(s.nextCall, (.ok () : Except Error Unit))] } := ⟨_, rfl⟩
  have h₁ : step json {} s (.publisher (.dispatch envelope)) = some s₁ := by
    simp [hs₁, step, stepPublisher, dispatch, finish, h.exclusive, h.running, h.sender, h.queue,
      Mpsc.Channel.trySend, Mpsc.Channel.new]
  obtain ⟨s₂, hs₂⟩ : ∃ s₂, s₂ = { s₁ with
      worker := .draining [⟨envelope, none⟩], queue := .new 10000 } := ⟨_, rfl⟩
  have h₂ : step json {} s₁ (.worker .recv) = some s₂ := by
    simp [hs₂, hs₁, step, stepWorker, recv, h.worker, h.running, Mpsc.Channel.push,
      Mpsc.Channel.new]
  have hdup : DupCheck.isDuplicate (fun key => s.db.keyRecorded key) ∅
      envelope.metadata.idempotencyKey = false := by
    cases hkey : envelope.metadata.idempotencyKey with
    | none => rfl
    | some k => simp [DupCheck.isDuplicate, hfresh k hkey]
  obtain ⟨s₃, hs₃⟩ : ∃ s₃, s₃ = { s₂ with worker := .counting [] [⟨envelope, none⟩] } := ⟨_, rfl⟩
  have h₃ : step json {} s₂ (.worker (.check fun _ => true)) = some s₃ := by
    simp [hs₃, hs₂, hs₁, step, stepWorker, check, DupCheck.run, DupCheck.step, hdup,
      RedbDispatcherMessage.idempotencyKey, Mpsc.Channel.new]
  obtain ⟨s₄, h₄, hs₄⟩ : ∃ s₄, step json {} s₃ (.worker (.count 0)) = some s₄ ∧
      ∃ history, s₄ = { s₃ with
        worker := .counting [⟨⟨envelope, none⟩, n, 0⟩] [], history := history } :=
    ⟨_, by simp [hs₃, hs₂, hs₁, step, stepWorker, count, SubscriptionManager.subCount_redb, n]; rfl,
      _, rfl⟩
  obtain ⟨history₄, hs₄⟩ := hs₄
  obtain ⟨s₅, h₅, hs₅⟩ : ∃ s₅, step json {} s₄ (.worker (.write noFaults)) = some s₅ ∧
      ∃ history, s₅ = { s₄ with
        db := s₄.db.insertRows (rowsOf json [⟨⟨envelope, none⟩, n, 0⟩])
        worker := .delivering [⟨envelope, none⟩], history := history } := by
    have hcounting : s₄.worker = .counting [⟨⟨envelope, none⟩, n, 0⟩] [] := by rw [hs₄]
    obtain ⟨history, h⟩ := write_noFaults json hcounting
    exact ⟨_, h, history, rfl⟩
  obtain ⟨history₅, hs₅⟩ := hs₅
  have hunscheduled : envelope.isScheduled 0 = false := by
    simp [EventEnvelope.isScheduled, hdue]
  obtain ⟨s₆, hs₆⟩ : ∃ s₆, s₆ = { s₅ with
      worker := .dispatching envelope [i] []
      history := { s₅.history with
        handed := s₅.history.handed ++ [envelope.eventId] } } := ⟨_, rfl⟩
  have h₆ : step json {} s₅ (.worker (.deliver 0)) = some s₆ := by
    simp [hs₆, hs₅, hs₄, hs₃, hs₂, hs₁, step, stepWorker, deliver, hunscheduled, hsenders]
  obtain ⟨s₇, hs₇⟩ : ∃ s₇, s₇ = { s₆ with
      worker := .dispatching envelope [] []
      manager := { s₆.manager with
        subscriptions := s₆.manager.subscriptions.insert i ⟨[envelope], true⟩ } } := ⟨_, rfl⟩
  have hchannel : s₆.manager.subscriptions[i]? = some ⟨[], true⟩ := by
    simp [hs₆, hs₅, hs₄, hs₃, hs₂, hs₁, h.channel]
  have h₇ : step json {} s₆ (.worker (.push i)) = some s₇ := by
    have hphase : s₆.worker = .dispatching envelope [i] [] := by rw [hs₆]
    simp [hs₇, step, stepWorker, push, hphase, hchannel, SubscriptionManager.push]
  obtain ⟨s₈, hs₈⟩ : ∃ s₈, s₈ = { s₇ with worker := .delivering [] } := ⟨_, rfl⟩
  have h₈ : step json {} s₇ (.worker .dispatched) = some s₈ := by
    simp [hs₈, hs₇, step, stepWorker, dispatched]
  obtain ⟨s₉, hs₉⟩ : ∃ s₉, s₉ = { s₈ with worker := .receiving } := ⟨_, rfl⟩
  have h₉ : step json {} s₈ (.worker (.deliver 0)) = some s₉ := by
    simp [hs₉, hs₈, step, stepWorker, deliver]
  obtain ⟨s₁₀, hs₁₀⟩ : ∃ s₁₀, s₁₀ = { s₉ with
      manager := { s₉.manager with
        subscriptions := s₉.manager.subscriptions.insert i ⟨[], true⟩ }
      busy := s₉.busy.insert i envelope } := ⟨_, rfl⟩
  have h₁₀ : step json {} s₉ (.handler (.take i)) = some s₁₀ := by
    have hidle : s₉.busy[i]? = none := by
      simp [hs₉, hs₈, hs₇, hs₆, hs₅, hs₄, hs₃, hs₂, hs₁, h.idle]
    have hfull : s₉.manager.subscriptions[i]? = some ⟨[envelope], true⟩ := by
      simp [hs₉, hs₈, hs₇]
    simp [hs₁₀, step, stepHandler, handlerTake, hidle, hfull]
  obtain ⟨s₁₁, hs₁₁⟩ : ∃ s₁₁, s₁₁ = { s₁₀ with
      manager := { s₁₀.manager with registry := { s₁₀.manager.registry with
        ackTx := s₁₀.manager.registry.ackTx ++ [(envelope.eventId, false)] } }
      busy := s₁₀.busy.erase i } := ⟨_, rfl⟩
  have hbusy : s₁₀.busy[i]? = some envelope := by simp [hs₁₀]
  have h₁₁ : step json {} s₁₀ (.handler (.complete i false)) = some s₁₁ := by
    simp [hs₁₁, step, stepHandler, handlerComplete, hbusy, EventRegistry.markFailed]
  have hidle : ∀ {t : PersistentBus}, (∀ done rest, t.worker ≠ .counting done rest) →
      t.Alone ⟨⟨envelope, none⟩, n, 0⟩ := fun h done rest hphase => absurd hphase (h done rest)
  have hcounting : s₃.Alone ⟨⟨envelope, none⟩, n, 0⟩ := by
    intro done rest hphase
    rw [hs₃] at hphase
    cases hphase
    exact .inl ⟨rfl, rfl⟩
  have hcounted : s₄.Alone ⟨⟨envelope, none⟩, n, 0⟩ := by
    intro done rest hphase
    rw [hs₄] at hphase
    cases hphase
    exact .inr ⟨rfl, rfl⟩
  have hC' : ∀ a ∈ (oneMessage envelope i).tail, ∀ (t : PersistentBus) (log : Log),
      t.manager.registry = s.manager.registry → t.Alone ⟨⟨envelope, none⟩, n, 0⟩ →
      C (t, log) a := fun a ha t log => hC a ha (t, log)
  have hregistry₃ : s₃.manager.registry = s.manager.registry := by simp [hs₃, hs₂, hs₁]
  have hregistry₅ : s₅.manager.registry = s.manager.registry := by simp [hs₅, hs₄, hregistry₃]
  have hregistry₇ : s₇.manager.registry = s.manager.registry := by simp [hs₇, hs₆, hregistry₅]
  have hregistry₉ : s₉.manager.registry = s.manager.registry := by simp [hs₉, hs₈, hregistry₇]
  have hruns := Transition.exec_along_cons (stepLogged_of_step _ h₁) hfirst <|
    Transition.exec_along_cons (stepLogged_of_step _ h₂)
      (hC' _ (by simp [oneMessage]) s₁ _ (by simp [hs₁]) (hidle (by simp [hs₁, h.worker]))) <|
    Transition.exec_along_cons (stepLogged_of_step _ h₃)
      (hC' _ (by simp [oneMessage]) s₂ _ (by simp [hs₂, hs₁]) (hidle (by simp [hs₂]))) <|
    Transition.exec_along_cons (stepLogged_of_step _ h₄)
      (hC' _ (by simp [oneMessage]) s₃ _ hregistry₃ hcounting) <|
    Transition.exec_along_cons (stepLogged_of_step _ h₅)
      (hC' _ (by simp [oneMessage]) s₄ _ (by simp [hs₄, hregistry₃]) hcounted) <|
    Transition.exec_along_cons (stepLogged_of_step _ h₆)
      (hC' _ (by simp [oneMessage]) s₅ _ hregistry₅ (hidle (by simp [hs₅]))) <|
    Transition.exec_along_cons (stepLogged_of_step _ h₇)
      (hC' _ (by simp [oneMessage]) s₆ _ (by simp [hs₆, hregistry₅]) (hidle (by simp [hs₆]))) <|
    Transition.exec_along_cons (stepLogged_of_step _ h₈)
      (hC' _ (by simp [oneMessage]) s₇ _ hregistry₇ (hidle (by simp [hs₇]))) <|
    Transition.exec_along_cons (stepLogged_of_step _ h₉)
      (hC' _ (by simp [oneMessage]) s₈ _ (by simp [hs₈, hregistry₇]) (hidle (by simp [hs₈]))) <|
    Transition.exec_along_cons (stepLogged_of_step _ h₁₀)
      (hC' _ (by simp [oneMessage]) s₉ _ hregistry₉ (hidle (by simp [hs₉]))) <|
    Transition.exec_along_cons (stepLogged_of_step _ h₁₁)
      (hC' _ (by simp [oneMessage]) s₁₀ _ (by simp [hs₁₀, hregistry₉])
        (hidle (by simp [hs₁₀, hs₉])))
    Transition.exec_along_nil
  refine ⟨s₁₁, _, hruns.1, hruns.2, ?_, ?_⟩
  · constructor
    · constructor <;> simp [hs₁₁, hs₁₀, hs₉, hs₈, hs₇, hs₆, hs₅, hs₄, hs₃, hs₂, hs₁, h.running,
        h.sender, h.exclusive]
    · simp [hs₁₁, hs₁₀, hs₉, hs₈, hs₇, hs₆, hs₅, hs₄, hs₃, hs₂, hs₁, n]
    · simp [hs₁₁, hs₁₀, hs₉, hs₈, hs₇, hs₆, hs₅, hs₄, hs₃, hs₂, hs₁]
    · intro j
      by_cases hj : i = j
      · subst hj
        simp [hs₁₁, hs₁₀, h.channel]
      · simp [hs₁₁, hs₁₀, hs₉, hs₈, hs₇, hs₆, hs₅, hs₄, hs₃, hs₂, hs₁,
          Std.ExtTreeMap.getElem?_insert, hj]
  · have hlisted : s₃.listed envelope.typeId = s.listed envelope.typeId := by
      simp [listed, hs₃, hs₂, hs₁]
    have hresult : writeResult json noFaults [⟨⟨envelope, none⟩, n, 0⟩] = .committed :=
      writeResult_noFaults json _
    have hphase₃ : s₃.worker = .counting [] [⟨envelope, none⟩] := by rw [hs₃]
    have hphase₄ : s₄.worker = .counting [⟨⟨envelope, none⟩, n, 0⟩] [] := by rw [hs₄]
    have hphase₅ : s₅.worker = .delivering [⟨envelope, none⟩] := by rw [hs₅]
    have hphase₈ : s₈.worker = .delivering [] := by rw [hs₈]
    have hsenders₅ : s₅.manager.senders envelope = [i] := by
      simp [hs₅, hs₄, hs₃, hs₂, hs₁, hsenders]
    have hbusy₁₀ : s₁₀.busy[i]? = some envelope := by simp [hs₁₀]
    constructor
    case published => simp [record, hphase₃, hphase₄, hphase₅, hphase₈, hresult, hunscheduled]
    case counted =>
      simp [record, hphase₃, hphase₄, hphase₅, hphase₈, hresult, hunscheduled, hlisted]
    case committed => simp [record, hphase₃, hphase₄, hphase₅, hphase₈, hresult, hunscheduled, n]
    case finished =>
      simp [record, hphase₃, hphase₄, hphase₅, hphase₈, hresult, hunscheduled, working, hbusy₁₀]
    case keys =>
      simp [record, hphase₃, hphase₄, hphase₅, hphase₈, hresult, hunscheduled, hsenders₅,
        RedbDispatcherMessage.idempotencyKey]
    case invoked =>
      simp [record, hphase₃, hphase₄, hphase₅, hphase₈, hresult, hunscheduled, workingKey,
        hbusy₁₀]

/-! ## The crowd -/

/-- An order without a key. -/
def order : EventEnvelope :=
  .fromSerialized 1 "OrderEvent" { eventId := 7, timestamp := 0 } .normal []

/-- Registrations of `n` subscriptions to `OrderEvent`. -/
def crowd (n : Nat) : List RegistryOp :=
  (List.range n).map fun i => .register 1 "OrderEvent" { id := BitVec.ofNat 128 i }

theorem entries_crowd (n : Nat) :
    (RegistryOp.run RedbRegistry.new (crowd n)).inner.entries 1
      = (List.range n).map fun i => ({ id := BitVec.ofNat 128 i } : SubscriptionEntry) := by
  rw [RedbRegistry.inner_run]
  induction n with
  | zero => rfl
  | succ n ih =>
    have hsucc : crowd (n + 1)
        = crowd n ++ [.register 1 "OrderEvent" { id := BitVec.ofNat 128 n }] := by
      simp [crowd, List.range_succ]
    rw [hsucc, RegistryOp.run_concat, DashMapRegistry.apply_register,
      DashMapRegistry.entries_register, if_pos rfl, ih, List.range_succ, List.map_append]
    rfl

/-- `OrderEvent` has the `n` subscriptions of the crowd, and the first has a channel. -/
structure Crowded (s : PersistentBus) (n : Nat) : Prop where
  entries : s.manager.registry.inner.entries 1
    = (List.range n).map fun i => ({ id := BitVec.ofNat 128 i } : SubscriptionEntry)
  channels : ∀ j : Uuid, (s.manager.subscriptions[j]?).isSome = decide (j = 0)

section Crowded

variable {n : Nat} {envelope : EventEnvelope}

theorem Crowded.subCount (h : s.Crowded n) (htype : envelope.typeId = 1) :
    s.manager.registry.subCount envelope = n % 2 ^ 32 := by
  rw [RedbRegistry.subCount, htype, h.entries, List.length_map, List.length_range]

theorem Crowded.mem_listed (h : s.Crowded n) {i : Nat} (hi : i < n) :
    BitVec.ofNat 128 i ∈ s.listed 1 := by
  unfold listed
  rw [h.entries, List.map_map]
  exact List.mem_map.mpr ⟨i, List.mem_range.mpr hi, rfl⟩

/-- `dispatch` sends to the one subscription with a channel. -/
theorem Crowded.senders (h : s.Crowded n) (htype : envelope.typeId = 1) (hpos : 0 < n)
    (hsmall : n ≤ 2 ^ 128) : s.manager.senders envelope = [0] := by
  obtain ⟨m, rfl⟩ := Nat.exists_eq_succ_of_ne_zero hpos.ne'
  have hselect : SubscriptionManager.selectSubscriptions s.manager.registry envelope
      = (List.range (m + 1)).map fun i =>
          ({ id := BitVec.ofNat 128 i } : SubscriptionEntry) := by
    rw [SubscriptionManager.selectSubscriptions_redb, htype, h.entries, List.filter_eq_self]
    intro entry hentry
    obtain ⟨i, -, rfl⟩ := List.mem_map.mp hentry
    rfl
  have hfirst : ∃ data, s.manager.subscriptions[(BitVec.ofNat 128 0)]? = some data :=
    Option.isSome_iff_exists.mp (by rw [h.channels]; rfl)
  obtain ⟨data, hdata⟩ := hfirst
  unfold SubscriptionManager.senders
  rw [hselect, List.range_succ_eq_map, List.map_cons, List.filterMap_cons_some (b := 0)
    (by simp only [hdata]; rfl)]
  congr 1
  rw [List.filterMap_eq_nil_iff]
  intro entry hentry
  obtain ⟨k, hk, rfl⟩ := List.mem_map.mp hentry
  obtain ⟨i, hi, rfl⟩ := List.mem_map.mp hk
  -- a later id has no channel
  have hne : BitVec.ofNat 128 (i + 1) ≠ 0 := by
    intro heq
    have hnat := congrArg BitVec.toNat heq
    have hlt : i < m := List.mem_range.mp hi
    rw [BitVec.toNat_ofNat, Nat.mod_eq_of_lt (by omega)] at hnat
    simp at hnat
  have hnone : s.manager.subscriptions[(BitVec.ofNat 128 (i + 1))]? = none := by
    have hsome := h.channels (BitVec.ofNat 128 (i + 1))
    rw [decide_eq_false hne] at hsome
    exact Option.isSome_eq_false_iff.mp hsome |> Option.isNone_iff_eq_none.mp
  simp only [hnone]
  rfl

theorem After.crowded {s' : PersistentBus} {i : Uuid} (h : s.Crowded n)
    (hafter : s'.After s json envelope i) : s'.Crowded n where
  entries := by
    rw [hafter.registry]
    exact h.entries
  channels j := by
    rw [hafter.channels]
    exact h.channels j

end Crowded

/-- Calls on the registry, one after the other. -/
theorem exec_registryCalls (json : SerdeJson) (log : Log)
    {C : PersistentBus × Log → Action → Prop} (ops : List RegistryOp)
    (hC : ∀ op ∈ ops, ∀ t : PersistentBus × Log, t.1.worker = s.worker →
      C t (.handler (.registry op))) :
    ∃ log', (Transition.exec (stepLogged json {}) (s, log)
        (ops.map fun op => .handler (.registry op)) = some ({ s with manager := { s.manager with
            registry := RegistryOp.run s.manager.registry ops } }, log') ∧
      Transition.Along (stepLogged json {}) C (s, log)
        (ops.map fun op => .handler (.registry op))) ∧
      ∃ registered, log' = { log with registered := registered } := by
  induction ops generalizing s log with
  | nil => exact ⟨log, ⟨rfl, trivial⟩, log.registered, rfl⟩
  | cons op ops ih =>
    obtain ⟨log', hrun, registered, hlog⟩ := ih (s := s.registryCall op)
      { log with registered := log.registered ++ op.registeredId.toList }
      fun op' hop' t ht => hC op' (List.mem_cons_of_mem _ hop') t ht
    exact ⟨log', Transition.exec_along_cons (stepLogged_of_step _ rfl)
      (hC op List.mem_cons_self _ rfl) hrun, registered, hlog⟩

/-- The crowd subscribes, its first member opens a channel, and the bus is started. -/
def crowdArrives (n : Nat) : List Action :=
  (crowd n).map (fun op => .handler (.registry op)) ++
    [.handler (.openChannel 0), .control .start]

theorem exec_crowdArrives (json : SerdeJson) {C : PersistentBus × Log → Action → Prop} (n : Nat)
    (db : Db)
    (hC : ∀ a ∈ crowdArrives n, ∀ t : PersistentBus × Log, t.1.worker = .unspawned → C t a) :
    ∃ s' registered, (Transition.exec (stepLogged json {}) (boot json {} db, .empty)
        (crowdArrives n) = some (s', { Log.empty with registered := registered }) ∧
      Transition.Along (stepLogged json {}) C (boot json {} db, .empty) (crowdArrives n)) ∧
      s'.Ready 0 ∧ s'.Crowded n ∧ s'.db = db ∧ s'.manager.registry.ackTx = [] := by
  obtain ⟨log', hcrowd, registered, rfl⟩ := exec_registryCalls json .empty (C := C)
    (s := boot json {} db) (crowd n) fun op hop t ht =>
      hC _ (List.mem_append_left _ (List.mem_map.mpr ⟨op, hop, rfl⟩)) t ht
  obtain ⟨s₁, hs₁⟩ : ∃ s₁, s₁ = { boot json {} db with
      manager := ⟨RegistryOp.run RedbRegistry.new (crowd n),
        (∅ : DashMap Uuid SubscriptionData).insert 0 ⟨[], true⟩⟩ } := ⟨_, rfl⟩
  obtain ⟨s₂, hs₂⟩ : ∃ s₂, s₂ = { s₁ with
      isRunning := true, worker := .receiving, scheduler := .sleeping } := ⟨_, rfl⟩
  have hopen : step json {} { boot json {} db with manager := { (boot json {} db).manager with
      registry := RegistryOp.run (boot json {} db).manager.registry (crowd n) } }
      (.handler (.openChannel 0)) = some s₁ := by
    rw [hs₁]
    rfl
  have hstart : step json {} s₁ (.control .start) = some s₂ := by
    rw [hs₂, hs₁]
    rfl
  refine ⟨s₂, registered, Transition.exec_along_append hcrowd
    (Transition.exec_along_cons (stepLogged_of_step _ hopen) ?_
      (Transition.exec_along_cons (stepLogged_of_step _ hstart) ?_
        Transition.exec_along_nil)), ?_, ?_, by rw [hs₂, hs₁]; rfl,
    by rw [hs₂, hs₁]; exact ackTx_run RedbRegistry.new (crowd n)⟩
  · exact hC _ (by simp [crowdArrives]) _ rfl
  · exact hC _ (by simp [crowdArrives]) _ (by rw [hs₁]; rfl)
  · constructor <;> simp [hs₂, hs₁, boot]
  · constructor
    · rw [hs₂, hs₁]
      exact entries_crowd n
    · intro j
      rw [hs₂, hs₁]
      rw [Std.ExtTreeMap.getElem?_insert, Std.ExtTreeMap.getElem?_empty]
      by_cases hj : j = 0
      · simp [hj]
      · have hne : ¬ compare (0 : Uuid) j = .eq := by
          rw [Std.LawfulEqCmp.compare_eq_iff_eq]
          exact fun h => hj h.symm
        rw [if_neg hne, decide_eq_false hj]
        rfl

end PersistentBus
end TokioEvents

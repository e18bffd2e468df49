/-
  TokioEvents.Subscription.Wrappers

  `FilteredHandler` and `ErrorWrappingHandler`, nested around a handler to any depth
  (`src/subscription/handler.rs`).

  `dispatch` asks the outermost handler for its `filter()`.  A `FilteredHandler` answers with
  its own filter alone, and an `ErrorWrappingHandler` with none, the default of the trait;
  neither asks the handler inside.  So the filters below the outermost one are not part of
  what `dispatch` checks, and an event that they reject is queued.
-/

import TokioEvents.Subscription.Handler

namespace TokioEvents

variable {σ : Type}

/-! ## The wrappers -/

/-- `FilteredHandler`. -/
structure FilteredHandler (σ : Type) where
  inner : EventHandler σ
  filter : EventFilterFn
  filterName : String

/-- `impl EventHandler for FilteredHandler`. -/
def FilteredHandler.eventHandler (h : FilteredHandler σ) : EventHandler σ where
  handle envelope s :=
    if h.filter envelope then h.inner.handle envelope s
    else (.ok (), s)
  name := h.inner.name
  filter := some h.filter

/-- `ErrorWrappingHandler`. -/
structure ErrorWrappingHandler (σ : Type) where
  inner : EventHandler σ
  errorHandler : Error → σ → σ

/-- `impl EventHandler for ErrorWrappingHandler`; it has no `filter` of its own. -/
def ErrorWrappingHandler.eventHandler (h : ErrorWrappingHandler σ) : EventHandler σ where
  handle envelope s :=
    match h.inner.handle envelope s with
    | (.ok (), s) => (.ok (), s)
    | (.error e, s) => (.ok (), h.errorHandler e s)
  name := h.inner.name

/-- A handler built by nesting the wrappers. -/
inductive HandlerNest (σ : Type) where
  | base (handler : EventHandler σ)
  | filtered (inner : HandlerNest σ) (filter : EventFilterFn) (filterName : String)
  | errorWrapping (inner : HandlerNest σ) (errorHandler : Error → σ → σ)

namespace HandlerNest

/-- The handler that the nest is. -/
def eventHandler : HandlerNest σ → EventHandler σ
  | base handler => handler
  | filtered inner filter filterName =>
    FilteredHandler.eventHandler ⟨inner.eventHandler, filter, filterName⟩
  | errorWrapping inner errorHandler =>
    ErrorWrappingHandler.eventHandler ⟨inner.eventHandler, errorHandler⟩

/-- Every filter of the nest, the base handler's own included. -/
def filters : HandlerNest σ → List EventFilterFn
  | base handler => handler.filter.toList
  | filtered inner filter _ => filter :: inner.filters
  | errorWrapping inner _ => inner.filters

/-- The filter of the outermost handler itself. -/
def outerFilter : HandlerNest σ → List EventFilterFn
  | base handler => handler.filter.toList
  | filtered _ filter _ => [filter]
  | errorWrapping _ _ => []

/-- The filters of the handlers inside the outermost one. -/
def innerFilters : HandlerNest σ → List EventFilterFn
  | base _ => []
  | filtered inner _ _ => inner.filters
  | errorWrapping inner _ => inner.filters

/-- The filters of the `FilteredHandler`s alone. -/
def wrapperFilters : HandlerNest σ → List EventFilterFn
  | base _ => []
  | filtered inner filter _ => filter :: inner.wrapperFilters
  | errorWrapping inner _ => inner.wrapperFilters

/-! ## What the nest does with an event -/

theorem filters_eq (nest : HandlerNest σ) :
    nest.filters = nest.outerFilter ++ nest.innerFilters := by
  cases nest with
  | base handler => exact (List.append_nil _).symm
  | filtered inner filter filterName => rfl
  | errorWrapping inner errorHandler => rfl

/-- `dispatch` checks the outermost filter. -/
theorem accepts_iff (nest : HandlerNest σ) (envelope : EventEnvelope) :
    nest.eventHandler.accepts envelope = true ↔ ∀ f ∈ nest.outerFilter, f envelope = true := by
  cases nest with
  | base handler =>
    show handler.accepts envelope = true ↔ ∀ f ∈ handler.filter.toList, f envelope = true
    unfold EventHandler.accepts
    cases handler.filter with
    | none => simp
    | some filter => simp
  | filtered inner filter filterName =>
    show filter envelope = true ↔ ∀ f ∈ [filter], f envelope = true
    rw [List.forall_mem_singleton]
  | errorWrapping inner errorHandler =>
    show true = true ↔ ∀ f ∈ ([] : List EventFilterFn), f envelope = true
    simp

/-- A queued event is still stopped by every `FilteredHandler` on its way to the base
    handler; the base handler's own filter is not asked again. -/
theorem handle_of_rejects {nest : HandlerNest σ} {envelope : EventEnvelope}
    (h : ∃ f ∈ nest.wrapperFilters, f envelope = false) (s : σ) :
    nest.eventHandler.handle envelope s = (.ok (), s) := by
  induction nest with
  | base handler =>
    obtain ⟨f, hf, -⟩ := h
    cases hf
  | filtered inner filter filterName ih =>
    show (if filter envelope then inner.eventHandler.handle envelope s else (.ok (), s)) = _
    cases hfilter : filter envelope with
    | false => rfl
    | true =>
      obtain ⟨f, hf, hrej⟩ := h
      rcases List.mem_cons.mp hf with rfl | hf
      · cases hfilter.symm.trans hrej
      · exact ih ⟨f, hf, hrej⟩
  | errorWrapping inner errorHandler ih =>
    unfold eventHandler ErrorWrappingHandler.eventHandler
    dsimp only
    rw [ih h]

end HandlerNest

/-! ## What `dispatch` queues -/

namespace SubscriptionManager

open DashMapRegistry RegistryOp

/-- What the filters of a nest are for: the event is queued exactly if all accept it. -/
def FiltersCompose (m : SubscriptionManager DashMapRegistry) (id : Uuid) (nest : HandlerNest σ)
    (envelope : EventEnvelope) : Prop :=
  Enqueues m envelope id ↔ ∀ f ∈ nest.filters, f envelope = true

/-- **The filters of a nest compose** for an event exactly if the outermost handler's own
    filter rejects it, or all the filters inside accept it. -/
theorem filtersCompose_iff (ops : List RegistryOp) (hfresh : FreshIds ops) (nest : HandlerNest σ)
    {id : Uuid} {typeId : TypeId} {typeName name : String} {topic : Option String}
    (hsubscribed : .register typeId typeName (typedEntry id name topic nest.eventHandler) ∈ ops)
    (subscriptions : DashMap Uuid SubscriptionData) (envelope : EventEnvelope)
    (hselects : Selects ⟨run new ops, subscriptions⟩ envelope id) :
    FiltersCompose ⟨run new ops, subscriptions⟩ id nest envelope
      ↔ (∃ f ∈ nest.outerFilter, f envelope = false) ∨
        ∀ f ∈ nest.innerFilters, f envelope = true := by
  have henqueues : Enqueues ⟨run new ops, subscriptions⟩ envelope id
      ↔ ∀ f ∈ nest.outerFilter, f envelope = true :=
    (enqueues_iff_accepts hfresh hsubscribed hselects).1.trans (nest.accepts_iff envelope)
  unfold FiltersCompose
  rw [henqueues, nest.filters_eq]
  simp only [List.forall_mem_append]
  constructor
  · intro hcompose
    by_cases houter : ∀ f ∈ nest.outerFilter, f envelope = true
    · exact .inr (hcompose.mp houter).2
    · left
      push Not at houter
      obtain ⟨f, hf, hrej⟩ := houter
      exact ⟨f, hf, Bool.eq_false_of_not_eq_true hrej⟩
  · rintro (⟨f, hf, hrej⟩ | hinner)
    · refine iff_of_false (fun h => ?_) (fun h => ?_)
      · cases hrej.symm.trans (h f hf)
      · cases hrej.symm.trans (h.1 f hf)
    · exact ⟨fun houter => ⟨houter, hinner⟩, And.left⟩

/-- One subscription to `OrderEvent` (type 1), and its empty channel. -/
def nestOps (nest : HandlerNest σ) : List RegistryOp :=
  [.register 1 "OrderEvent" (typedEntry 10 "Handler<OrderEvent>" none nest.eventHandler)]

def nestChannel : DashMap Uuid SubscriptionData :=
  (∅ : DashMap Uuid SubscriptionData).insert 10 ⟨[], true⟩

theorem freshIds_nestOps (nest : HandlerNest σ) : FreshIds (nestOps nest) :=
  List.nodup_singleton _

theorem selects_nestOps (nest : HandlerNest σ) :
    Selects ⟨run new (nestOps nest), nestChannel⟩ orderEnvelope 10 := by
  have hwf := wf_run (nestOps nest) (freshIds_nestOps nest)
  refine ⟨⟨typedEntry 10 "Handler<OrderEvent>" none nest.eventHandler, ?_, rfl⟩, ⟨[], true⟩, rfl,
    rfl⟩
  refine (mem_selectSubscriptions (m := ⟨_, nestChannel⟩) hwf).mpr (.inl ⟨?_, rfl, rfl⟩)
  show _ ∈ (new.register 1 "OrderEvent" _).2.entries 1
  rw [entries_register, if_pos rfl]
  exact List.mem_append_right _ (List.mem_singleton_self _)

/-- A handler with a filter of its own, filtered by topic; its errors are logged, and a last
    filter lets everything through or nothing. -/
def layeredOrders (passes : Bool) : HandlerNest Unit :=
  .filtered
    (.errorWrapping
      (.filtered
        (.base { handle := fun _ s => (.ok (), s), filter := some fun e => e.typeId == 1 })
        (fun e => e.metadata.topic.isSome) "topics")
      fun _ s => s)
    (fun _ => passes) "gate"

/-- All three filters accept the order, and it is queued; or the outermost one rejects it, and
    it is not. -/
theorem filtersCompose_iff_layeredOrders :
    (FiltersCompose ⟨run new (nestOps (layeredOrders true)), nestChannel⟩ 10 (layeredOrders true)
        orderEnvelope ∧
      Enqueues ⟨run new (nestOps (layeredOrders true)), nestChannel⟩ orderEnvelope 10) ∧
    FiltersCompose ⟨run new (nestOps (layeredOrders false)), nestChannel⟩ 10 (layeredOrders false)
        orderEnvelope ∧
      ¬ Enqueues ⟨run new (nestOps (layeredOrders false)), nestChannel⟩ orderEnvelope 10 := by
  have hpasses : FiltersCompose ⟨run new (nestOps (layeredOrders true)), nestChannel⟩ 10
      (layeredOrders true) orderEnvelope :=
    (filtersCompose_iff _ (freshIds_nestOps _) (layeredOrders true) (List.mem_singleton_self _)
      nestChannel orderEnvelope (selects_nestOps _)).mpr (.inr (by decide))
  have hstops : FiltersCompose ⟨run new (nestOps (layeredOrders false)), nestChannel⟩ 10
      (layeredOrders false) orderEnvelope :=
    (filtersCompose_iff _ (freshIds_nestOps _) (layeredOrders false) (List.mem_singleton_self _)
      nestChannel orderEnvelope (selects_nestOps _)).mpr (.inl ⟨_, List.mem_singleton_self _, rfl⟩)
  refine ⟨⟨hpasses, hpasses.mpr (by decide)⟩, hstops, fun hqueued => ?_⟩
  have hopen : (layeredOrders false).filters.all (fun f => f orderEnvelope) = true :=
    List.all_eq_true.mpr (hstops.mp hqueued)
  revert hopen
  decide

/-- A handler that is not to see any order. -/
def silentOrders : HandlerNest Unit :=
  .filtered (.base { handle := fun _ s => (.ok (), s) }) (fun _ => false) "silent"

/-- Its errors are to be logged. -/
def loggedOrders : HandlerNest Unit := .errorWrapping silentOrders fun _ s => s

/-- The error wrapper hides the filter: the order is queued although the filter rejects it. -/
theorem not_filtersCompose_loggedOrders :
    Selects ⟨run new (nestOps loggedOrders), nestChannel⟩ orderEnvelope 10 ∧
      (∃ f ∈ loggedOrders.filters, f orderEnvelope = false) ∧
      ¬ FiltersCompose ⟨run new (nestOps loggedOrders), nestChannel⟩ 10 loggedOrders
        orderEnvelope := by
  have hqueued : Enqueues ⟨run new (nestOps loggedOrders), nestChannel⟩ orderEnvelope 10 :=
    (enqueues_iff_accepts (freshIds_nestOps _) (List.mem_singleton_self _)
      (selects_nestOps loggedOrders)).1.mpr rfl
  refine ⟨selects_nestOps _, ⟨_, List.mem_singleton_self _, rfl⟩, fun hcompose => ?_⟩
  cases hcompose.mp hqueued _ (List.mem_singleton_self _)

end SubscriptionManager
end TokioEvents

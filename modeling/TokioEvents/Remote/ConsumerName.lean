/-
  TokioEvents.Remote.ConsumerName

  The JetStream consumer of a subscription (`NatsTransport::subscribe`,
  `src/remote/nats.rs`).  Its durable name is made of the queue group and the topic, and
  `get_or_create_consumer` takes the consumer that has the name, whatever it was created
  for.

  Different pairs may have one name: the wildcards and the dots of the topic become `_`,
  and `_` is also what separates the two parts.
-/

import Mathlib.Data.List.Forall2
import TokioEvents.Event.Envelope

namespace TokioEvents

/-- `AckPolicy`. -/
inductive AckPolicy where
  | none
  | all
  | explicit
  deriving DecidableEq, Repr

/-- `push::Config`, the fields that are set. -/
structure PushConfig where
  durableName : Option String
  deliverGroup : Option String
  deliverSubject : String
  filterSubject : String
  ackPolicy : AckPolicy
  /-- In seconds. -/
  ackWait : Nat
  maxAckPending : Int
  deriving DecidableEq, Repr

namespace NatsTransport

/-- The characters that a name cannot have. -/
def replaced : List Char := ['.', '*', '>']

/-- A character of the topic in the name. -/
def sanitizeChar (c : Char) : Char := if c ∈ replaced then '_' else c

/-- `topic.replace(['.', '*', '>'], "_")`. -/
def sanitizeTopic (topic : String) : String := topic.map sanitizeChar

/-- `format!("{}_{}", queue_group, ..)`. -/
def consumerName (queueGroup topic : String) : String :=
  queueGroup ++ "_" ++ sanitizeTopic topic

/-- What `subscribe` asks for. -/
def consumerConfig (queueGroup topic : String) : PushConfig where
  durableName := some (consumerName queueGroup topic)
  deliverGroup := some queueGroup
  deliverSubject := consumerName queueGroup topic
  filterSubject := topic
  ackPolicy := .explicit
  ackWait := 60
  maxAckPending := 1000

/-! ## The pairs with one name -/

/-- The two characters are one in a name. -/
def Confused (c d : Char) : Prop := c = d ∨ (c ∈ '_' :: replaced ∧ d ∈ '_' :: replaced)

/-- The queue group of the one goes on with `_` where the topic of the other begins. -/
def Overlap (queueGroup topic queueGroup' topic' : List Char) : Prop :=
  ∃ part, queueGroup' = queueGroup ++ '_' :: part ∧ (∀ c ∈ part, c ∉ replaced) ∧
    List.Forall₂ Confused topic (part ++ '_' :: topic')

/-- Two pairs that are different and cannot be told apart: the groups are equal, and the
    topics differ in confused characters alone, or the groups and the topics overlap. -/
def Collide (queueGroup topic queueGroup' topic' : String) : Prop :=
  (queueGroup = queueGroup' ∧ topic ≠ topic' ∧
      List.Forall₂ Confused topic.toList topic'.toList) ∨
    Overlap queueGroup.toList topic.toList queueGroup'.toList topic'.toList ∨
    Overlap queueGroup'.toList topic'.toList queueGroup.toList topic.toList

/-- Two texts around a separator, joined: the parts are equal, or a separator inside a part
    is taken for the one between them. -/
theorem append_cons_eq_append_cons {α : Type*} {sep : α} {a b c d : List α} :
    a ++ sep :: b = c ++ sep :: d ↔
      (a = c ∧ b = d) ∨ (∃ m, c = a ++ sep :: m ∧ b = m ++ sep :: d) ∨
        ∃ m, a = c ++ sep :: m ∧ d = m ++ sep :: b := by
  constructor
  · intro h
    rcases List.append_eq_append_iff.mp h with ⟨m, hc, hb⟩ | ⟨m, ha, hd⟩
    · cases m with
      | nil => exact .inl ⟨by rw [hc, List.append_nil], (List.cons.inj hb).2⟩
      | cons x m =>
        rw [List.cons_append] at hb
        obtain ⟨rfl, hrest⟩ := List.cons.inj hb
        exact .inr (.inl ⟨m, hc, hrest⟩)
    · cases m with
      | nil => exact .inl ⟨by rw [ha, List.append_nil], (List.cons.inj hd).2.symm⟩
      | cons x m =>
        rw [List.cons_append] at hd
        obtain ⟨rfl, hrest⟩ := List.cons.inj hd
        exact .inr (.inr ⟨m, ha, hrest⟩)
  · rintro (⟨rfl, rfl⟩ | ⟨m, rfl, rfl⟩ | ⟨m, rfl, rfl⟩)
    · rfl
    · rw [List.append_assoc, List.cons_append]
    · rw [List.append_assoc, List.cons_append]

theorem sanitizeChar_eq_self {c : Char} (h : c ∉ replaced) : sanitizeChar c = c := if_neg h

theorem sanitizeChar_eq_iff {c d : Char} : sanitizeChar c = sanitizeChar d ↔ Confused c d := by
  unfold sanitizeChar Confused
  simp only [List.mem_cons]
  split <;> split <;> grind

theorem sanitizeChar_notMem (c : Char) : sanitizeChar c ∉ replaced := by
  unfold sanitizeChar
  split
  · decide
  · assumption

theorem map_sanitizeChar_eq_iff {l l' : List Char} :
    l.map sanitizeChar = l'.map sanitizeChar ↔ List.Forall₂ Confused l l' := by
  rw [← List.forall₂_eq_eq_eq, List.forall₂_map_left_iff, List.forall₂_map_right_iff]
  simp only [sanitizeChar_eq_iff]

theorem map_sanitizeChar_eq_self {l : List Char} (h : ∀ c ∈ l, c ∉ replaced) :
    l.map sanitizeChar = l :=
  (List.map_congr_left fun c hc => sanitizeChar_eq_self (h c hc)).trans (List.map_id l)

/-- The names agree where a group overlaps a topic. -/
theorem overlap_iff {queueGroup topic queueGroup' topic' : List Char} :
    Overlap queueGroup topic queueGroup' topic' ↔
      ∃ part, queueGroup' = queueGroup ++ '_' :: part ∧
        topic.map sanitizeChar = part ++ '_' :: topic'.map sanitizeChar := by
  have hjoined : ∀ part : List Char, (∀ c ∈ part, c ∉ replaced) →
      (part ++ '_' :: topic').map sanitizeChar = part ++ '_' :: topic'.map sanitizeChar := by
    intro part hpart
    rw [List.map_append, List.map_cons, map_sanitizeChar_eq_self hpart]
    rfl
  constructor
  · rintro ⟨part, hgroup, hpart, htopic⟩
    exact ⟨part, hgroup, (map_sanitizeChar_eq_iff.mpr htopic).trans (hjoined part hpart)⟩
  · rintro ⟨part, hgroup, htopic⟩
    have hpart : ∀ c ∈ part, c ∉ replaced := by
      intro c hc
      have hmem : c ∈ topic.map sanitizeChar := htopic ▸ List.mem_append_left _ hc
      obtain ⟨x, -, rfl⟩ := List.mem_map.mp hmem
      exact sanitizeChar_notMem x
    exact ⟨part, hgroup, hpart, map_sanitizeChar_eq_iff.mp (htopic.trans (hjoined part hpart).symm)⟩

section Names

variable {queueGroup topic queueGroup' topic' : String}

theorem toList_consumerName (queueGroup topic : String) :
    (consumerName queueGroup topic).toList
      = queueGroup.toList ++ '_' :: topic.toList.map sanitizeChar := by
  rw [consumerName, String.toList_append, String.toList_append, sanitizeTopic, String.toList_map,
    List.append_assoc]
  rfl

theorem consumerName_eq_iff :
    consumerName queueGroup topic = consumerName queueGroup' topic' ↔
      (queueGroup = queueGroup' ∧ List.Forall₂ Confused topic.toList topic'.toList) ∨
        Overlap queueGroup.toList topic.toList queueGroup'.toList topic'.toList ∨
        Overlap queueGroup'.toList topic'.toList queueGroup.toList topic.toList := by
  rw [← String.toList_inj, toList_consumerName, toList_consumerName, append_cons_eq_append_cons,
    overlap_iff, overlap_iff, map_sanitizeChar_eq_iff, String.toList_inj]

/-- Where they overlap, the topics are of different lengths. -/
theorem Overlap.ne {l l' m m' : List Char} (h : Overlap l m l' m') : m ≠ m' := by
  rintro rfl
  obtain ⟨part, -, -, htopic⟩ := h
  have hlength := htopic.length_eq
  rw [List.length_append, List.length_cons] at hlength
  omega

/-- What collides has different topics. -/
theorem Collide.topic_ne (h : Collide queueGroup topic queueGroup' topic') : topic ≠ topic' := by
  rintro rfl
  rcases h with ⟨-, hne, -⟩ | hoverlap | hoverlap
  · exact hne rfl
  · exact hoverlap.ne rfl
  · exact hoverlap.ne rfl

/-- **The names that are not unambiguous.** -/
theorem collide_iff :
    Collide queueGroup topic queueGroup' topic' ↔
      consumerName queueGroup topic = consumerName queueGroup' topic' ∧ topic ≠ topic' := by
  constructor
  · intro h
    refine ⟨consumerName_eq_iff.mpr ?_, h.topic_ne⟩
    rcases h with ⟨hgroup, -, htopic⟩ | hoverlap
    · exact .inl ⟨hgroup, htopic⟩
    · exact .inr hoverlap
  · rintro ⟨hname, hne⟩
    rcases consumerName_eq_iff.mp hname with ⟨hgroup, htopic⟩ | hoverlap
    · exact .inl ⟨hgroup, hne, htopic⟩
    · exact .inr hoverlap

theorem unambiguous_iff :
    (consumerName queueGroup topic = consumerName queueGroup' topic' →
      queueGroup = queueGroup' ∧ topic = topic') ↔
    ¬ Collide queueGroup topic queueGroup' topic' := by
  rw [collide_iff]
  constructor
  · rintro h ⟨hname, hne⟩
    exact hne (h hname).2
  · intro h hname
    have htopic : topic = topic' := by
      by_contra hne
      exact h ⟨hname, hne⟩
    subst htopic
    -- of one topic only the same group makes the same name: an overlap changes its length
    refine ⟨?_, rfl⟩
    rcases consumerName_eq_iff.mp hname with ⟨hgroup, -⟩ | hoverlap | hoverlap
    · exact hgroup
    · exact absurd rfl hoverlap.ne
    · exact absurd rfl hoverlap.ne

end Names

/-! ## The consumers of a stream -/

/-- What `subscribe` calls: `get_stream`, `get_or_create_consumer` on the stream and
    `messages` on the consumer.  The state is the consumers of the stream. -/
structure ConsumerApi (β : Type) where
  find : β → String → Option PushConfig
  getStream : β → Except String Unit
  getOrCreate : β → String → PushConfig → Except String PushConfig × β
  messages : β → PushConfig → Except String Unit

/-- What is documented of it: the consumer that has the name is taken as it is; otherwise one
    is created as asked, or the call fails. -/
structure ConsumerApi.Documented {β : Type} (api : ConsumerApi β) : Prop where
  existing : ∀ b name config consumer, api.find b name = some consumer →
    api.getOrCreate b name config = (.ok consumer, b)
  created : ∀ b name config, api.find b name = none →
    (∃ e, api.getOrCreate b name config = (.error e, b)) ∨
      ∃ b', api.getOrCreate b name config = (.ok config, b') ∧
        ∀ other, api.find b' other = if other = name then some config else api.find b other

/-- A call of `subscribe`: what it returned is the stream of messages of a consumer, or an
    error. -/
structure SubscribeCall where
  queueGroup : String
  topic : String
  result : Except Error PushConfig

/-- The call has the messages of the consumer. -/
def SubscribeCall.Receives (call : SubscribeCall) (consumer : PushConfig) : Prop :=
  call.result = .ok consumer

section Stream

variable {β : Type} (api : ConsumerApi β)

/-- `NatsTransport::subscribe` with JetStream. -/
def subscribe (b : β) (topic queueGroup : String) : Except Error PushConfig × β :=
  match api.getStream b with
  | .error e => (.error (.internal ("Failed to get stream: " ++ e)), b)
  | .ok _ =>
    let name := consumerName queueGroup topic
    match api.getOrCreate b name (consumerConfig queueGroup topic) with
    | (.error e, b') => (.error (.internal ("Failed to create JetStream consumer: " ++ e)), b')
    | (.ok consumer, b') =>
      match api.messages b' consumer with
      | .error e => (.error (.internal ("Failed to get JetStream messages: " ++ e)), b')
      | .ok _ => (.ok consumer, b')

/-- One more call. -/
def subscribeNext (s : β × List SubscribeCall) (request : String × String) :
    β × List SubscribeCall :=
  let (queueGroup, topic) := request
  let (result, b) := subscribe api s.1 topic queueGroup
  (b, s.2 ++ [⟨queueGroup, topic, result⟩])

/-- The calls for these pairs of a queue group and a topic, one after the other. -/
def subscribeAll (b : β) (requests : List (String × String)) : β × List SubscribeCall :=
  requests.foldl (subscribeNext api) (b, [])

/-- Who created what: a call has the consumer of its name, and every consumer was created for
    a call, with what it asked for. -/
structure Owned (s : β × List SubscribeCall) : Prop where
  named : ∀ call ∈ s.2, ∀ consumer, call.Receives consumer →
    api.find s.1 (consumerName call.queueGroup call.topic) = some consumer
  creator : ∀ name consumer, api.find s.1 name = some consumer →
    ∃ call ∈ s.2, consumerName call.queueGroup call.topic = name ∧
      consumer = consumerConfig call.queueGroup call.topic

variable {api}

/-- What a call does to the consumers: nothing, or it creates the one it asks for. -/
theorem subscribe_cases (hapi : api.Documented) {b : β} {topic queueGroup : String}
    {r : Except Error PushConfig × β} (h : subscribe api b topic queueGroup = r) :
    (r.2 = b ∧ ∀ consumer, r.1 = .ok consumer →
      api.find b (consumerName queueGroup topic) = some consumer) ∨
    (api.find b (consumerName queueGroup topic) = none ∧
      (∀ other, api.find r.2 other = if other = consumerName queueGroup topic
        then some (consumerConfig queueGroup topic) else api.find b other) ∧
      ∀ consumer, r.1 = .ok consumer → consumer = consumerConfig queueGroup topic) := by
  subst h
  unfold subscribe
  split
  · -- there is no stream
    exact .inl ⟨rfl, nofun⟩
  · rcases Option.eq_none_or_eq_some (api.find b (consumerName queueGroup topic)) with
      hfind | ⟨consumer, hfind⟩
    · rcases hapi.created b _ (consumerConfig queueGroup topic) hfind with
        ⟨e, hcall⟩ | ⟨b', hcall, hafter⟩
      · simp only [hcall]
        exact .inl ⟨trivial, nofun⟩
      · simp only [hcall]
        -- the consumer stays, also if `messages` fails
        split
        · exact .inr ⟨hfind, hafter, nofun⟩
        · exact .inr ⟨hfind, hafter, fun c hc => (Except.ok.inj hc).symm⟩
    · simp only [hapi.existing b _ (consumerConfig queueGroup topic) consumer hfind]
      split
      · exact .inl ⟨rfl, nofun⟩
      · refine .inl ⟨rfl, fun c hc => ?_⟩
        rw [hfind, Except.ok.inj hc]

variable {s : β × List SubscribeCall}

theorem owned_fresh {b : β} (h : ∀ name, api.find b name = none) : Owned api (b, []) := by
  refine ⟨nofun, fun name consumer hfind => ?_⟩
  cases (h name).symm.trans hfind

/-- **Step.** -/
theorem Owned.subscribeNext (hapi : api.Documented) (h : Owned api s)
    (request : String × String) : Owned api (subscribeNext api s request) := by
  obtain ⟨queueGroup, topic⟩ := request
  obtain ⟨b, calls⟩ := s
  cases hcall : subscribe api b topic queueGroup with
  | mk result b' =>
    simp only [NatsTransport.subscribeNext, hcall]
    rcases subscribe_cases hapi hcall with ⟨hsame, hreceives⟩ | ⟨hnone, hafter, hreceives⟩
    · obtain rfl : b' = b := hsame
      refine ⟨fun call hmem consumer hc => ?_, fun name consumer hc => ?_⟩
      · rcases List.mem_append.mp hmem with hold | hnew
        · exact h.named call hold consumer hc
        · obtain rfl := List.mem_singleton.mp hnew
          exact hreceives consumer hc
      · obtain ⟨call, hmem, hname, hconfig⟩ := h.creator name consumer hc
        exact ⟨call, List.mem_append_left _ hmem, hname, hconfig⟩
    · refine ⟨fun call hmem consumer hc => ?_, fun name consumer hc => ?_⟩
      · rw [hafter]
        rcases List.mem_append.mp hmem with hold | hnew
        · have hnamed := h.named call hold consumer hc
          -- an earlier call has another name, for the name was new
          rw [if_neg, hnamed]
          intro hsame
          rw [hsame] at hnamed
          cases hnone.symm.trans hnamed
        · obtain rfl := List.mem_singleton.mp hnew
          rw [if_pos rfl, hreceives consumer hc]
      · rw [hafter] at hc
        split at hc
        · rename_i hname
          cases hc
          exact ⟨_, List.mem_append_right _ List.mem_cons_self, hname.symm, rfl⟩
        · obtain ⟨call, hmem, hname, hconfig⟩ := h.creator name consumer hc
          exact ⟨call, List.mem_append_left _ hmem, hname, hconfig⟩

/-- **Run.** -/
theorem owned_subscribeAll (hapi : api.Documented) {b : β} (hfresh : ∀ name, api.find b name = none)
    (requests : List (String × String)) : Owned api (subscribeAll api b requests) := by
  have hall : ∀ (requests : List (String × String)) (s : β × List SubscribeCall), Owned api s →
      Owned api (requests.foldl (NatsTransport.subscribeNext api) s) := by
    intro requests
    induction requests with
    | nil => exact fun _ h => h
    | cons request requests ih => exact fun s h => ih _ (h.subscribeNext hapi request)
  exact hall requests _ (owned_fresh hfresh)

/-- A call whose pair collides with no other has a consumer of its own topic. -/
theorem Owned.filterSubject_eq (h : Owned api s) {call : SubscribeCall} (hcall : call ∈ s.2)
    {consumer : PushConfig} (hreceives : call.Receives consumer)
    (hclear : ∀ other ∈ s.2, ¬ Collide other.queueGroup other.topic call.queueGroup call.topic) :
    consumer = consumerConfig call.queueGroup call.topic := by
  obtain ⟨other, hother, hname, hconfig⟩ := h.creator _ _ (h.named call hcall consumer hreceives)
  obtain ⟨hgroup, htopic⟩ := unambiguous_iff.mpr (hclear other hother) hname
  rw [hconfig, hgroup, htopic]

/-- Of two calls that collide, one has the consumer of the other's topic. -/
theorem Owned.filterSubject_ne (h : Owned api s) {call call' : SubscribeCall} (hcall : call ∈ s.2)
    (hcall' : call' ∈ s.2) {consumer consumer' : PushConfig} (hreceives : call.Receives consumer)
    (hreceives' : call'.Receives consumer')
    (hcollide : Collide call.queueGroup call.topic call'.queueGroup call'.topic) :
    consumer.filterSubject ≠ call.topic ∨ consumer'.filterSubject ≠ call'.topic := by
  obtain ⟨hname, hne⟩ := collide_iff.mp hcollide
  have hnamed := h.named call hcall consumer hreceives
  rw [hname] at hnamed
  have hsame : consumer = consumer' :=
    Option.some.inj (hnamed.symm.trans (h.named call' hcall' consumer' hreceives'))
  by_contra hown
  simp only [not_or, not_not] at hown
  exact hne (hown.1.symm.trans ((congrArg _ hsame).trans hown.2))

/-- **When the names are unambiguous.**  Two pairs of a queue group and a topic with one name
    are equal exactly when they do not collide.  So of the calls on a new stream, those whose
    pair collides with none have the consumer that they ask for, and of two that collide one
    receives from the topic of the other. -/
theorem consumerName_unambiguous_iff (hapi : api.Documented) {b : β}
    (hfresh : ∀ name, api.find b name = none) :
    (∀ queueGroup topic queueGroup' topic' : String,
      (consumerName queueGroup topic = consumerName queueGroup' topic' →
        queueGroup = queueGroup' ∧ topic = topic') ↔
      ¬ Collide queueGroup topic queueGroup' topic') ∧
    ∀ (requests : List (String × String)) (calls : List SubscribeCall),
      calls = (subscribeAll api b requests).2 →
      (∀ call ∈ calls, ∀ consumer, call.Receives consumer →
        (∀ other ∈ calls, ¬ Collide other.queueGroup other.topic call.queueGroup call.topic) →
        consumer = consumerConfig call.queueGroup call.topic) ∧
      ∀ call ∈ calls, ∀ call' ∈ calls, ∀ consumer consumer', call.Receives consumer →
        call'.Receives consumer' →
        Collide call.queueGroup call.topic call'.queueGroup call'.topic →
        consumer.filterSubject ≠ call.topic ∨ consumer'.filterSubject ≠ call'.topic := by
  refine ⟨fun _ _ _ _ => unambiguous_iff, fun requests calls hcalls => ?_⟩
  have h := owned_subscribeAll hapi hfresh requests
  subst hcalls
  exact ⟨fun call hcall consumer hreceives hclear => h.filterSubject_eq hcall hreceives hclear,
    fun call hcall call' hcall' consumer consumer' hreceives hreceives' hcollide =>
      h.filterSubject_ne hcall hcall' hreceives hreceives' hcollide⟩

/-- A stream with a table of consumers, where no call fails. -/
def tableApi : ConsumerApi (List (String × PushConfig)) where
  find table name := table.lookup name
  getStream _ := .ok ()
  getOrCreate table name config :=
    match table.lookup name with
    | some consumer => (.ok consumer, table)
    | none => (.ok config, (name, config) :: table)
  messages _ _ := .ok ()

theorem tableApi_documented : tableApi.Documented where
  existing table name config consumer h := by
    have hlookup : table.lookup name = some consumer := h
    simp only [tableApi, hlookup]
  created table name config h := by
    have hlookup : table.lookup name = none := h
    refine .inr ⟨(name, config) :: table, ?_, fun other => ?_⟩
    · simp only [tableApi, hlookup]
    · show ((name, config) :: table).lookup other = _
      rw [List.lookup_cons]
      by_cases hsame : other = name
      · rw [if_pos hsame, hsame, beq_self_eq_true]
      · rw [if_neg hsame, beq_eq_false_iff_ne.mpr hsame]
        rfl

/-- A service that subscribes to two topics, and another whose group is the longer. -/
def crossedRequests : List (String × String) :=
  [("orders", "user.created"), ("orders", "user_created"), ("orders_user", "created")]

theorem consumerName_user_created :
    consumerName "orders" "user_created" = consumerName "orders" "user.created" := by
  rw [← String.toList_inj, toList_consumerName, toList_consumerName]
  decide

theorem consumerName_orders_user :
    consumerName "orders_user" "created" = consumerName "orders" "user.created" := by
  rw [← String.toList_inj, toList_consumerName, toList_consumerName]
  decide

/-- The name is new. -/
theorem subscribeNext_tableApi_new {table : List (String × PushConfig)}
    {calls : List SubscribeCall} {queueGroup topic name : String}
    (hname : consumerName queueGroup topic = name) (h : table.lookup name = none) :
    subscribeNext tableApi (table, calls) (queueGroup, topic) =
      ((name, consumerConfig queueGroup topic) :: table,
        calls ++ [⟨queueGroup, topic, .ok (consumerConfig queueGroup topic)⟩]) := by
  subst hname
  simp only [subscribeNext, subscribe, tableApi, h]

/-- The name is known. -/
theorem subscribeNext_tableApi_known {table : List (String × PushConfig)}
    {calls : List SubscribeCall} {queueGroup topic name : String} {consumer : PushConfig}
    (hname : consumerName queueGroup topic = name) (h : table.lookup name = some consumer) :
    subscribeNext tableApi (table, calls) (queueGroup, topic) =
      (table, calls ++ [⟨queueGroup, topic, .ok consumer⟩]) := by
  subst hname
  simp only [subscribeNext, subscribe, tableApi, h]

/-- The three requests have one name, and all receive from the topic of the first. -/
theorem subscribeAll_crossedRequests :
    (subscribeAll tableApi [] crossedRequests).2 =
      [⟨"orders", "user.created", .ok (consumerConfig "orders" "user.created")⟩,
        ⟨"orders", "user_created", .ok (consumerConfig "orders" "user.created")⟩,
        ⟨"orders_user", "created", .ok (consumerConfig "orders" "user.created")⟩] := by
  have hknown : ∀ (name : String) (config : PushConfig),
      [(name, config)].lookup name = some config := by
    intro name config
    rw [List.lookup_cons, beq_self_eq_true]
  have hnew : subscribeNext tableApi ([], []) ("orders", "user.created") = _ :=
    subscribeNext_tableApi_new rfl rfl
  unfold subscribeAll crossedRequests
  rw [List.foldl_cons, hnew, List.foldl_cons,
    subscribeNext_tableApi_known consumerName_user_created (hknown _ _), List.foldl_cons,
    subscribeNext_tableApi_known consumerName_orders_user (hknown _ _), List.foldl_nil]
  rfl

theorem consumerName_unambiguous_iff_crossedRequests :
    ∃ first second : SubscribeCall,
      [first, second] <+: (subscribeAll tableApi [] crossedRequests).2 ∧
      second.topic = "user_created" ∧ ∃ consumer consumer', first.Receives consumer ∧
        second.Receives consumer' ∧
        (consumer.filterSubject ≠ first.topic ∨ consumer'.filterSubject ≠ second.topic) := by
  have hcollide : Collide "orders" "user.created" "orders" "user_created" :=
    collide_iff.mpr ⟨consumerName_user_created.symm, by decide⟩
  obtain ⟨-, hstream⟩ :=
    consumerName_unambiguous_iff tableApi_documented (b := []) (fun _ => rfl)
  obtain ⟨-, hwrong⟩ := hstream crossedRequests _ subscribeAll_crossedRequests.symm
  rw [subscribeAll_crossedRequests]
  refine ⟨_, _, ⟨_, rfl⟩, rfl, _, _, rfl, rfl, ?_⟩
  exact hwrong _ List.mem_cons_self _ (List.mem_cons_of_mem _ List.mem_cons_self) _ _ rfl rfl
    hcollide

/-- Two pairs with one name. -/
theorem consumerName_not_injective :
    ¬ ∀ queueGroup topic queueGroup' topic' : String,
      consumerName queueGroup topic = consumerName queueGroup' topic' →
      queueGroup = queueGroup' ∧ topic = topic' := by
  intro h
  obtain ⟨-, htopic⟩ := h _ _ _ _ consumerName_user_created
  revert htopic
  decide

end Stream

end NatsTransport
end TokioEvents

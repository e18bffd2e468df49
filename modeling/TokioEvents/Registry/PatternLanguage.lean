/-
  TokioEvents.Registry.PatternLanguage

  `TopicTrie` as an implementation of its pattern language.  What it implements is a
  set of (pattern, id) pairs that `insert` adds to and `remove_topic` and `remove`
  take from; `match_topic` is to select the ids of the pairs whose pattern matches.

  The set is indexed by cut patterns.  `remove_topic` looks for the uncut one, so the
  two agree as long as no pattern with an inner `>` is removed.
-/

import TokioEvents.Registry.TopicTrie

namespace TokioEvents

open Wildcard TopicTrie

/-- The calls that change a topic trie. -/
inductive TrieOp where
  | insert (topicPattern : String) (subscriptionId : Uuid)
  | removeTopic (topicPattern : String) (subscriptionId : Uuid)
  | remove (subscriptionId : Uuid)

namespace TrieOp

/-- The trie a call leaves behind. -/
def apply (trie : TopicTrie) : TrieOp → TopicTrie
  | .insert topicPattern subscriptionId => trie.insert topicPattern subscriptionId
  | .removeTopic topicPattern subscriptionId => (trie.removeTopic topicPattern subscriptionId).1
  | .remove subscriptionId => (trie.remove subscriptionId).1

/-- A sequence of calls on a new trie. -/
def run (ops : List TrieOp) : TopicTrie := ops.foldl apply .new

/-- The same call on a set of (pattern, id) pairs. -/
def store (pairs : Finset (List (Seg String) × Uuid)) :
    TrieOp → Finset (List (Seg String) × Uuid)
  | .insert topicPattern subscriptionId =>
    Insert.insert (patternOf topicPattern, subscriptionId) pairs
  | .removeTopic topicPattern subscriptionId =>
    pairs.erase (patternOf topicPattern, subscriptionId)
  | .remove subscriptionId => pairs.filter fun pair => pair.2 ≠ subscriptionId

/-- The pairs stored after a sequence of calls. -/
def stored (ops : List TrieOp) : Finset (List (Seg String) × Uuid) := ops.foldl store ∅

/-- A pattern that is removed has its `>` last. -/
def RemovesWhole : TrieOp → Prop
  | .removeTopic topicPattern _ => RestLast topicPattern
  | _ => True

/-- **One call** does to the trie what it does to the set. -/
theorem mem_index_apply {trie : TopicTrie} {pairs : Finset (List (Seg String) × Uuid)} {op : TrieOp}
    (hop : op.RemovesWhole) (h : ∀ pair, pair ∈ trie.index ↔ pair ∈ pairs)
    (pair : List (Seg String) × Uuid) : pair ∈ (apply trie op).index ↔ pair ∈ store pairs op := by
  obtain ⟨p, i⟩ := pair
  cases op with
  | insert topicPattern id =>
    rw [apply, mem_index_insert, store, Finset.mem_insert, h, Prod.mk.injEq]
  | removeTopic topicPattern id =>
    have hwhole : RestLast topicPattern := hop
    rw [apply, mem_index_removeTopic, store, Finset.mem_erase, h, hwhole.patternOf_eq, Ne,
      Prod.mk.injEq, and_comm]
  | remove id => rw [apply, mem_index_remove, store, Finset.mem_filter, h]

/-- **Every sequence of calls** leaves the trie with exactly the stored pairs. -/
theorem mem_index_run {ops : List TrieOp} (hops : ∀ op ∈ ops, op.RemovesWhole)
    (pair : List (Seg String) × Uuid) : pair ∈ (run ops).index ↔ pair ∈ stored ops := by
  induction ops using List.reverseRecOn generalizing pair with
  | nil =>
    obtain ⟨p, i⟩ := pair
    simp [run, stored]
  | append_singleton ops op ih =>
    have hrun : run (ops ++ [op]) = apply (run ops) op := by simp [run]
    have hstored : stored (ops ++ [op]) = store (stored ops) op := by simp [stored]
    rw [hrun, hstored]
    exact mem_index_apply (hops op (by simp)) (ih fun o ho => hops o (by simp [ho])) pair

end TrieOp

namespace TopicTrie

/-- **The trie implements the pattern language.** After any sequence of calls that
    removes only patterns with their `>` last, `match_topic` returns exactly the ids of
    the stored pairs whose pattern matches the topic. -/
theorem matchTopic_run_iff (ops : List TrieOp) (hops : ∀ op ∈ ops, op.RemovesWhole)
    (literalTopic : String) (id : Uuid) :
    id ∈ (TrieOp.run ops).matchTopic literalTopic
      ↔ ∃ p, (p, id) ∈ TrieOp.stored ops ∧ Matches p (splitDot literalTopic) := by
  rw [mem_matchTopic]
  constructor
  · rintro ⟨p, hp, hm⟩
    exact ⟨p, (TrieOp.mem_index_run hops _).mp hp, hm⟩
  · rintro ⟨p, hp, hm⟩
    exact ⟨p, (TrieOp.mem_index_run hops _).mpr hp, hm⟩

/-- Overlapping patterns, empty tokens, an id under two patterns, and removals. -/
def overlappingOps : List TrieOp :=
  [.insert "orders.*.created" 1, .insert "orders.>" 2, .insert "orders.us.created" 2,
    .insert "..>" 3, .insert "orders.>.dropped" 4, .removeTopic "orders.us.created" 2,
    .insert "orders.us.created" 5, .remove 5]

theorem removesWhole_overlappingOps : ∀ op ∈ overlappingOps, op.RemovesWhole := by
  simp only [overlappingOps, List.forall_mem_cons, TrieOp.RemovesWhole, true_and, List.not_mem_nil,
    false_implies, implies_true, and_true]
  decide +kernel

/-- `orders.>.dropped` is stored as `orders.>` and matches. -/
theorem matchTopic_overlappingOps :
    (4 : Uuid) ∈ (TrieOp.run overlappingOps).matchTopic "orders.us.created" := by
  rw [matchTopic_run_iff overlappingOps removesWhole_overlappingOps]
  have hstored : ([.lit "orders", .rest], (4 : Uuid)) ∈ TrieOp.stored overlappingOps := by
    decide +kernel
  exact ⟨_, hstored, by decide +kernel⟩

end TopicTrie
end TokioEvents

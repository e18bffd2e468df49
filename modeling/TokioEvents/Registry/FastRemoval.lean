/-
  TokioEvents.Registry.FastRemoval

  `TopicTrie::remove_topic` against the full scan of `TopicTrie::remove`: what each
  returns and leaves behind, on tries built by insertions.

  The fast path follows the whole pattern, and `insert` stopped at the first `>`, so the two
  part at the patterns with something behind a `>`.
-/

import TokioEvents.Registry.TopicTrie

namespace TokioEvents

open Wildcard

namespace TrieNode

/-- The children of every node have distinct tokens, as the keys of a `HashMap` do. -/
inductive WellKeyed : TrieNode → Prop where
  | mk {subs : Finset Uuid} {ch : List (String × TrieNode)} {a t : Option TrieNode}
    (nodup : (ch.map Prod.fst).Nodup) (children : ∀ e ∈ ch, WellKeyed e.2)
    (anyChild : ∀ c ∈ a, WellKeyed c) (trailingChild : ∀ c ∈ t, WellKeyed c) :
    WellKeyed (.mk subs ch a t)

theorem wellKeyed_default : WellKeyed default :=
  .mk .nil (by simp) (by simp) (by simp)

theorem wellKeyed_getD {c : Option TrieNode} (h : ∀ n ∈ c, WellKeyed n) :
    WellKeyed (c.getD default) := by
  cases c with
  | none => exact wellKeyed_default
  | some n => exact h n rfl

theorem WellKeyed.addSubscription {n : TrieNode} (h : WellKeyed n) (id : Uuid) :
    WellKeyed (n.addSubscription id) := by
  obtain ⟨hnodup, hchildren, hany, htrailing⟩ := h
  exact .mk hnodup hchildren hany htrailing

/-- With distinct keys, the lookup finds the entries and nothing else. -/
theorem lookup_eq_some_iff_mem {token : String} {c : TrieNode} {ch : List (String × TrieNode)}
    (h : (ch.map Prod.fst).Nodup) : ch.lookup token = some c ↔ (token, c) ∈ ch := by
  induction ch with
  | nil => simp
  | cons e rest ih =>
    obtain ⟨k, n⟩ := e
    obtain ⟨hnot, hrest⟩ := List.nodup_cons.mp h
    rw [lookup_cons_ite, List.mem_cons, Prod.mk.injEq]
    by_cases hk : token = k
    · subst hk
      have hfirst : (token, c) ∉ rest := fun hmem =>
        hnot (List.mem_map.mpr ⟨(token, c), hmem, rfl⟩)
      simp [hfirst, eq_comm]
    · simp [hk, ih hrest]

theorem mem_setChild {token : String} {node : TrieNode} {ch : List (String × TrieNode)}
    {e : String × TrieNode} (h : e ∈ setChild token node ch) : e = (token, node) ∨ e ∈ ch := by
  induction ch with
  | nil => exact .inl (List.mem_singleton.mp h)
  | cons e' rest ih =>
    obtain ⟨k, n⟩ := e'
    by_cases hk : k = token
    · rw [setChild, if_pos hk] at h
      rcases List.mem_cons.mp h with rfl | h
      · exact .inl (by rw [hk])
      · exact .inr (List.mem_cons_of_mem _ h)
    · rw [setChild, if_neg hk] at h
      rcases List.mem_cons.mp h with rfl | h
      · exact .inr List.mem_cons_self
      · exact (ih h).imp_right (List.mem_cons_of_mem _)

theorem nodup_setChild {token : String} {node : TrieNode} {ch : List (String × TrieNode)}
    (h : (ch.map Prod.fst).Nodup) : ((setChild token node ch).map Prod.fst).Nodup := by
  induction ch with
  | nil => exact List.nodup_singleton _
  | cons e rest ih =>
    obtain ⟨k, n⟩ := e
    obtain ⟨hnot, hrest⟩ := List.nodup_cons.mp h
    by_cases hk : k = token
    · rw [setChild, if_pos hk]
      exact h
    · rw [setChild, if_neg hk]
      refine List.nodup_cons.mpr ⟨fun hmem => ?_, ih hrest⟩
      obtain ⟨e', he', hfst⟩ := List.mem_map.mp hmem
      rcases mem_setChild he' with rfl | hold
      · exact hk hfst.symm
      · exact hnot (hfst ▸ List.mem_map_of_mem hold)

/-- `entry(token).or_default()` never makes a second child for a token. -/
theorem WellKeyed.insertTokens {n : TrieNode} (h : WellKeyed n) (id : Uuid)
    (tokens : List String) : WellKeyed (insertTokens id tokens n) := by
  induction tokens generalizing n with
  | nil => exact h.addSubscription id
  | cons token rest ih =>
    obtain ⟨hnodup, hchildren, hany, htrailing⟩ := h
    unfold TrieNode.insertTokens
    split
    · refine .mk hnodup hchildren hany fun c hc => ?_
      cases hc
      exact (wellKeyed_getD htrailing).addSubscription id
    · split
      · refine .mk hnodup hchildren (fun c hc => ?_) htrailing
        cases hc
        exact ih (wellKeyed_getD hany)
      · refine .mk (nodup_setChild hnodup) (fun e he => ?_) hany htrailing
        rcases mem_setChild he with rfl | hold
        · refine ih (wellKeyed_getD fun c hc => ?_)
          exact hchildren (token, c) ((lookup_eq_some_iff_mem hnodup).mp hc)
        · exact hchildren e hold

/-- What `remove_topic` reports: the id was stored under the whole pattern. -/
theorem removeTopicRecursive_flag (id : Uuid) (tokens : List String) (n : TrieNode) :
    (removeTopicRecursive id tokens n).2 = true
      ↔ id ∈ subscriptionsAt (tokens.map parseToken) n := by
  induction tokens generalizing n with
  | nil =>
    obtain ⟨subs, ch, a, t⟩ := n
    simp [removeTopicRecursive]
  | cons token rest ih =>
    obtain ⟨subs, ch, a, t⟩ := n
    by_cases hrest : token = ">"
    · cases t <;> simp [removeTopicRecursive, parseToken, subscriptionsAt, hrest, ih]
    · by_cases hany : token = "*"
      · cases a <;> simp [removeTopicRecursive, parseToken, subscriptionsAt, hany, ih]
      · cases hc : ch.lookup token <;>
          simp [removeTopicRecursive, parseToken, subscriptionsAt, hrest, hany, hc, ih]

/-- The scan of the children reports what the scan of one of them does. -/
theorem removeChildren_flag {id : Uuid} {ch : List (String × TrieNode)} :
    (removeChildren id ch).2 = true ↔ ∃ e ∈ ch, (removeRecursive id e.2).2 = true := by
  induction ch with
  | nil => simp [removeChildren]
  | cons e rest ih =>
    obtain ⟨k, n⟩ := e
    simp [removeChildren, ih]

theorem removeOption_flag {id : Uuid} {c : Option TrieNode} :
    (removeOption id c).2 = true ↔ ∃ n ∈ c, (removeRecursive id n).2 = true := by
  cases c <;> simp [removeOption]

/-- What the full scan reports: the id was stored under some pattern. -/
theorem removeRecursive_flag {id : Uuid} {n : TrieNode} (h : WellKeyed n) :
    (removeRecursive id n).2 = true ↔ ∃ p, id ∈ subscriptionsAt p n := by
  induction h with
  | @mk subs ch a t hnodup _ _ _ hchildren hany htrailing =>
    simp only [removeRecursive, Bool.or_eq_true, decide_eq_true_eq, removeChildren_flag,
      removeOption_flag]
    constructor
    · rintro (((hid | ⟨⟨token, c⟩, hmem, hflag⟩) | ⟨c, hc, hflag⟩) | ⟨c, hc, hflag⟩)
      · exact ⟨[], hid⟩
      · obtain ⟨p, hp⟩ := (hchildren _ hmem).mp hflag
        -- distinct tokens: the lookup finds this child
        have hlookup : ch.lookup token = some c := (lookup_eq_some_iff_mem hnodup).mpr hmem
        exact ⟨.lit token :: p, by rwa [subscriptionsAt, hlookup]⟩
      · obtain ⟨p, hp⟩ := (hany c hc).mp hflag
        exact ⟨.any :: p, by rwa [subscriptionsAt, hc]⟩
      · obtain ⟨p, hp⟩ := (htrailing c hc).mp hflag
        exact ⟨.rest :: p, by rwa [subscriptionsAt, hc]⟩
    · rintro ⟨p, hp⟩
      rcases p with _ | ⟨token | _ | _, p⟩
      · exact .inl (.inl (.inl hp))
      · rw [subscriptionsAt] at hp
        cases hlookup : ch.lookup token with
        | none => simp [hlookup] at hp
        | some c =>
          rw [hlookup] at hp
          have hmem := (lookup_eq_some_iff_mem hnodup).mp hlookup
          exact .inl (.inl (.inr ⟨_, hmem, (hchildren _ hmem).mpr ⟨p, hp⟩⟩))
      · rw [subscriptionsAt] at hp
        cases a with
        | none => simp at hp
        | some c => exact .inl (.inr ⟨c, rfl, (hany c rfl).mpr ⟨p, hp⟩⟩)
      · rw [subscriptionsAt] at hp
        cases t with
        | none => simp at hp
        | some c => exact .inr ⟨c, rfl, (htrailing c rfl).mpr ⟨p, hp⟩⟩

end TrieNode

namespace TopicTrie

/-- A trie built by insertions. -/
def build (entries : List (String × Uuid)) : TopicTrie :=
  entries.foldl (fun trie e => trie.insert e.1 e.2) .new

theorem wellKeyed_build (entries : List (String × Uuid)) : (build entries).root.WellKeyed := by
  induction entries using List.reverseRecOn with
  | nil => exact TrieNode.wellKeyed_default
  | append_singleton entries e ih =>
    rw [build, List.foldl_append]
    exact ih.insertTokens e.2 (splitDot e.1)

/-- What a trie built by insertions stores: every id under its cut pattern. -/
theorem mem_index_build {entries : List (String × Uuid)} {p : List (Seg String)} {i : Uuid} :
    (p, i) ∈ (build entries).index ↔ ∃ e ∈ entries, p = patternOf e.1 ∧ i = e.2 := by
  induction entries using List.reverseRecOn with
  | nil => simp [build]
  | append_singleton entries e ih =>
    rw [build, List.foldl_append]
    show (p, i) ∈ ((build entries).insert e.1 e.2).index ↔ _
    rw [mem_index_insert, ih]
    simp only [List.mem_append, List.mem_singleton, or_and_right, exists_or, exists_eq_left]
    exact or_comm

/-- The two removals of an id give the same answer and leave tries that match alike. -/
def RemovalsAgree (trie : TopicTrie) (topicPattern : String) (subscriptionId : Uuid) : Prop :=
  (trie.removeTopic topicPattern subscriptionId).2 = (trie.remove subscriptionId).2 ∧
    ∀ literalTopic, (trie.removeTopic topicPattern subscriptionId).1.matchTopic literalTopic
      = (trie.remove subscriptionId).1.matchTopic literalTopic

theorem removeTopic_flag {trie : TopicTrie} {topicPattern : String} {id : Uuid} :
    (trie.removeTopic topicPattern id).2 = true
      ↔ ((splitDot topicPattern).map parseToken, id) ∈ trie.index :=
  TrieNode.removeTopicRecursive_flag id _ _

theorem remove_flag {trie : TopicTrie} (h : trie.root.WellKeyed) {id : Uuid} :
    (trie.remove id).2 = true ↔ ∃ p, (p, id) ∈ trie.index :=
  TrieNode.removeRecursive_flag h

/-- Tries that store the same match the same. -/
theorem matchTopic_congr {trie trie' : TopicTrie} (h : ∀ e, e ∈ trie.index ↔ e ∈ trie'.index)
    (literalTopic : String) : trie.matchTopic literalTopic = trie'.matchTopic literalTopic := by
  ext i
  rw [mem_matchTopic, mem_matchTopic, Set.ext h]

/-- A pattern is its own cut only if its `>` comes last. -/
theorem restLast_of_patternOf_eq {topicPattern : String}
    (h : patternOf topicPattern = (splitDot topicPattern).map parseToken) :
    RestLast topicPattern := by
  intro hmem
  refine not_mem_dropLast_of_cut_eq_self h ?_
  rw [← List.map_dropLast]
  exact List.mem_map.mpr ⟨">", hmem, rfl⟩

/-- **Fast removal against the full scan.** For an id that is stored under no other pattern, the
    two removals agree exactly when the pattern has its `>` last, or the id is not stored. -/
theorem removalsAgree_iff {entries : List (String × Uuid)} {topicPattern : String}
    {subscriptionId : Uuid}
    (honly : ∀ e ∈ entries, e.2 = subscriptionId → patternOf e.1 = patternOf topicPattern) :
    RemovalsAgree (build entries) topicPattern subscriptionId
      ↔ RestLast topicPattern ∨ ∀ e ∈ entries, e.2 ≠ subscriptionId := by
  have honly' : ∀ q, (q, subscriptionId) ∈ (build entries).index → q = patternOf topicPattern := by
    intro q hq
    obtain ⟨e, he, rfl, hid⟩ := mem_index_build.mp hq
    exact honly e he hid.symm
  have hscan : ((build entries).remove subscriptionId).2 = true
      ↔ ∃ p, (p, subscriptionId) ∈ (build entries).index := remove_flag (wellKeyed_build entries)
  constructor
  · rintro ⟨hflag, -⟩
    by_contra hnot
    obtain ⟨hinner, hstored⟩ := not_or.mp hnot
    simp only [not_forall, not_not] at hstored
    obtain ⟨e, he, hid⟩ := hstored
    -- the scan finds the id, so the fast path did: the whole pattern is its cut
    have hmem : (patternOf e.1, subscriptionId) ∈ (build entries).index :=
      mem_index_build.mpr ⟨e, he, rfl, hid.symm⟩
    have hfast := removeTopic_flag.mp (hflag.trans (hscan.mpr ⟨_, hmem⟩))
    exact hinner (restLast_of_patternOf_eq (honly' _ hfast).symm)
  · intro h
    -- the pairs with the id are those under the whole pattern
    have hpairs : ∀ q, (q, subscriptionId) ∈ (build entries).index →
        q = (splitDot topicPattern).map parseToken := by
      intro q hq
      rcases h with hlast | hnone
      · exact (honly' q hq).trans hlast.patternOf_eq
      · obtain ⟨e, he, -, hid⟩ := mem_index_build.mp hq
        exact absurd hid.symm (hnone e he)
    constructor
    · rw [Bool.eq_iff_iff, removeTopic_flag, hscan]
      exact ⟨fun hmem => ⟨_, hmem⟩, fun ⟨q, hq⟩ => hpairs q hq ▸ hq⟩
    · refine matchTopic_congr ?_
      rintro ⟨q, i⟩
      rw [mem_index_removeTopic, mem_index_remove]
      refine and_congr_right fun hmem => not_congr ⟨And.right, ?_⟩
      rintro rfl
      exact ⟨hpairs q hmem, rfl⟩

/-- Repeated wildcards and an empty token: the pattern is stored whole. -/
theorem removalsAgree_wildcards :
    RemovalsAgree (build [("orders.*.*", 1), ("orders..>", 2)]) "orders..>" 2 :=
  (removalsAgree_iff (by decide +kernel)).mpr (.inl (by decide +kernel))

/-- `orders.>.dropped` is stored as `orders.>`, where the fast path does not look. -/
theorem not_removalsAgree_innerRest :
    ((build [("orders.>.dropped", 4)]).removeTopic "orders.>.dropped" 4).2 = false ∧
      ((build [("orders.>.dropped", 4)]).remove 4).2 = true ∧
      ¬ RemovalsAgree (build [("orders.>.dropped", 4)]) "orders.>.dropped" 4 := by
  have hfast : ((build [("orders.>.dropped", 4)]).removeTopic "orders.>.dropped" 4).2 = false := by
    decide +kernel
  have hscan : ((build [("orders.>.dropped", 4)]).remove 4).2 = true := by decide +kernel
  refine ⟨hfast, hscan, fun h => ?_⟩
  have hflag := h.1
  rw [hfast, hscan] at hflag
  cases hflag

end TopicTrie
end TokioEvents

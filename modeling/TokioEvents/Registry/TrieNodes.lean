/-
  TokioEvents.Registry.TrieNodes

  How many nodes a topic trie has.  Only `insert` makes nodes, one for each prefix of the
  cut pattern that leads nowhere yet; `remove_topic` and `remove` take ids from the nodes
  and leave the nodes.  So a trie has one node for each prefix of each pattern that was
  ever inserted.
-/

import Mathlib.Algebra.Order.BigOperators.Group.Finset
import Mathlib.Data.List.Infix
import TokioEvents.Registry.Invariant
import TokioEvents.Registry.PatternLanguage

namespace TokioEvents

open Wildcard

namespace TrieNode

mutual

/-- The nodes of a trie. -/
def nodeCount : TrieNode → Nat
  | .mk _ ch a t => 1 + childrenCount ch + optionCount a + optionCount t

/-- The nodes below the literal children. -/
def childrenCount : List (String × TrieNode) → Nat
  | [] => 0
  | (_, node) :: rest => nodeCount node + childrenCount rest

/-- The nodes below an optional child. -/
def optionCount : Option TrieNode → Nat
  | none => 0
  | some node => nodeCount node

end

/-- The pattern path leads to a node. -/
def hasNode : List (Seg String) → TrieNode → Bool
  | [], _ => true
  | .lit token :: p, .mk _ ch _ _ => (ch.lookup token).elim false (hasNode p)
  | .any :: p, .mk _ _ a _ => a.elim false (hasNode p)
  | .rest :: p, .mk _ _ _ t => t.elim false (hasNode p)

@[simp] theorem hasNode_nil (n : TrieNode) : hasNode [] n = true := by
  cases n
  rfl

@[simp] theorem nodeCount_default : nodeCount default = 1 := by
  simp [default, nodeCount, childrenCount, optionCount]

theorem hasNode_default (p : List (Seg String)) : hasNode p default = decide (p = []) := by
  cases p with
  | nil => rfl
  | cons s p => cases s <;> rfl

/-- An optional child read as a node: a missing one has no path but the empty one. -/
theorem hasNode_getD (p : List (Seg String)) (c : Option TrieNode) :
    hasNode p (c.getD default) = (c.elim false (hasNode p) || decide (p = [])) := by
  cases c with
  | none => exact hasNode_default p
  | some n => cases p <;> simp

@[simp] theorem nodeCount_addSubscription (id : Uuid) (n : TrieNode) :
    nodeCount (n.addSubscription id) = nodeCount n := by
  cases n
  simp only [addSubscription, nodeCount]

@[simp] theorem hasNode_addSubscription (id : Uuid) (p : List (Seg String)) (n : TrieNode) :
    hasNode p (n.addSubscription id) = hasNode p n := by
  cases n
  cases p with
  | nil => rfl
  | cons s p => cases s <;> rfl

/-- A child is replaced, or added. -/
theorem childrenCount_setChild (token : String) (node : TrieNode)
    (ch : List (String × TrieNode)) :
    childrenCount (setChild token node ch) + optionCount (ch.lookup token)
      = childrenCount ch + nodeCount node := by
  induction ch with
  | nil => simp [setChild, childrenCount, optionCount]
  | cons e rest ih =>
    obtain ⟨k, n⟩ := e
    rw [setChild, lookup_cons_ite]
    by_cases hk : k = token
    · subst hk
      simp only [↓reduceIte, childrenCount, optionCount]
      omega
    · rw [if_neg hk, if_neg fun h => hk h.symm, childrenCount, childrenCount]
      omega

/-! ## Insertion -/

/-- The prefixes of a path that lead nowhere. -/
def missing (p : List (Seg String)) (n : TrieNode) : Nat :=
  p.inits.countP fun q => !hasNode q n

@[simp] theorem missing_nil (n : TrieNode) : missing [] n = 0 := by simp [missing]

/-- One segment on: the rest of the path is looked for below the child, and if there is
    no child, the child is missing as well. -/
theorem missing_cons (s : Seg String) (p : List (Seg String)) (n : TrieNode)
    (c : Option TrieNode) (hc : ∀ q, hasNode (s :: q) n = c.elim false (hasNode q)) :
    missing (s :: p) n + optionCount c
      = missing p (c.getD default) + nodeCount (c.getD default) := by
  have hcount : missing (s :: p) n = p.inits.countP fun q => !c.elim false (hasNode q) := by
    rw [missing, List.inits_cons, List.countP_cons_of_neg (by simp), List.countP_map]
    exact List.countP_congr fun q _ => by simp [hc]
  cases c with
  | some child =>
    rw [hcount]
    rfl
  | none =>
    -- every prefix is missing; a new child supplies the empty one
    have hall : missing (s :: p) n = p.length + 1 := by
      rw [hcount, ← List.length_inits]
      exact List.countP_eq_length.mpr fun q _ => rfl
    have hchild : missing p default = p.length := by
      cases p with
      | nil => simp
      | cons s' p =>
        rw [missing, List.inits_cons, List.countP_cons_of_neg (by simp), List.countP_map,
          List.countP_eq_length.mpr (by simp [hasNode_default]), List.length_inits,
          List.length_cons]
    rw [hall, Option.getD_none, hchild, nodeCount_default, optionCount]

/-- **Insertion** makes the nodes that are missing on the way to the cut pattern. -/
theorem nodeCount_insertTokens (id : Uuid) (tokens : List String) (n : TrieNode) :
    nodeCount (insertTokens id tokens n)
      = nodeCount n + missing (cut (tokens.map parseToken)) n := by
  induction tokens generalizing n with
  | nil => simp [insertTokens, cut]
  | cons token rest ih =>
    obtain ⟨subs, ch, a, t⟩ := n
    by_cases hrest : token = ">"
    · -- the loop breaks here: the pattern ends with this `>`
      have hcut : cut ((token :: rest).map parseToken) = [.rest] := by
        simp [parseToken, hrest, cut]
      have hmissing := missing_cons .rest [] (.mk subs ch a t) t fun q => rfl
      rw [missing_nil] at hmissing
      rw [hcut, insertTokens, if_pos hrest, nodeCount, nodeCount, optionCount,
        nodeCount_addSubscription]
      omega
    · by_cases hany : token = "*"
      · have hcut : cut ((token :: rest).map parseToken) = .any :: cut (rest.map parseToken) := by
          simp [parseToken, hany, cut]
        have hmissing := missing_cons .any (cut (rest.map parseToken)) (.mk subs ch a t) a
          fun q => rfl
        have hchild := ih (a.getD default)
        rw [hcut, insertTokens, if_neg hrest, if_pos hany, nodeCount, nodeCount, optionCount]
        omega
      · have hcut : cut ((token :: rest).map parseToken)
            = .lit token :: cut (rest.map parseToken) := by
          simp [parseToken, hrest, hany, cut]
        have hmissing := missing_cons (.lit token) (cut (rest.map parseToken)) (.mk subs ch a t)
          (ch.lookup token) fun q => rfl
        have hchild := ih ((ch.lookup token).getD default)
        have hset := childrenCount_setChild token
          (insertTokens id rest ((ch.lookup token).getD default)) ch
        rw [hcut, insertTokens, if_neg hrest, if_neg hany, nodeCount, nodeCount]
        omega

/-- **Insertion** makes the paths to the prefixes of the cut pattern. -/
theorem hasNode_insertTokens (id : Uuid) (tokens : List String) (p : List (Seg String))
    (n : TrieNode) :
    hasNode p (insertTokens id tokens n) = true
      ↔ hasNode p n = true ∨ p <+: cut (tokens.map parseToken) := by
  induction tokens generalizing p n with
  | nil =>
    rw [insertTokens, hasNode_addSubscription, List.map_nil, cut, List.prefix_nil]
    refine ⟨.inl, ?_⟩
    rintro (h | rfl)
    · exact h
    · exact hasNode_nil n
  | cons token rest ih =>
    obtain ⟨subs, ch, a, t⟩ := n
    cases p with
    | nil => simp
    | cons s p =>
      -- the child that is made for this token
      have hchild : ∀ c : Option TrieNode,
          hasNode p (insertTokens id rest (c.getD default)) = true
            ↔ c.elim false (hasNode p) = true ∨ p <+: cut (rest.map parseToken) := by
        intro c
        rw [ih, hasNode_getD, Bool.or_eq_true, decide_eq_true_eq, or_assoc]
        refine or_congr_right ⟨?_, .inr⟩
        rintro (rfl | h)
        · exact List.nil_prefix
        · exact h
      by_cases hrest : token = ">"
      · have hcut : cut ((token :: rest).map parseToken) = [.rest] := by
          simp [parseToken, hrest, cut]
        rw [hcut, insertTokens, if_pos hrest, List.cons_prefix_cons, List.prefix_nil]
        cases s with
        | lit _ => simp [hasNode]
        | any => simp [hasNode]
        | rest => simp [hasNode, hasNode_getD]
      · by_cases hany : token = "*"
        · have hcut : cut ((token :: rest).map parseToken) = .any :: cut (rest.map parseToken) := by
            simp [parseToken, hany, cut]
          rw [hcut, insertTokens, if_neg hrest, if_pos hany, List.cons_prefix_cons]
          cases s with
          | lit _ => simp [hasNode]
          | rest => simp [hasNode]
          | any => simp [hasNode, hchild]
        · have hcut : cut ((token :: rest).map parseToken)
              = .lit token :: cut (rest.map parseToken) := by
            simp [parseToken, hrest, hany, cut]
          rw [hcut, insertTokens, if_neg hrest, if_neg hany, List.cons_prefix_cons]
          cases s with
          | any => simp [hasNode]
          | rest => simp [hasNode]
          | lit k =>
            by_cases hk : k = token
            · subst hk
              simp [hasNode, hchild]
            · simp [hasNode, hk]

/-! ## Removal -/

/-- **Removal by pattern** keeps every node. -/
theorem nodeCount_removeTopicRecursive (id : Uuid) (tokens : List String) (n : TrieNode) :
    nodeCount (removeTopicRecursive id tokens n).1 = nodeCount n := by
  induction tokens generalizing n with
  | nil =>
    cases n
    simp only [removeTopicRecursive, nodeCount]
  | cons token rest ih =>
    obtain ⟨subs, ch, a, t⟩ := n
    by_cases hrest : token = ">"
    · cases t with
      | none => simp [removeTopicRecursive, hrest]
      | some child => simp [removeTopicRecursive, hrest, nodeCount, optionCount, ih]
    · by_cases hany : token = "*"
      · cases a with
        | none => simp [removeTopicRecursive, hany]
        | some child => simp [removeTopicRecursive, hany, nodeCount, optionCount, ih]
      · cases hc : ch.lookup token with
        | none => simp [removeTopicRecursive, hrest, hany, hc]
        | some child =>
          have hset := childrenCount_setChild token (removeTopicRecursive id rest child).1 ch
          rw [hc, optionCount, ih] at hset
          have hr : (removeTopicRecursive id (token :: rest) (.mk subs ch a t)).1
              = .mk subs (setChild token (removeTopicRecursive id rest child).1 ch) a t := by
            simp [removeTopicRecursive, hrest, hany, hc]
          rw [hr, nodeCount, nodeCount]
          omega

theorem hasNode_removeTopicRecursive (id : Uuid) (tokens : List String) (p : List (Seg String))
    (n : TrieNode) : hasNode p (removeTopicRecursive id tokens n).1 = hasNode p n := by
  induction tokens generalizing p n with
  | nil =>
    cases n
    cases p with
    | nil => rfl
    | cons s p => cases s <;> rfl
  | cons token rest ih =>
    obtain ⟨subs, ch, a, t⟩ := n
    cases p with
    | nil => simp
    | cons s p =>
      by_cases hrest : token = ">"
      · cases t with
        | none => simp [removeTopicRecursive, hrest]
        | some child => cases s <;> simp [removeTopicRecursive, hrest, hasNode, ih]
      · by_cases hany : token = "*"
        · cases a with
          | none => simp [removeTopicRecursive, hany]
          | some child => cases s <;> simp [removeTopicRecursive, hany, hasNode, ih]
        · cases hc : ch.lookup token with
          | none => simp [removeTopicRecursive, hrest, hany, hc]
          | some child =>
            cases s with
            | any => simp [removeTopicRecursive, hrest, hany, hc, hasNode]
            | rest => simp [removeTopicRecursive, hrest, hany, hc, hasNode]
            | lit k =>
              by_cases hk : k = token
              · subst hk
                simp [removeTopicRecursive, hrest, hany, hc, hasNode, ih]
              · simp [removeTopicRecursive, hrest, hany, hc, hasNode, hk]

mutual

/-- **The full scan** keeps every node. -/
theorem nodeCount_removeRecursive (id : Uuid) :
    (n : TrieNode) → nodeCount (removeRecursive id n).1 = nodeCount n
  | .mk subs ch a t => by
    rw [removeRecursive, nodeCount, nodeCount, childrenCount_removeChildren id ch,
      optionCount_removeOption id a, optionCount_removeOption id t]

theorem childrenCount_removeChildren (id : Uuid) :
    (ch : List (String × TrieNode)) → childrenCount (removeChildren id ch).1 = childrenCount ch
  | [] => rfl
  | (token, node) :: rest => by
    rw [removeChildren, childrenCount, childrenCount, nodeCount_removeRecursive id node,
      childrenCount_removeChildren id rest]

theorem optionCount_removeOption (id : Uuid) :
    (c : Option TrieNode) → optionCount (removeOption id c).1 = optionCount c
  | none => rfl
  | some node => by
    rw [removeOption, optionCount, optionCount, nodeCount_removeRecursive id node]

end

theorem hasNode_removeRecursive (id : Uuid) (p : List (Seg String)) (n : TrieNode) :
    hasNode p (removeRecursive id n).1 = hasNode p n := by
  induction p generalizing n with
  | nil => simp
  | cons s p ih =>
    obtain ⟨subs, ch, a, t⟩ := n
    cases s with
    | lit k =>
      simp only [removeRecursive, hasNode, lookup_removeChildren]
      cases ch.lookup k <;> simp [ih]
    | any => cases a <;> simp [removeRecursive, hasNode, removeOption, ih]
    | rest => cases t <;> simp [removeRecursive, hasNode, removeOption, ih]

end TrieNode

namespace TopicTrie

/-- The nodes of the trie. -/
def nodeCount (trie : TopicTrie) : Nat := trie.root.nodeCount

/-- The trie has a node at the pattern path. -/
def hasNode (trie : TopicTrie) (p : List (Seg String)) : Bool := trie.root.hasNode p

end TopicTrie

/-! ## Sequences of calls -/

namespace TrieOp

open TopicTrie

/-- The pattern that a call inserts. -/
def inserted : TrieOp → Option (List (Seg String))
  | .insert topicPattern _ => some (patternOf topicPattern)
  | _ => none

/-- The patterns that a sequence of calls inserts. -/
def insertedPatterns (ops : List TrieOp) : Finset (List (Seg String)) :=
  (ops.filterMap inserted).toFinset

/-- The prefixes of the patterns that a sequence of calls inserts, the empty one among
    them in any case. -/
def prefixes (ops : List TrieOp) : Finset (List (Seg String)) :=
  Insert.insert [] ((insertedPatterns ops).biUnion fun p => p.inits.toFinset)

theorem mem_prefixes {ops : List TrieOp} {p : List (Seg String)} :
    p ∈ prefixes ops ↔ p = [] ∨ ∃ q ∈ ops.filterMap inserted, p <+: q := by
  simp [prefixes, insertedPatterns]

/-- One call more. -/
theorem prefixes_concat (ops : List TrieOp) (op : TrieOp) :
    prefixes (ops ++ [op])
      = prefixes ops ∪ (op.inserted.elim ∅ fun p => p.inits.toFinset) := by
  ext p
  rw [Finset.mem_union, mem_prefixes, mem_prefixes, List.filterMap_append]
  cases hop : op.inserted with
  | none => simp [hop]
  | some q => simp [hop, or_and_right, exists_or, or_assoc]

/-- **One call** makes the prefixes of what it inserts, and takes no path away. -/
theorem hasNode_apply (trie : TopicTrie) (op : TrieOp) (p : List (Seg String)) :
    (apply trie op).hasNode p = true
      ↔ trie.hasNode p = true ∨ ∃ q, op.inserted = some q ∧ p <+: q := by
  cases op with
  | insert topicPattern id =>
    simp only [inserted, Option.some.injEq, exists_eq_left']
    exact TrieNode.hasNode_insertTokens id _ p trie.root
  | removeTopic topicPattern id =>
    simp [apply, TopicTrie.removeTopic, hasNode, inserted,
      TrieNode.hasNode_removeTopicRecursive]
  | remove id =>
    simp [apply, TopicTrie.remove, hasNode, inserted, TrieNode.hasNode_removeRecursive]

/-- **One call** that inserts nothing keeps the number of nodes. -/
theorem nodeCount_apply_of_not_inserted {op : TrieOp} (hop : op.inserted = none)
    (trie : TopicTrie) : (apply trie op).nodeCount = trie.nodeCount := by
  cases op with
  | insert topicPattern id => cases hop
  | removeTopic topicPattern id => exact TrieNode.nodeCount_removeTopicRecursive id _ trie.root
  | remove id => exact TrieNode.nodeCount_removeRecursive id trie.root

theorem nodup_inits (p : List (Seg String)) : p.inits.Nodup := by
  induction p with
  | nil => exact List.nodup_singleton []
  | cons s p ih =>
    rw [List.inits_cons, List.nodup_cons]
    exact ⟨by simp, ih.map fun _ _ h => List.tail_eq_of_cons_eq h⟩

/-- The paths of a trie after a sequence of calls. -/
theorem hasNode_run (ops : List TrieOp) (p : List (Seg String)) :
    (run ops).hasNode p = true ↔ p ∈ prefixes ops := by
  induction ops using List.reverseRecOn with
  | nil =>
    rw [mem_prefixes]
    simp [run, TopicTrie.new, hasNode, TrieNode.hasNode_default]
  | append_singleton ops op ih =>
    have hrun : run (ops ++ [op]) = apply (run ops) op := by simp [run]
    rw [hrun, hasNode_apply, ih, prefixes_concat, Finset.mem_union]
    refine or_congr_right ?_
    cases op.inserted <;> simp

/-- **The nodes of a trie.** After any sequence of calls there is one node for each prefix
    of each pattern that was inserted. -/
theorem nodeCount_run (ops : List TrieOp) : (run ops).nodeCount = (prefixes ops).card := by
  induction ops using List.reverseRecOn with
  | nil => simp [run, TopicTrie.new, nodeCount, prefixes, insertedPatterns]
  | append_singleton ops op ih =>
    have hrun : run (ops ++ [op]) = apply (run ops) op := by simp [run]
    rw [hrun, prefixes_concat]
    cases hop : op.inserted with
    | none => rw [nodeCount_apply_of_not_inserted hop, ih, Option.elim_none, Finset.union_empty]
    | some q =>
      cases op with
      | removeTopic topicPattern id => cases hop
      | remove id => cases hop
      | insert topicPattern id =>
        cases hop
        -- the new nodes are the prefixes that were no path before
        have hmissing : (patternOf topicPattern).inits.toFinset \ prefixes ops
            = ((patternOf topicPattern).inits.filter fun p => !(run ops).hasNode p).toFinset := by
          ext p
          simp [← hasNode_run]
        have hnodup := (nodup_inits (patternOf topicPattern)).filter
          fun p => !(run ops).hasNode p
        rw [Option.elim_some, ← Finset.union_sdiff_self_eq_union,
          Finset.card_union_of_disjoint Finset.disjoint_sdiff, hmissing,
          List.toFinset_card_of_nodup hnodup, ← ih, ← List.countP_eq_length_filter]
        exact TrieNode.nodeCount_insertTokens id _ (run ops).root

/-- The bound: a pattern adds at most one node for each of its segments. -/
theorem nodeCount_run_le (ops : List TrieOp) :
    (run ops).nodeCount ≤ 1 + ∑ p ∈ insertedPatterns ops, p.length := by
  have hsub : prefixes ops
      ⊆ Insert.insert [] ((insertedPatterns ops).biUnion fun p => p.inits.toFinset.erase []) := by
    intro q hq
    by_cases hnil : q = []
    · rw [hnil]
      exact Finset.mem_insert_self [] _
    · obtain ⟨p, hp, hpre⟩ := Finset.mem_biUnion.mp (Finset.mem_of_mem_insert_of_ne hq hnil)
      exact Finset.mem_insert_of_mem
        (Finset.mem_biUnion.mpr ⟨p, hp, Finset.mem_erase.mpr ⟨hnil, hpre⟩⟩)
  have hone : ∀ p ∈ insertedPatterns ops, (p.inits.toFinset.erase []).card ≤ p.length := by
    intro p _
    have hcard := List.toFinset_card_le p.inits
    rw [List.length_inits] at hcard
    rw [Finset.card_erase_of_mem (by simp)]
    omega
  calc (run ops).nodeCount
      = (prefixes ops).card := nodeCount_run ops
    _ ≤ _ := Finset.card_le_card hsub
    _ ≤ ((insertedPatterns ops).biUnion fun p => p.inits.toFinset.erase []).card + 1 :=
      Finset.card_insert_le _ _
    _ ≤ ∑ p ∈ insertedPatterns ops, (p.inits.toFinset.erase []).card + 1 :=
      Nat.add_le_add_right Finset.card_biUnion_le 1
    _ ≤ ∑ p ∈ insertedPatterns ops, p.length + 1 :=
      Nat.add_le_add_right (Finset.sum_le_sum hone) 1
    _ = 1 + ∑ p ∈ insertedPatterns ops, p.length := Nat.add_comm _ 1

/-- Later calls insert what earlier calls inserted, and more. -/
theorem insertedPatterns_append (ops ops' : List TrieOp) :
    insertedPatterns (ops ++ ops') = insertedPatterns ops ∪ insertedPatterns ops' := by
  rw [insertedPatterns, List.filterMap_append, List.toFinset_append]
  rfl

/-- A pattern that was inserted has all its prefixes as paths. -/
theorem mem_prefixes_of_inserted {ops : List TrieOp} {p q : List (Seg String)}
    (hp : p ∈ insertedPatterns ops) (hq : q <+: p) : q ∈ prefixes ops :=
  mem_prefixes.mpr (.inr ⟨p, List.mem_toFinset.mp hp, hq⟩)

/-- A sequence of calls on a trie. -/
theorem run_append (ops ops' : List TrieOp) :
    run (ops ++ ops') = ops'.foldl apply (run ops) := List.foldl_append

end TrieOp

/-! ## The trie of a registry -/

namespace DashMapRegistry

/-- The trie of a registry after calls other than `clear`: calls on the trie have led
    there, and inserted these patterns. -/
def Extends (r r' : DashMapRegistry) (patterns : Finset (List (Seg String))) : Prop :=
  ∃ ops, r'.topicTrie = ops.foldl TrieOp.apply r.topicTrie ∧
    TrieOp.insertedPatterns ops = patterns

theorem extends_of_eq {r r' : DashMapRegistry} (h : r'.topicTrie = r.topicTrie) :
    Extends r r' ∅ := ⟨[], h, rfl⟩

theorem extends_register (r : DashMapRegistry) (t : TypeId) (n : String)
    (s : SubscriptionEntry) :
    Extends r (r.register t n s).2 (s.topic.elim ∅ fun topic => {TopicTrie.patternOf topic}) := by
  unfold register
  cases s.topic with
  | none => exact extends_of_eq rfl
  | some topic => exact ⟨[.insert topic s.id], rfl, rfl⟩

theorem extends_unregister (r : DashMapRegistry) (id : Uuid) :
    Extends r (r.unregister id).2 ∅ := by
  unfold unregister
  split
  · exact extends_of_eq rfl
  · unfold Extends
    rw [topicTrie_removeFromList]
    unfold removeFromTrie
    split
    · rename_i topic _
      exact ⟨[.removeTopic topic id], rfl, rfl⟩
    · exact ⟨[.remove id], rfl, rfl⟩

theorem extends_incrementProcessed (r : DashMapRegistry) (id : Uuid) :
    Extends r (r.incrementProcessed id) ∅ := by
  apply extends_of_eq
  unfold incrementProcessed
  repeat' split
  all_goals rfl

end DashMapRegistry
end TokioEvents

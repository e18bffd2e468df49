/-
  TokioEvents.Registry.TopicTrie

  The trie that routes topics to subscriptions (`src/registry/topic_trie.rs`).

  `subscriptionsAt n path` reads the trie as an abstract index: the ids stored at
  the node a pattern path leads to.  Each operation has one equation about it:
  `insert` adds an id at the cut pattern, `removeTopic` erases an id at the whole
  (uncut) pattern, `remove` erases it everywhere, and `matchTopic` collects the
  ids of all paths that match.  A `HashSet<Uuid>` is a `Finset` and a
  `HashMap<String, TrieNode>` an association list searched from the front.
-/

import Mathlib.Data.Finset.Basic
import Mathlib.Data.Finset.Lattice.Basic
import TokioEvents.Event.Envelope
import TokioEvents.Lib.Wildcard

namespace TokioEvents

open Wildcard

/-- `str::split('.')`: never empty, and an empty string has one empty token. -/
def splitDot (s : String) : List String :=
  (s.toList.splitOn '.').map String.ofList

/-- `TrieNode`. -/
inductive TrieNode where
  | mk (subscriptions : Finset Uuid) (children : List (String × TrieNode))
      (anyChild : Option TrieNode) (trailingChild : Option TrieNode)

/-- How `insert`, `remove_topic` and `match_topic` read one token. -/
def parseToken (token : String) : Seg String :=
  if token = ">" then .rest else if token = "*" then .any else .lit token

theorem parseToken_eq_lit {t u : String} (h : parseToken t = .lit u) : u = t := by
  unfold parseToken at h
  split at h
  · cases h
  · split at h
    · cases h
    · cases h; rfl

namespace TrieNode

/-- `TrieNode::default`. -/
def default : TrieNode := .mk ∅ [] none none

/-- `children.insert(token, node)`: replace the entry in place or add one. -/
def setChild (token : String) (node : TrieNode) :
    List (String × TrieNode) → List (String × TrieNode)
  | [] => [(token, node)]
  | (k, n) :: rest => if k = token then (k, node) :: rest else (k, n) :: setChild token node rest

/-- Searching an association list from the front, as a conditional. -/
theorem lookup_cons_ite {α : Type*} (k k' : String) (v : α) (rest : List (String × α)) :
    List.lookup k ((k', v) :: rest) = if k = k' then some v else rest.lookup k := by
  by_cases h : k = k'
  · simp [h]
  · rw [List.lookup_cons, if_neg h, beq_false_of_ne h]

@[simp] theorem lookup_setChild (token k : String) (node : TrieNode)
    (ch : List (String × TrieNode)) :
    (setChild token node ch).lookup k = if k = token then some node else ch.lookup k := by
  induction ch with
  | nil => rw [setChild, lookup_cons_ite]
  | cons e rest ih =>
    obtain ⟨k', n⟩ := e
    by_cases hk : k' = token
    · subst hk
      rw [setChild, if_pos rfl, lookup_cons_ite, lookup_cons_ite]
      split <;> rfl
    · rw [setChild, if_neg hk, lookup_cons_ite, lookup_cons_ite, ih]
      by_cases h : k = k'
      · subst h; simp [hk]
      · simp [h]

/-- `current.subscriptions.insert(subscription_id)`. -/
def addSubscription (id : Uuid) : TrieNode → TrieNode
  | .mk subs ch a t => .mk (insert id subs) ch a t

/-- The loop of `TopicTrie::insert` from one node on: descend along the tokens,
    creating what is missing, and stop at the first `>`. -/
def insertTokens (id : Uuid) : List String → TrieNode → TrieNode
  | [], node => node.addSubscription id
  | token :: rest, .mk subs ch a t =>
    if token = ">" then
      .mk subs ch a (some ((t.getD default).addSubscription id))
    else if token = "*" then
      .mk subs ch (some (insertTokens id rest (a.getD default))) t
    else
      .mk subs (setChild token (insertTokens id rest ((ch.lookup token).getD default)) ch) a t

/-- `remove_topic_recursive`: unlike `insertTokens` it goes on below a `>`. -/
def removeTopicRecursive (id : Uuid) : List String → TrieNode → TrieNode × Bool
  | [], .mk subs ch a t => (.mk (subs.erase id) ch a t, decide (id ∈ subs))
  | token :: rest, .mk subs ch a t =>
    if token = ">" then
      match t with
      | some child =>
        let r := removeTopicRecursive id rest child
        (.mk subs ch a (some r.1), r.2)
      | none => (.mk subs ch a t, false)
    else if token = "*" then
      match a with
      | some child =>
        let r := removeTopicRecursive id rest child
        (.mk subs ch (some r.1) t, r.2)
      | none => (.mk subs ch a t, false)
    else
      match ch.lookup token with
      | some child =>
        let r := removeTopicRecursive id rest child
        (.mk subs (setChild token r.1 ch) a t, r.2)
      | none => (.mk subs ch a t, false)

mutual

/-- `remove_recursive`: the full scan. -/
def removeRecursive (id : Uuid) : TrieNode → TrieNode × Bool
  | .mk subs ch a t =>
    let ch' := removeChildren id ch
    let a' := removeOption id a
    let t' := removeOption id t
    (.mk (subs.erase id) ch'.1 a'.1 t'.1, decide (id ∈ subs) || ch'.2 || a'.2 || t'.2)

/-- `remove_recursive` over `children.values_mut()`. -/
def removeChildren (id : Uuid) : List (String × TrieNode) → List (String × TrieNode) × Bool
  | [] => ([], false)
  | (token, node) :: rest =>
    let n' := removeRecursive id node
    let rest' := removeChildren id rest
    ((token, n'.1) :: rest'.1, n'.2 || rest'.2)

/-- `remove_recursive` over an optional child. -/
def removeOption (id : Uuid) : Option TrieNode → Option TrieNode × Bool
  | none => (none, false)
  | some node =>
    let n' := removeRecursive id node
    (some n'.1, n'.2)

end

/-- `node.subscriptions`. -/
def subscriptions : TrieNode → Finset Uuid
  | .mk subs _ _ _ => subs

@[simp] theorem subscriptions_mk (subs : Finset Uuid) (ch : List (String × TrieNode))
    (a t : Option TrieNode) : (mk subs ch a t).subscriptions = subs := rfl

/-- `match_recursive` from one node on, returning what it adds to `results`. -/
def matchRecursive : List String → TrieNode → Finset Uuid
  | [], node => node.subscriptions
  | token :: rest, .mk _ ch a t =>
    (ch.lookup token).elim ∅ (matchRecursive rest) ∪
    a.elim ∅ (matchRecursive rest) ∪
    -- `>` matches anything from here to the end
    t.elim ∅ subscriptions

/-- The ids stored at the node a pattern path leads to (none if it leads nowhere). -/
def subscriptionsAt : List (Seg String) → TrieNode → Finset Uuid
  | [], node => node.subscriptions
  | .lit token :: p, .mk _ ch _ _ => (ch.lookup token).elim ∅ (subscriptionsAt p)
  | .any :: p, .mk _ _ a _ => a.elim ∅ (subscriptionsAt p)
  | .rest :: p, .mk _ _ _ t => t.elim ∅ (subscriptionsAt p)

@[simp] theorem subscriptionsAt_nil (n : TrieNode) : subscriptionsAt [] n = n.subscriptions := rfl

@[simp] theorem subscriptionsAt_default (p : List (Seg String)) :
    subscriptionsAt p default = ∅ := by
  cases p with
  | nil => rfl
  | cons s p => cases s <;> rfl

/-- An optional child read as a node. -/
theorem subscriptionsAt_getD (p : List (Seg String)) (c : Option TrieNode) :
    subscriptionsAt p (c.getD default) = c.elim ∅ (subscriptionsAt p) := by
  cases c <;> simp

theorem subscriptionsAt_addSubscription (id : Uuid) (p : List (Seg String)) (n : TrieNode) :
    subscriptionsAt p (n.addSubscription id)
      = if p = [] then insert id (subscriptionsAt p n) else subscriptionsAt p n := by
  obtain ⟨subs, ch, a, t⟩ := n
  cases p with
  | nil => rfl
  | cons s p => cases s <;> rfl

/-- **Insertion** stores the id at the cut pattern and changes nothing else. -/
theorem subscriptionsAt_insertTokens (id : Uuid) (tokens : List String) (p : List (Seg String))
    (n : TrieNode) :
    subscriptionsAt p (insertTokens id tokens n)
      = if p = cut (tokens.map parseToken) then insert id (subscriptionsAt p n)
        else subscriptionsAt p n := by
  induction tokens generalizing p n with
  | nil =>
    simp only [insertTokens, List.map_nil, cut]
    exact subscriptionsAt_addSubscription id p n
  | cons token rest ih =>
    obtain ⟨subs, ch, a, t⟩ := n
    by_cases hrest : token = ">"
    · -- the loop breaks here: the pattern ends with this `>`
      have hcut : cut ((token :: rest).map parseToken) = [.rest] := by
        simp [parseToken, hrest, cut]
      rw [hcut, insertTokens, if_pos hrest]
      cases p with
      | nil => simp [subscriptionsAt]
      | cons s p =>
        cases s with
        | lit _ => simp [subscriptionsAt]
        | any => simp [subscriptionsAt]
        | rest =>
          simp only [subscriptionsAt, Option.elim_some, subscriptionsAt_addSubscription,
            subscriptionsAt_getD, List.cons.injEq, true_and]
    · by_cases hany : token = "*"
      · have hcut : cut ((token :: rest).map parseToken) = .any :: cut (rest.map parseToken) := by
          simp [parseToken, hany, cut]
        rw [hcut, insertTokens, if_neg hrest, if_pos hany]
        cases p with
        | nil => simp [subscriptionsAt]
        | cons s p =>
          cases s with
          | lit _ => simp [subscriptionsAt]
          | rest => simp [subscriptionsAt]
          | any =>
            simp only [subscriptionsAt, Option.elim_some, ih, subscriptionsAt_getD,
              List.cons.injEq, true_and]
      · have hcut : cut ((token :: rest).map parseToken)
            = .lit token :: cut (rest.map parseToken) := by
          simp [parseToken, hrest, hany, cut]
        rw [hcut, insertTokens, if_neg hrest, if_neg hany]
        cases p with
        | nil => simp [subscriptionsAt]
        | cons s p =>
          cases s with
          | any => simp [subscriptionsAt]
          | rest => simp [subscriptionsAt]
          | lit k =>
            by_cases hk : k = token
            · subst hk
              simp [subscriptionsAt, ih, subscriptionsAt_getD]
            · simp [subscriptionsAt, hk]

/-- **Removal by pattern** erases the id at the uncut pattern and changes nothing else. -/
theorem subscriptionsAt_removeTopicRecursive (id : Uuid) (tokens : List String)
    (p : List (Seg String)) (n : TrieNode) :
    subscriptionsAt p (removeTopicRecursive id tokens n).1
      = if p = tokens.map parseToken then (subscriptionsAt p n).erase id
        else subscriptionsAt p n := by
  induction tokens generalizing p n with
  | nil =>
    obtain ⟨subs, ch, a, t⟩ := n
    cases p with
    | nil => rfl
    | cons s p => cases s <;> rfl
  | cons token rest ih =>
    obtain ⟨subs, ch, a, t⟩ := n
    by_cases hrest : token = ">"
    · have hparse : (token :: rest).map parseToken = .rest :: rest.map parseToken := by
        simp [parseToken, hrest]
      rw [hparse]
      cases t with
      | none =>
        rcases p with _ | ⟨_ | _ | _, p⟩ <;> simp [removeTopicRecursive, hrest, subscriptionsAt]
      | some child =>
        rcases p with _ | ⟨_ | _ | _, p⟩ <;> simp [removeTopicRecursive, hrest, subscriptionsAt, ih]
    · by_cases hany : token = "*"
      · have hparse : (token :: rest).map parseToken = .any :: rest.map parseToken := by
          simp [parseToken, hany]
        rw [hparse]
        cases a with
        | none =>
          rcases p with _ | ⟨_ | _ | _, p⟩ <;> simp [removeTopicRecursive, hany, subscriptionsAt]
        | some child =>
          rcases p with _ | ⟨_ | _ | _, p⟩ <;>
            simp [removeTopicRecursive, hany, subscriptionsAt, ih]
      · have hparse : (token :: rest).map parseToken = .lit token :: rest.map parseToken := by
          simp [parseToken, hrest, hany]
        rw [hparse]
        cases hc : ch.lookup token with
        | none =>
          have hr : removeTopicRecursive id (token :: rest) (.mk subs ch a t)
              = (.mk subs ch a t, false) := by
            simp [removeTopicRecursive, hrest, hany, hc]
          rw [hr]
          rcases p with _ | ⟨k | _ | _, p⟩
          · simp
          · by_cases hk : k = token
            · subst hk
              simp [subscriptionsAt, hc]
            · simp [hk]
          · simp
          · simp
        | some child =>
          have hr : (removeTopicRecursive id (token :: rest) (.mk subs ch a t)).1
              = .mk subs (setChild token (removeTopicRecursive id rest child).1 ch) a t := by
            simp [removeTopicRecursive, hrest, hany, hc]
          rw [hr]
          rcases p with _ | ⟨k | _ | _, p⟩
          · simp [subscriptionsAt]
          · by_cases hk : k = token
            · subst hk
              simp [subscriptionsAt, ih, hc]
            · simp [subscriptionsAt, hk]
          · simp [subscriptionsAt]
          · simp [subscriptionsAt]

theorem lookup_removeChildren (id : Uuid) (k : String) (ch : List (String × TrieNode)) :
    (removeChildren id ch).1.lookup k = (ch.lookup k).map fun c => (removeRecursive id c).1 := by
  induction ch with
  | nil => rfl
  | cons e rest ih =>
    obtain ⟨k', n⟩ := e
    rw [removeChildren, lookup_cons_ite, lookup_cons_ite, ih]
    split <;> rfl

/-- **The full scan** erases the id at every path. -/
theorem subscriptionsAt_removeRecursive (id : Uuid) (p : List (Seg String)) (n : TrieNode) :
    subscriptionsAt p (removeRecursive id n).1 = (subscriptionsAt p n).erase id := by
  induction p generalizing n with
  | nil => obtain ⟨subs, ch, a, t⟩ := n; simp [removeRecursive, subscriptions]
  | cons s p ih =>
    obtain ⟨subs, ch, a, t⟩ := n
    cases s with
    | lit k =>
      simp only [removeRecursive, subscriptionsAt, lookup_removeChildren]
      cases ch.lookup k <;> simp [ih]
    | any => cases a <;> simp [removeRecursive, subscriptionsAt, removeOption, ih]
    | rest => cases t <;> simp [removeRecursive, subscriptionsAt, removeOption, ih]

/-- **Matching** collects the ids stored under the patterns that match. -/
theorem mem_matchRecursive {i : Uuid} {tokens : List String} {n : TrieNode} :
    i ∈ matchRecursive tokens n ↔ ∃ p, Matches p tokens ∧ i ∈ subscriptionsAt p n := by
  induction tokens generalizing n with
  | nil => simp [matchRecursive]
  | cons token rest ih =>
    obtain ⟨subs, ch, a, t⟩ := n
    -- each of the three branches of the walk extends the path by its own segment
    have hchild : ∀ c : Option TrieNode, i ∈ c.elim ∅ (matchRecursive rest) ↔
        ∃ p, Matches p rest ∧ i ∈ c.elim ∅ (subscriptionsAt p) := by
      intro c
      cases c <;> simp [ih]
    have hrest : i ∈ t.elim ∅ subscriptions ↔ i ∈ t.elim ∅ (subscriptionsAt []) := by
      cases t <;> simp
    simp only [matchRecursive, Finset.mem_union, hchild, hrest]
    constructor
    · rintro ((⟨p, hm, hi⟩ | ⟨p, hm, hi⟩) | hi)
      · exact ⟨_, .lit hm, hi⟩
      · exact ⟨_, .any hm, hi⟩
      · exact ⟨_, .rest, hi⟩
    · rintro ⟨p, hm, hi⟩
      cases hm with
      | lit hm => exact .inl (.inl ⟨_, hm, hi⟩)
      | any hm => exact .inl (.inr ⟨_, hm, hi⟩)
      | rest => exact .inr hi

end TrieNode

/-- `TopicTrie`. -/
structure TopicTrie where
  root : TrieNode

namespace TopicTrie

/-- `TopicTrie::new`. -/
def new : TopicTrie := ⟨.default⟩

/-- `TopicTrie::insert`. -/
def insert (trie : TopicTrie) (topicPattern : String) (subscriptionId : Uuid) : TopicTrie :=
  ⟨trie.root.insertTokens subscriptionId (splitDot topicPattern)⟩

/-- `TopicTrie::remove_topic`. -/
def removeTopic (trie : TopicTrie) (topicPattern : String) (subscriptionId : Uuid) :
    TopicTrie × Bool :=
  let r := trie.root.removeTopicRecursive subscriptionId (splitDot topicPattern)
  (⟨r.1⟩, r.2)

/-- `TopicTrie::remove`. -/
def remove (trie : TopicTrie) (subscriptionId : Uuid) : TopicTrie × Bool :=
  let r := trie.root.removeRecursive subscriptionId
  (⟨r.1⟩, r.2)

/-- `TopicTrie::match_topic`. -/
def matchTopic (trie : TopicTrie) (literalTopic : String) : Finset Uuid :=
  trie.root.matchRecursive (splitDot literalTopic)

/-- The trie read as the (pattern, id) pairs it stores. -/
def index (trie : TopicTrie) : Set (List (Seg String) × Uuid) :=
  {e | e.2 ∈ trie.root.subscriptionsAt e.1}

/-- The pattern a string stands for: split at the dots and cut after the first `>`. -/
def patternOf (topicPattern : String) : List (Seg String) :=
  cut ((splitDot topicPattern).map parseToken)

/-- A `>` occurs only as the last token. -/
def RestLast (topicPattern : String) : Prop := ">" ∉ (splitDot topicPattern).dropLast

instance (topicPattern : String) : Decidable (RestLast topicPattern) :=
  inferInstanceAs (Decidable (_ ∉ _))

/-- Such a pattern is stored whole. -/
theorem RestLast.patternOf_eq {topicPattern : String} (h : RestLast topicPattern) :
    patternOf topicPattern = (splitDot topicPattern).map parseToken := by
  refine cut_eq_self fun hmem => h ?_
  rw [← List.map_dropLast] at hmem
  obtain ⟨token, htoken, hrest⟩ := List.mem_map.mp hmem
  have hspelled : token = ">" := by
    unfold parseToken at hrest
    split at hrest
    · assumption
    · split at hrest <;> cases hrest
  exact hspelled ▸ htoken

@[simp] theorem not_mem_index_new (p : List (Seg String)) (i : Uuid) : (p, i) ∉ new.index := by
  simp [index, new]

theorem mem_index_insert {trie : TopicTrie} {topicPattern : String} {id i : Uuid}
    {p : List (Seg String)} :
    (p, i) ∈ (trie.insert topicPattern id).index
      ↔ (p = patternOf topicPattern ∧ i = id) ∨ (p, i) ∈ trie.index := by
  simp only [index, insert, patternOf, Set.mem_ofPred_eq, TrieNode.subscriptionsAt_insertTokens]
  split
  · rename_i h; simp [h]
  · rename_i h; simp [h]

theorem mem_index_removeTopic {trie : TopicTrie} {topicPattern : String} {id i : Uuid}
    {p : List (Seg String)} :
    (p, i) ∈ (trie.removeTopic topicPattern id).1.index
      ↔ (p, i) ∈ trie.index ∧ ¬ (p = (splitDot topicPattern).map parseToken ∧ i = id) := by
  simp only [index, removeTopic, Set.mem_ofPred_eq, TrieNode.subscriptionsAt_removeTopicRecursive]
  split
  · rename_i h; simp [h, and_comm]
  · rename_i h; simp [h]

theorem mem_index_remove {trie : TopicTrie} {id i : Uuid} {p : List (Seg String)} :
    (p, i) ∈ (trie.remove id).1.index ↔ (p, i) ∈ trie.index ∧ i ≠ id := by
  simp [index, remove, TrieNode.subscriptionsAt_removeRecursive, and_comm]

/-- `match_topic` selects from the index in the sense of the pattern language. -/
theorem mem_matchTopic {trie : TopicTrie} {literalTopic : String} {i : Uuid} :
    i ∈ trie.matchTopic literalTopic ↔ i ∈ select trie.index (splitDot literalTopic) := by
  simp [matchTopic, TrieNode.mem_matchRecursive, select, index, and_comm]

/-- A topic pattern matches a literal topic. -/
def TopicMatches (topicPattern literalTopic : String) : Prop :=
  Matches (patternOf topicPattern) (splitDot literalTopic)

instance (topicPattern literalTopic : String) :
    Decidable (TopicMatches topicPattern literalTopic) :=
  decMatches _ _

/-- Every topic pattern matches at least the topic spelled like it. -/
theorem topicMatches_self (topicPattern : String) : TopicMatches topicPattern topicPattern :=
  matches_cut_map_self (fun _ _ => parseToken_eq_lit) _

end TopicTrie
end TokioEvents

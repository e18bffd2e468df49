/-
  TokioEvents.Registry.InboxTopic

  The topic that `EventBus::request` draws for its reply (`src/bus/mod.rs`): `_INBOX.`
  and an identifier.  It has no wildcard, so a subscription to it matches this one topic,
  and different identifiers have different topics.
-/

import TokioEvents.Event.Uuid
import TokioEvents.Registry.TopicTrie

namespace TokioEvents

open Wildcard TopicTrie

/-- `format!("_INBOX.{}", id)`. -/
def inboxTopic (id : Uuid) : String := "_INBOX." ++ Uuid.hyphenated id

theorem inboxTopic_injective : Function.Injective inboxTopic := by
  intro a b h
  have hchars := congrArg String.toList h
  rw [inboxTopic, inboxTopic, String.toList_append, String.toList_append] at hchars
  exact Uuid.hyphenated_injective (String.toList_injective (List.append_cancel_left hchars))

/-- A topic is determined by its tokens. -/
theorem splitDot_injective : Function.Injective splitDot := by
  intro s t h
  have hlists : s.toList.splitOn '.' = t.toList.splitOn '.' :=
    List.map_injective_iff.mpr (fun _ _ h => String.ofList_injective h) h
  have hjoin : ∀ l : List Char, ['.'].intercalate (l.splitOn '.') = l :=
    fun _ => List.intercalate_splitOn '.'
  apply String.toList_injective
  rw [← hjoin s.toList, hlists, hjoin]

namespace Uuid

theorem hyphenated_toList (id : Uuid) :
    (hyphenated id).toList = hyphenate ((nibbles id).map hexDigit) := by
  rw [hyphenated, String.toList_ofList]

/-- The characters of the text: hyphens and hexadecimal digits. -/
theorem mem_hyphenated {id : Uuid} {c : Char} (h : c ∈ (hyphenated id).toList) :
    c = '-' ∨ ∃ n < 16, c = hexDigit n := by
  have hdigit : ∀ l : List Char, l.Sublist ((nibbles id).map hexDigit) → c ∈ l →
      ∃ n < 16, c = hexDigit n := by
    intro l hl hc
    obtain ⟨n, hn, rfl⟩ := List.mem_map.mp (hl.subset hc)
    exact ⟨n, nibbles_lt id n hn, rfl⟩
  have hgroup : ∀ m n, ((((nibbles id).map hexDigit).drop m).take n).Sublist
      ((nibbles id).map hexDigit) := fun m n =>
    (List.take_sublist n _).trans (List.drop_sublist m _)
  rw [hyphenated_toList] at h
  simp only [hyphenate, List.mem_append, List.mem_cons] at h
  rcases h with h | h | h | h | h | h | h | h | h
  · exact .inr (hdigit _ (List.take_sublist 8 _) h)
  · exact .inl h
  · exact .inr (hdigit _ (hgroup 8 4) h)
  · exact .inl h
  · exact .inr (hdigit _ (hgroup 12 4) h)
  · exact .inl h
  · exact .inr (hdigit _ (hgroup 16 4) h)
  · exact .inl h
  · exact .inr (hdigit _ (List.drop_sublist 20 _) h)

theorem dot_notMem_hyphenated (id : Uuid) : '.' ∉ (hyphenated id).toList := by
  intro h
  rcases mem_hyphenated h with hhyphen | ⟨n, hn, hdigit⟩
  · cases hhyphen
  · have hhex : ∀ n < 16, '.' ≠ hexDigit n := by decide
    exact hhex n hn hdigit

/-- The text is no wildcard token. -/
theorem parseToken_hyphenated (id : Uuid) : parseToken (hyphenated id) = .lit (hyphenated id) := by
  have hhyphen : '-' ∈ (hyphenated id).toList := by
    rw [hyphenated_toList]
    simp [hyphenate]
  have hrest : hyphenated id ≠ ">" := by
    intro h
    rw [h] at hhyphen
    revert hhyphen
    decide
  have hany : hyphenated id ≠ "*" := by
    intro h
    rw [h] at hhyphen
    revert hhyphen
    decide
  rw [parseToken, if_neg hrest, if_neg hany]

end Uuid

theorem splitDot_inboxTopic (id : Uuid) :
    splitDot (inboxTopic id) = ["_INBOX", Uuid.hyphenated id] := by
  have hchars : (inboxTopic id).toList
      = ['.'].intercalate ["_INBOX".toList, (Uuid.hyphenated id).toList] := by
    rw [inboxTopic, String.toList_append, List.intercalate_cons_cons, List.intercalate_singleton]
    rfl
  have hnodot : ∀ l ∈ ["_INBOX".toList, (Uuid.hyphenated id).toList], '.' ∉ l := by
    intro l hl
    rcases List.mem_pair.mp hl with rfl | rfl
    · decide
    · exact Uuid.dot_notMem_hyphenated id
  rw [splitDot, hchars, List.splitOn_intercalate '.' hnodot (by simp)]
  simp [String.ofList_toList]

theorem patternOf_inboxTopic (id : Uuid) :
    patternOf (inboxTopic id) = [.lit "_INBOX", .lit (Uuid.hyphenated id)] := by
  have hfirst : parseToken "_INBOX" = .lit "_INBOX" := by decide
  rw [patternOf, splitDot_inboxTopic, List.map_cons, List.map_cons, List.map_nil, hfirst,
    Uuid.parseToken_hyphenated]
  rfl

/-- **An inbox receives one topic.** -/
theorem topicMatches_inboxTopic {id : Uuid} {topic : String} :
    TopicMatches (inboxTopic id) topic ↔ topic = inboxTopic id := by
  constructor
  · intro h
    rw [TopicMatches, patternOf_inboxTopic] at h
    apply splitDot_injective
    rw [splitDot_inboxTopic]
    cases htokens : splitDot topic with
    | nil => rw [htokens] at h; simp at h
    | cons first rest =>
      rw [htokens, matches_lit_cons] at h
      obtain ⟨rfl, h⟩ := h
      cases rest with
      | nil => simp at h
      | cons second rest =>
        rw [matches_lit_cons, matches_nil_left] at h
        obtain ⟨rfl, rfl⟩ := h
        rfl
  · rintro rfl
    exact topicMatches_self _

end TokioEvents

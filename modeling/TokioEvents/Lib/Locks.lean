/-
  Mutual exclusion and deadlock among concurrent calls.

  A discipline says which locks a shared state has given away, which of them a call holds
  and which one it waits for.  Calls that take only free locks and give back only their own
  exclude each other (`Exclusive.step`).  A deadlock is a set of calls each of which waits
  for a lock that another call of the set holds.
-/

import Mathlib.Data.Finset.Basic
import Mathlib.Data.Set.Basic
import TokioEvents.Lib.Calls

namespace Locks

open Calls

variable {σ κ ℓ : Type*}

/-- How calls use locks. -/
structure Discipline (σ κ ℓ : Type*) where
  locked : σ → Finset ℓ
  holds : κ → Finset ℓ
  wants : κ → Option ℓ

namespace Discipline

variable (d : Discipline σ κ ℓ)

/-- A held lock is locked, and no two calls hold the same one. -/
structure Exclusive (p : Pool σ κ) : Prop where
  locked : ∀ (i : Nat) call, p.calls[i]? = some call → d.holds call ⊆ d.locked p.shared
  disjoint : ∀ (i j : Nat) call call', i ≠ j → p.calls[i]? = some call → p.calls[j]? = some call' →
    Disjoint (d.holds call) (d.holds call')

/-- One call waits for a lock that another holds. -/
def Waits (p : Pool σ κ) (i j : Nat) : Prop :=
  i ≠ j ∧ ∃ call call' l, p.calls[i]? = some call ∧ p.calls[j]? = some call' ∧
    d.wants call = some l ∧ l ∈ d.holds call'

/-- Some calls wait for one another and for nobody else. -/
def Deadlocked (p : Pool σ κ) : Prop :=
  ∃ stuck : Set Nat, stuck.Nonempty ∧ ∀ i ∈ stuck, ∃ j ∈ stuck, d.Waits p i j

variable {d}
variable {initial : κ → Prop} [DecidablePred initial] {next : σ → κ → Option (σ × κ)}

/-- A call that begins holds nothing. -/
theorem Exclusive.begin {p : Pool σ κ} (h : d.Exclusive p) {call : κ} (hcall : d.holds call = ∅) :
    d.Exclusive { p with calls := p.calls ++ [call] } := by
  have hnew : ∀ {i : Nat} {c : κ}, (p.calls ++ [call])[i]? = some c →
      p.calls[i]? = some c ∨ d.holds c = ∅ := by
    intro i c hi
    rcases getElem?_begin hi with hold | ⟨-, rfl⟩
    · exact .inl hold
    · exact .inr hcall
  refine ⟨fun i c hi => ?_, fun i j c c' hne hi hj => ?_⟩
  · rcases hnew hi with hold | hempty
    · exact h.locked i c hold
    · rw [hempty]
      exact Finset.empty_subset _
  · rcases hnew hi with hold | hempty
    · rcases hnew hj with hold' | hempty'
      · exact h.disjoint i j c c' hne hold hold'
      · rw [hempty']
        exact Finset.disjoint_empty_right _
    · rw [hempty]
      exact Finset.disjoint_empty_left _

theorem exclusive_nil (s : σ) : d.Exclusive ⟨s, []⟩ :=
  ⟨fun i call h => by simp at h, fun i j call call' _ h => by simp at h⟩

/-- Two calls that wait for each other are stuck. -/
theorem deadlocked_of_pair {p : Pool σ κ} {i j : Nat} (hij : d.Waits p i j) (hji : d.Waits p j i) :
    d.Deadlocked p := by
  refine ⟨{i, j}, ⟨i, .inl rfl⟩, fun k hk => ?_⟩
  rcases hk with rfl | rfl
  · exact ⟨j, .inr rfl, hij⟩
  · exact ⟨i, .inl rfl, hji⟩

/-- So are three in a ring. -/
theorem deadlocked_of_triple {p : Pool σ κ} {i j k : Nat} (hij : d.Waits p i j)
    (hjk : d.Waits p j k) (hki : d.Waits p k i) : d.Deadlocked p := by
  refine ⟨{i, j, k}, ⟨i, .inl rfl⟩, fun m hm => ?_⟩
  rcases hm with rfl | rfl | rfl
  · exact ⟨j, .inr (.inl rfl), hij⟩
  · exact ⟨k, .inr (.inr rfl), hjk⟩
  · exact ⟨i, .inl rfl, hki⟩

/-! ## Mutual exclusion -/

variable [DecidableEq ℓ]

variable (d) in
/-- A step takes the free lock its call waits for, or gives back one that it holds, or leaves
    the locks alone. -/
def Obeyed (next : σ → κ → Option (σ × κ)) : Prop :=
  ∀ s call s' call', next s call = some (s', call') →
    (d.locked s' = d.locked s ∧ d.holds call' = d.holds call) ∨
      (∃ l, d.wants call = some l ∧ l ∉ d.locked s ∧ d.locked s' = insert l (d.locked s) ∧
        d.holds call' = insert l (d.holds call)) ∨
      ∃ l ∈ d.holds call, d.locked s' = (d.locked s).erase l ∧
        d.holds call' = (d.holds call).erase l

/-- What one call takes is free, and what it gives back was its own: the others are not
    concerned. -/
theorem Exclusive.advance {p : Pool σ κ} (hobeyed : d.Obeyed next) (h : d.Exclusive p)
    {index : Nat} {call call' : κ} {shared' : σ} (hcall : p.calls[index]? = some call)
    (hnext : next p.shared call = some (shared', call')) :
    d.Exclusive ⟨shared', p.calls.set index call'⟩ := by
  have hown := h.locked index call hcall
  have hother : ∀ (i : Nat) (c : κ), i ≠ index → p.calls[i]? = some c →
      d.holds c ⊆ d.locked shared' ∧ Disjoint (d.holds c) (d.holds call') := by
    intro i c hne hc
    have hsub := h.locked i c hc
    have hdisj := h.disjoint i index c call hne hc hcall
    rcases hobeyed _ _ _ _ hnext with ⟨hl, hh⟩ | ⟨l, -, hfree, hl, hh⟩ | ⟨l, hmem, hl, hh⟩
    · rw [hl, hh]
      exact ⟨hsub, hdisj⟩
    · rw [hl, hh]
      refine ⟨hsub.trans (Finset.subset_insert _ _), ?_⟩
      rw [Finset.disjoint_insert_right]
      exact ⟨fun hlc => hfree (hsub hlc), hdisj⟩
    · rw [hl, hh]
      refine ⟨fun k hk => Finset.mem_erase.mpr ⟨?_, hsub hk⟩,
        hdisj.mono_right (Finset.erase_subset _ _)⟩
      rintro rfl
      exact Finset.disjoint_left.mp hdisj hk hmem
  refine ⟨fun i c hi => ?_, fun i j c c' hne hi hj => ?_⟩
  · rcases getElem?_advance hcall hi with ⟨rfl, rfl⟩ | ⟨hne, hold⟩
    · rcases hobeyed _ _ _ _ hnext with ⟨hl, hh⟩ | ⟨l, -, -, hl, hh⟩ | ⟨l, -, hl, hh⟩
      · rw [hl, hh]
        exact hown
      · rw [hl, hh]
        exact Finset.insert_subset_insert _ hown
      · rw [hl, hh]
        exact Finset.erase_subset_erase _ hown
    · exact (hother i c hne hold).1
  · rcases getElem?_advance hcall hi with ⟨rfl, rfl⟩ | ⟨hne', hold⟩
    · rcases getElem?_advance hcall hj with ⟨rfl, rfl⟩ | ⟨hne'', hold'⟩
      · exact absurd rfl hne
      · exact (hother j c' hne'' hold').2.symm
    · rcases getElem?_advance hcall hj with ⟨rfl, rfl⟩ | ⟨-, hold'⟩
      · exact (hother i c hne' hold).2
      · exact h.disjoint i j c c' hne hold hold'

/-- **Mutual exclusion** holds throughout. -/
theorem Exclusive.step (hobeyed : d.Obeyed next)
    (hinitial : ∀ call, initial call → d.holds call = ∅) {p p' : Pool σ κ}
    {a : Calls.Action κ} (h : d.Exclusive p)
    (hstep : Calls.step initial next p a = some p') : d.Exclusive p' := by
  cases a with
  | begin call =>
    obtain ⟨hcall, rfl⟩ := step_begin.mp hstep
    exact h.begin (hinitial call hcall)
  | advance index =>
    obtain ⟨call, shared', call', hcall, hnext, rfl⟩ := step_advance.mp hstep
    exact h.advance hobeyed hcall hnext

end Discipline
end Locks

/-
  Runs that come to an end.

  Of the steps of a transition system, some are asked for from outside, and the others are
  the system's own.  A state settles when the steps of its own cannot go on for ever, and
  it is settled when none of them is enabled.  A measure that they take down gives the
  first; where they end is then a state with nothing left to do.
-/

import Mathlib.Order.WellFounded
import TokioEvents.Lib.Transition

namespace Transition

variable {σ α : Type*} (step : σ → α → Option σ) (C : α → Prop)

/-- No step that meets `C` is enabled. -/
def Settled (s : σ) : Prop := ∀ a, C a → step s a = none

/-- No run of steps that meet `C` goes on for ever. -/
def Settles (s : σ) : Prop :=
  ¬ ∃ run : Nat → σ, run 0 = s ∧ ∀ n, ∃ a, C a ∧ step (run n) a = some (run (n + 1))

variable {step C}

/-- **Measure rule.** If the steps that meet `C` keep `I` and take a well-founded measure
    down, every state with `I` settles. -/
theorem settles_of_measure {β : Type*} [Preorder β] [WellFoundedLT β] {I : σ → Prop}
    (measure : σ → β) (hI : ∀ s a s', I s → C a → step s a = some s' → I s')
    (hlt : ∀ s a s', I s → C a → step s a = some s' → measure s' < measure s) {s : σ}
    (h : I s) : Settles step C s := by
  rintro ⟨run, rfl, hrun⟩
  have hall : ∀ n, I (run n) := by
    intro n
    induction n with
    | zero => exact h
    | succ n ih =>
      obtain ⟨a, hC, hstep⟩ := hrun n
      exact hI _ a _ ih hC hstep
  obtain ⟨n, hn⟩ := WellFounded.not_rel_apply_succ (r := fun a b : β => a < b)
    fun n => measure (run n)
  obtain ⟨a, hC, hstep⟩ := hrun n
  exact hn (hlt _ a _ (hall n) hC hstep)

/-- Where there is such a measure, a run leads to a settled state. -/
theorem exists_exec_settled {β : Type*} [Preorder β] [WellFoundedLT β] {I : σ → Prop}
    (measure : σ → β) (hI : ∀ s a s', I s → C a → step s a = some s' → I s')
    (hlt : ∀ s a s', I s → C a → step s a = some s' → measure s' < measure s) {s : σ}
    (h : I s) : ∃ as s', (∀ a ∈ as, C a) ∧ exec step s as = some s' ∧ Settled step C s' := by
  induction hm : measure s using WellFoundedLT.induction generalizing s with
  | ind m ih =>
    by_cases hset : Settled step C s
    · exact ⟨[], s, nofun, rfl, hset⟩
    · simp only [Settled, not_forall] at hset
      obtain ⟨a, hC, hsome⟩ := hset
      obtain ⟨s₁, hstep⟩ := Option.ne_none_iff_exists'.mp hsome
      obtain ⟨as, s', hall, hexec, hlast⟩ :=
        ih (measure s₁) (hm ▸ hlt s a s₁ h hC hstep) (hI s a s₁ h hC hstep) rfl
      exact ⟨a :: as, s', List.forall_mem_cons.mpr ⟨hC, hall⟩,
        (exec_cons_of_step step hstep).trans hexec, hlast⟩

end Transition

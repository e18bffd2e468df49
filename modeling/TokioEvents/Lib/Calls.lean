/-
  Concurrent calls on a shared object.

  A pool is the shared state together with every call made on it so far, each in the
  phase it has reached.  `next` is one atomic step of one call; the scheduler begins
  new calls and advances old ones in any order.  What holds of every call in its
  phase holds throughout if its own steps keep it and no step of another call
  interferes (`local_invariant_along`).
-/

import TokioEvents.Lib.Transition

namespace Calls

variable {σ κ : Type*}

/-- The shared state and the calls on it. -/
structure Pool (σ κ : Type*) where
  shared : σ
  calls : List κ

/-- The moves of the scheduler. -/
inductive Action (κ : Type*) where
  /-- A call begins. -/
  | begin (call : κ)
  /-- The call at a position takes its next atomic step. -/
  | advance (index : Nat)

variable (initial : κ → Prop) [DecidablePred initial] (next : σ → κ → Option (σ × κ))

/-- One move of the scheduler. -/
def step (p : Pool σ κ) : Action κ → Option (Pool σ κ)
  | .begin call => if initial call then some { p with calls := p.calls ++ [call] } else none
  | .advance index =>
    p.calls[index]?.bind fun call =>
      (next p.shared call).map fun r => ⟨r.1, p.calls.set index r.2⟩

variable {initial next}

theorem step_begin {p p' : Pool σ κ} {call : κ} :
    step initial next p (.begin call) = some p'
      ↔ initial call ∧ p' = { p with calls := p.calls ++ [call] } := by
  by_cases h : initial call
  · simp [step, h, eq_comm]
  · simp [step, h]

theorem step_advance {p p' : Pool σ κ} {index : Nat} :
    step initial next p (.advance index) = some p'
      ↔ ∃ call shared' call', p.calls[index]? = some call ∧
          next p.shared call = some (shared', call') ∧
          p' = ⟨shared', p.calls.set index call'⟩ := by
  unfold step
  simp only [Option.bind_eq_some_iff, Option.map_eq_some_iff]
  constructor
  · rintro ⟨call, hcall, ⟨shared', call'⟩, hnext, rfl⟩
    exact ⟨call, shared', call', hcall, hnext, rfl⟩
  · rintro ⟨call, shared', call', hcall, hnext, rfl⟩
    exact ⟨call, hcall, ⟨shared', call'⟩, hnext, rfl⟩

/-! ### Positions

A call is named by its position in the pool, which it keeps. -/

theorem getElem?_begin {calls : List κ} {call c : κ} {i : Nat}
    (h : (calls ++ [call])[i]? = some c) : calls[i]? = some c ∨ (i = calls.length ∧ c = call) := by
  by_cases hlt : i < calls.length
  · exact .inl ((List.getElem?_append_left hlt).symm.trans h)
  · rw [List.getElem?_append_right (by omega)] at h
    have hzero : i - calls.length = 0 := by
      have := (List.getElem?_eq_some_iff.mp h).1
      rw [List.length_singleton] at this
      omega
    rw [hzero] at h
    exact .inr ⟨by omega, (Option.some.inj h).symm⟩

theorem getElem?_advance {calls : List κ} {call call' c : κ} {index i : Nat}
    (hcall : calls[index]? = some call) (h : (calls.set index call')[i]? = some c) :
    (i = index ∧ c = call') ∨ (i ≠ index ∧ calls[i]? = some c) := by
  by_cases heq : i = index
  · subst heq
    rw [List.getElem?_set_self (List.getElem?_eq_some_iff.mp hcall).1] at h
    exact .inl ⟨rfl, (Option.some.inj h).symm⟩
  · rw [List.getElem?_set_ne (Ne.symm heq)] at h
    exact .inr ⟨heq, h⟩

/-- A call that goes on and looks the same to `p`. -/
theorem any_set {calls : List κ} {index : Nat} {call call' : κ} {p : κ → Bool}
    (h : calls[index]? = some call) (hp : p call' = p call) :
    (calls.set index call').any p = calls.any p := by
  induction calls generalizing index with
  | nil => rfl
  | cons first calls ih =>
    cases index with
    | zero =>
      obtain rfl : first = call := by simpa using h
      simp [hp]
    | succ index => simp [ih (by simpa using h)]

theorem any_set_of_pos {calls : List κ} {index : Nat} {call call' : κ} {p : κ → Bool}
    (h : calls[index]? = some call) (hp : p call' = true) :
    (calls.set index call').any p = true :=
  List.any_eq_true.mpr ⟨call', List.mem_set (List.getElem?_eq_some_iff.mp h).1 call', hp⟩

/-- A call that goes on and looks the same to `f`. -/
theorem filterMap_set {β : Type*} {calls : List κ} {index : Nat} {call call' : κ} {f : κ → Option β}
    (h : calls[index]? = some call) (hf : f call' = f call) :
    (calls.set index call').filterMap f = calls.filterMap f := by
  induction calls generalizing index with
  | nil => rfl
  | cons first calls ih =>
    cases index with
    | zero =>
      obtain rfl : first = call := by simpa using h
      rw [List.set_cons_zero, List.filterMap_cons, List.filterMap_cons, hf]
    | succ index =>
      rw [List.set_cons_succ, List.filterMap_cons, List.filterMap_cons, ih (by simpa using h)]

/-- As many positions as there are calls with `p`. -/
theorem length_eq_countP {positions : List Nat} {calls : List κ} {p : κ → Bool}
    (hnodup : positions.Nodup)
    (h : ∀ i, i ∈ positions ↔ ∃ call, calls[i]? = some call ∧ p call = true) :
    positions.length = calls.countP p := by
  have hperm : positions.Perm
      ((List.range calls.length).filter fun i => (calls[i]?).any p) := by
    refine (List.perm_ext_iff_of_nodup hnodup (List.nodup_range.filter _)).mpr fun i => ?_
    rw [h, List.mem_filter, List.mem_range, Option.any_eq_true]
    constructor
    · rintro ⟨call, hcall, hp⟩
      exact ⟨(List.getElem?_eq_some_iff.mp hcall).1, call, hcall, hp⟩
    · exact And.right
  have hmap : ((List.range calls.length).map fun i => calls[i]?) = calls.map some := by
    refine List.ext_getElem? fun i => ?_
    by_cases hi : i < calls.length
    · simp [hi]
    · simp [hi]
  calc positions.length
      = (List.range calls.length).countP fun i => (calls[i]?).any p := by
        rw [hperm.length_eq, List.countP_eq_length_filter]
    _ = (calls.map some).countP fun call => call.any p := by rw [← hmap, List.countP_map]; rfl
    _ = calls.countP p := by rw [List.countP_map]; rfl
/-- Some call other than the one at a position. -/
def Other (p : Pool σ κ) (index : Nat) (Q : κ → Prop) : Prop :=
  ∃ i call, i ≠ index ∧ p.calls[i]? = some call ∧ Q call

instance {p : Pool σ κ} {index : Nat} {Q : κ → Prop} [DecidablePred Q] :
    Decidable (Other p index Q) :=
  decidable_of_iff (∃ i ∈ List.range p.calls.length, i ≠ index ∧ ∃ call ∈ p.calls[i]?, Q call)
    ⟨fun ⟨i, _, hne, call, hcall, hQ⟩ => ⟨i, call, hne, hcall, hQ⟩,
      fun ⟨i, call, hne, hcall, hQ⟩ =>
        ⟨i, List.mem_range.mpr (List.getElem?_eq_some_iff.mp hcall).1, hne, call, hcall, hQ⟩⟩

theorem exists_mem_iff {p : Pool σ κ} {index : Nat} {call : κ} {Q : κ → Prop}
    (hcall : p.calls[index]? = some call) :
    (∃ c ∈ p.calls, Q c) ↔ Q call ∨ Other p index Q := by
  constructor
  · rintro ⟨c, hmem, hc⟩
    obtain ⟨i, hi⟩ := List.mem_iff_getElem?.mp hmem
    by_cases heq : i = index
    · subst heq
      rw [Option.some.inj (hcall.symm.trans hi)]
      exact .inl hc
    · exact .inr ⟨i, c, heq, hi, hc⟩
  · rintro (hc | ⟨i, c, -, hi, hc⟩)
    · exact ⟨call, List.mem_of_getElem? hcall, hc⟩
    · exact ⟨c, List.mem_of_getElem? hi, hc⟩

/-- The other calls are what they were. -/
theorem exists_mem_advance_iff {p : Pool σ κ} {index : Nat} {call call' : κ} {Q : κ → Prop}
    (hcall : p.calls[index]? = some call) :
    (∃ c ∈ p.calls.set index call', Q c) ↔ Q call' ∨ Other p index Q := by
  constructor
  · rintro ⟨c, hmem, hc⟩
    obtain ⟨i, hi⟩ := List.mem_iff_getElem?.mp hmem
    rcases getElem?_advance hcall hi with ⟨-, rfl⟩ | ⟨hne, hold⟩
    · exact .inl hc
    · exact .inr ⟨i, c, hne, hold, hc⟩
  · rintro (hc | ⟨i, c, hne, hi, hc⟩)
    · exact ⟨call', List.mem_set (List.getElem?_eq_some_iff.mp hcall).1 call', hc⟩
    · have hi' : (p.calls.set index call')[i]? = some c := by
        rw [List.getElem?_set_ne (Ne.symm hne)]
        exact hi
      exact ⟨c, List.mem_of_getElem? hi', hc⟩

/-- **Local invariants.** An assertion about each call in its phase holds throughout a
    run if the first phase establishes it, the call's own steps keep it, and no move of
    another call interferes with it. -/
theorem local_invariant_along {L : Pool σ κ → κ → Prop} {C : Pool σ κ → Action κ → Prop}
    (hbegin : ∀ p call, initial call → C p (.begin call) →
      L { p with calls := p.calls ++ [call] } call)
    (hbeginOther : ∀ p call other, initial call → L p other →
      L { p with calls := p.calls ++ [call] } other)
    (hown : ∀ p index call shared' call', p.calls[index]? = some call →
      C p (.advance index) → next p.shared call = some (shared', call') → L p call →
      L ⟨shared', p.calls.set index call'⟩ call')
    (hother : ∀ p index call shared' call' other, p.calls[index]? = some call →
      C p (.advance index) → next p.shared call = some (shared', call') → L p other →
      L ⟨shared', p.calls.set index call'⟩ other)
    {p p' : Pool σ κ} {actions : List (Action κ)} (h : ∀ call ∈ p.calls, L p call)
    (hC : Transition.Along (step initial next) C p actions)
    (hexec : Transition.exec (step initial next) p actions = some p') :
    ∀ call ∈ p'.calls, L p' call := by
  refine Transition.invariant_along (I := fun p : Pool σ κ => ∀ call ∈ p.calls, L p call)
    ?_ h hC hexec
  intro p action p' h hC hstep other hmem
  cases action with
  | begin call =>
    obtain ⟨hinitial, rfl⟩ := step_begin.mp hstep
    rcases List.mem_append.mp hmem with hold | hnew
    · exact hbeginOther p call other hinitial (h other hold)
    · rw [List.mem_singleton.mp hnew]
      exact hbegin p call hinitial hC
  | advance index =>
    obtain ⟨call, shared', call', hcall, hnext, rfl⟩ := step_advance.mp hstep
    rcases List.mem_or_eq_of_mem_set hmem with hold | rfl
    · exact hother p index call shared' call' other hcall hC hnext (h other hold)
    · exact hown p index call shared' other hcall hC hnext (h call (List.mem_of_getElem? hcall))

/-- A call that has the pool for itself takes its steps one after the other. -/
theorem exec_solo {shared shared' : σ} {call call' : κ} {actions : List (Action κ)}
    (h : next shared call = some (shared', call')) :
    Transition.exec (step initial next) ⟨shared, [call]⟩ (.advance 0 :: actions)
      = Transition.exec (step initial next) ⟨shared', [call']⟩ actions := by
  refine Transition.exec_cons_of_step _ (step_advance.mpr ?_)
  exact ⟨call, shared', call', rfl, h, rfl⟩

end Calls

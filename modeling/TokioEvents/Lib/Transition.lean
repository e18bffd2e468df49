/-
  Runs of a labelled transition system.

  A system is a partial step function: an action that is not enabled has no
  successor.  `exec` takes a list of actions; an invariant of the steps is an
  invariant of the runs, possibly under a condition that every step of the run
  meets (`Along`), and a property is decided along a whole run (`Throughout`) by
  what decides it at one step.  `withHistory` puts a history variable beside the
  state, for properties that speak about what has happened.
-/

import Mathlib.Data.Option.Basic

namespace Transition

variable {σ α : Type*} (step : σ → α → Option σ)

/-- Take the actions one after the other. -/
def exec : σ → List α → Option σ
  | s, [] => some s
  | s, a :: as => (step s a).bind fun s' => exec s' as

/-- `P` holds of every state a run visits, both ends included. -/
def Throughout (P : σ → Prop) : σ → List α → Prop
  | s, [] => P s
  | s, a :: as => P s ∧ ∀ s', step s a = some s' → Throughout P s' as

/-- `C` holds of every action of a run in the state it is taken in. -/
def Along (C : σ → α → Prop) : σ → List α → Prop
  | _, [] => True
  | s, a :: as => C s a ∧ ∀ s', step s a = some s' → Along C s' as

/-- What the steps of a run add up to. -/
def sumAlong (f : σ → α → Nat) : σ → List α → Nat
  | _, [] => 0
  | s, a :: as => f s a + (step s a).elim 0 fun s' => sumAlong f s' as

instance decidableAlong {C : σ → α → Prop} [∀ s a, Decidable (C s a)] :
    (s : σ) → (as : List α) → Decidable (Along step C s as)
  | _, [] => isTrue trivial
  | s, a :: as =>
    match h : step s a with
    | none =>
      decidable_of_iff (C s a) ⟨fun hC => ⟨hC, fun s' hs => by cases h.symm.trans hs⟩, And.left⟩
    | some s₁ =>
      have := decidableAlong (C := C) s₁ as
      decidable_of_iff (C s a ∧ Along step C s₁ as)
        ⟨fun ⟨hC, hrest⟩ => ⟨hC, fun s' hs => by cases h.symm.trans hs; exact hrest⟩,
          fun ⟨hC, hrest⟩ => ⟨hC, hrest s₁ h⟩⟩

theorem exec_cons_eq_some {s s'' : σ} {a : α} {as : List α} :
    exec step s (a :: as) = some s'' ↔ ∃ s', step s a = some s' ∧ exec step s' as = some s'' := by
  rw [exec, Option.bind_eq_some_iff]

theorem exec_cons_of_step {s s' : σ} {a : α} {as : List α} (h : step s a = some s') :
    exec step s (a :: as) = exec step s' as := by
  rw [exec, h, Option.bind_some]

theorem exec_append {s : σ} {as bs : List α} :
    exec step s (as ++ bs) = (exec step s as).bind fun s' => exec step s' bs := by
  induction as generalizing s with
  | nil => rfl
  | cons a as ih =>
    rw [List.cons_append, exec, exec, Option.bind_assoc]
    congr 1
    funext s'
    exact ih

theorem exec_append_of_exec {s s' : σ} {as bs : List α} (h : exec step s as = some s') :
    exec step s (as ++ bs) = exec step s' bs := by
  rw [exec_append, h, Option.bind_some]

theorem sumAlong_cons_of_step (f : σ → α → Nat) {s s' : σ} {a : α} {as : List α}
    (h : step s a = some s') : sumAlong step f s (a :: as) = f s a + sumAlong step f s' as := by
  rw [sumAlong, h, Option.elim_some]

theorem along_cons_iff_of_step {C : σ → α → Prop} {s s' : σ} {a : α} {as : List α}
    (h : step s a = some s') : Along step C s (a :: as) ↔ C s a ∧ Along step C s' as :=
  and_congr_right fun _ => ⟨fun hrest => hrest s' h, fun hrest _ hs₁ =>
    Option.some.inj (h.symm.trans hs₁) ▸ hrest⟩

variable {step}

/-- The states a run visits satisfy in particular the last one. -/
theorem Throughout.last {P : σ → Prop} {s s' : σ} {as : List α} (h : Throughout step P s as)
    (hexec : exec step s as = some s') : P s' := by
  induction as generalizing s with
  | nil => cases hexec; exact h
  | cons a as ih =>
    obtain ⟨s₁, hstep, hrest⟩ := (exec_cons_eq_some step).mp hexec
    exact ih (h.2 s₁ hstep) hrest

/-- The first step of a run is taken where the run begins. -/
theorem along_cons {C : σ → α → Prop} {s s' : σ} {a : α} {as : List α} (h : step s a = some s')
    (hC : C s a) (hrest : Along step C s' as) : Along step C s (a :: as) :=
  ⟨hC, fun _ h' => Option.some.inj (h.symm.trans h') ▸ hrest⟩

/-- A run along a condition is a run along a weaker one. -/
theorem Along.imp {C C' : σ → α → Prop} (hC : ∀ s a, C s a → C' s a) {s : σ} {as : List α}
    (h : Along step C s as) : Along step C' s as := by
  induction as generalizing s with
  | nil => trivial
  | cons a as ih => exact ⟨hC s a h.1, fun s' hs => ih (h.2 s' hs)⟩

theorem Along.and {C C' : σ → α → Prop} {s : σ} {as : List α} (h : Along step C s as)
    (h' : Along step C' s as) : Along step (fun s a => C s a ∧ C' s a) s as := by
  induction as generalizing s with
  | nil => trivial
  | cons a as ih => exact ⟨⟨h.1, h'.1⟩, fun s' hs => ih (h.2 s' hs) (h'.2 s' hs)⟩

/-- A condition that asks nothing of the actions of a run. -/
theorem along_of_forall {C : σ → α → Prop} {as : List α} (hC : ∀ a ∈ as, ∀ s, C s a) (s : σ) :
    Along step C s as := by
  induction as generalizing s with
  | nil => trivial
  | cons a as ih =>
    exact ⟨hC a List.mem_cons_self s, fun s' _ =>
      ih (fun b hb => hC b (List.mem_cons_of_mem a hb)) s'⟩

theorem exec_along_nil {C : σ → α → Prop} {s : σ} :
    exec step s [] = some s ∧ Along step C s [] := ⟨rfl, trivial⟩

/-- One step, and then a run along the condition. -/
theorem exec_along_cons {C : σ → α → Prop} {s s' s'' : σ} {a : α} {as : List α}
    (h : step s a = some s') (hC : C s a)
    (hrest : exec step s' as = some s'' ∧ Along step C s' as) :
    exec step s (a :: as) = some s'' ∧ Along step C s (a :: as) :=
  ⟨(exec_cons_of_step step h).trans hrest.1, along_cons h hC hrest.2⟩

/-- Two runs along the condition, one after the other. -/
theorem exec_along_append {C : σ → α → Prop} {s s' s'' : σ} {as bs : List α}
    (h : exec step s as = some s' ∧ Along step C s as)
    (hrest : exec step s' bs = some s'' ∧ Along step C s' bs) :
    exec step s (as ++ bs) = some s'' ∧ Along step C s (as ++ bs) := by
  induction as generalizing s with
  | nil =>
    cases h.1
    exact hrest
  | cons a as ih =>
    obtain ⟨s₁, ha, hexec⟩ := (exec_cons_eq_some step).mp h.1
    exact exec_along_cons ha h.2.1 (ih ⟨hexec, h.2.2 s₁ ha⟩)

/-- **Invariant rule.** What every step preserves, every run preserves. -/
theorem invariant {I : σ → Prop} (hstep : ∀ s a s', I s → step s a = some s' → I s') {s s' : σ}
    {as : List α} (h : I s) (hexec : exec step s as = some s') : I s' := by
  induction as generalizing s with
  | nil => cases hexec; exact h
  | cons a as ih =>
    obtain ⟨s₁, ha, hrest⟩ := (exec_cons_eq_some step).mp hexec
    exact ih (hstep s a s₁ h ha) hrest

/-- **Conditional invariant rule.** What every step that meets `C` preserves, every run
    along `C` preserves. -/
theorem invariant_along {I : σ → Prop} {C : σ → α → Prop}
    (hstep : ∀ s a s', I s → C s a → step s a = some s' → I s') {s s' : σ} {as : List α} (h : I s)
    (hC : Along step C s as) (hexec : exec step s as = some s') : I s' := by
  induction as generalizing s with
  | nil => cases hexec; exact h
  | cons a as ih =>
    obtain ⟨s₁, ha, hrest⟩ := (exec_cons_eq_some step).mp hexec
    exact ih (hstep s a s₁ h hC.1 ha) (hC.2 s₁ ha) hrest

/-- What every step with an action that meets `C` preserves. -/
theorem invariant_forall {I : σ → Prop} {C : α → Prop}
    (hstep : ∀ s a s', I s → C a → step s a = some s' → I s') {s s' : σ} {as : List α} (h : I s)
    (hC : ∀ a ∈ as, C a) (hexec : exec step s as = some s') : I s' :=
  invariant_along hstep h (along_of_forall (C := fun _ a => C a) (fun a ha _ => hC a ha) s) hexec

/-- A run along a condition is a run along what the condition and an invariant imply. -/
theorem Along.imp_of_invariant {I : σ → Prop} {C C' : σ → α → Prop}
    (hstep : ∀ s a s', I s → step s a = some s' → I s') (hC : ∀ s a, I s → C s a → C' s a) {s : σ}
    {as : List α} (hI : I s) (h : Along step C s as) : Along step C' s as := by
  induction as generalizing s with
  | nil => trivial
  | cons a as ih =>
    exact ⟨hC s a hI h.1, fun s' hs => ih (hstep s a s' hI hs) (h.2 s' hs)⟩

/-- What an invariant of the steps along `C` implies holds throughout a run along `C`. -/
theorem throughout_along {I P : σ → Prop} {C : σ → α → Prop}
    (hstep : ∀ s a s', I s → C s a → step s a = some s' → I s') (hP : ∀ s, I s → P s) {s : σ}
    {as : List α} (h : I s) (hC : Along step C s as) : Throughout step P s as := by
  induction as generalizing s with
  | nil => exact hP s h
  | cons a as ih =>
    exact ⟨hP s h, fun s' ha => ih (hstep s a s' h hC.1 ha) (hC.2 s' ha)⟩

/-- **Exactness rule.** If, from a state where `P` holds, a step keeps `P` exactly when it
    meets `C`, then `P` holds throughout a run exactly when every step meets `C`. -/
theorem throughout_iff_along {I P : σ → Prop} {C : σ → α → Prop}
    (hinv : ∀ s a s', I s → step s a = some s' → I s')
    (hexact : ∀ s a s', I s → P s → step s a = some s' → (P s' ↔ C s a)) {s s' : σ} {as : List α}
    (hI : I s) (hP : P s) (hexec : exec step s as = some s') :
    Throughout step P s as ↔ Along step C s as := by
  induction as generalizing s with
  | nil => exact iff_of_true hP trivial
  | cons a as ih =>
    obtain ⟨s₁, ha, hrest⟩ := (exec_cons_eq_some step).mp hexec
    have hone : ∀ s', step s a = some s' → s' = s₁ := fun s' h => Option.some.inj (h.symm.trans ha)
    have hI₁ := hinv s a s₁ hI ha
    constructor
    · rintro ⟨-, h⟩
      have hP₁ : P s₁ := by
        have := h s₁ ha
        cases as with
        | nil => exact this
        | cons b bs => exact this.1
      refine ⟨(hexact s a s₁ hI hP ha).mp hP₁, fun s' h' => ?_⟩
      obtain rfl := hone s' h'
      exact (ih hI₁ hP₁ hrest).mp (h s' h')
    · rintro ⟨hC, h⟩
      refine ⟨hP, fun s' h' => ?_⟩
      obtain rfl := hone s' h'
      exact (ih hI₁ ((hexact s a s' hI hP ha).mpr hC) hrest).mpr (h s' h')

/-- **Termination rule.** If until `Q` some step that meets `C` is enabled, keeps `I` and
    takes a measure down, then a run reaches `Q`. -/
theorem exists_exec_of_progress {I Q : σ → Prop} {C : α → Prop} (measure : σ → Nat)
    (hprogress : ∀ s, I s → Q s ∨
      ∃ a s', C a ∧ step s a = some s' ∧ I s' ∧ measure s' < measure s) {s : σ} (h : I s) :
    ∃ as s', (∀ a ∈ as, C a) ∧ exec step s as = some s' ∧ Q s' := by
  induction hm : measure s using Nat.strongRecOn generalizing s with
  | ind m ih =>
    rcases hprogress s h with hQ | ⟨a, s₁, hC, hstep, hI, hlt⟩
    · exact ⟨[], s, nofun, rfl, hQ⟩
    · obtain ⟨as, s', hall, hexec, hQ⟩ := ih (measure s₁) (hm ▸ hlt) hI rfl
      refine ⟨a :: as, s', ?_, (exec_cons_of_step step hstep).trans hexec, hQ⟩
      exact List.forall_mem_cons.mpr ⟨hC, hall⟩

/-! ## Two runs side by side -/

/-- **Interleaving rule.** Two runs with the same shared actions are built from steps of one of
    them alone and shared steps of both. -/
theorem induction_shared {shared : α → Bool} {motive : List α → List α → Prop}
    (nil : motive [] [])
    (left : ∀ a as bs, shared a = false → motive as bs → motive (a :: as) bs)
    (right : ∀ b as bs, shared b = false → motive as bs → motive as (b :: bs))
    (both : ∀ a as bs, shared a = true → motive as bs → motive (a :: as) (a :: bs))
    {as bs : List α} (h : as.filter shared = bs.filter shared) : motive as bs := by
  induction as generalizing bs with
  | nil =>
    induction bs with
    | nil => exact nil
    | cons b bs ih =>
      cases hb : shared b with
      | false => exact right b [] bs hb (ih (by rwa [List.filter_cons_of_neg (by simp [hb])] at h))
      | true => simp [List.filter_cons_of_pos hb] at h
  | cons a as ih =>
    cases ha : shared a with
    | false =>
      rw [List.filter_cons_of_neg (by simp [ha])] at h
      exact left a as bs ha (ih h)
    | true =>
      induction bs with
      | nil => simp [List.filter_cons_of_pos ha] at h
      | cons b bs ihb =>
        cases hb : shared b with
        | false =>
          rw [List.filter_cons_of_neg (by simp [hb]) (l := bs)] at h
          exact right b (a :: as) bs hb (ihb h)
        | true =>
          rw [List.filter_cons_of_pos ha, List.filter_cons_of_pos hb, List.cons.injEq] at h
          obtain ⟨rfl, hrest⟩ := h
          exact both a as bs ha (ih hrest)

/-! ## History variables -/

section History

variable {η : Type*} (step) (record : σ → α → σ → η → η)

/-- The system with a history beside its state; a step that is taken is recorded. -/
def withHistory (s : σ × η) (a : α) : Option (σ × η) :=
  (step s.1 a).map fun s' => (s', record s.1 a s' s.2)

variable {step record}

theorem withHistory_eq_some {s s' : σ × η} {a : α} :
    withHistory step record s a = some s'
      ↔ step s.1 a = some s'.1 ∧ s'.2 = record s.1 a s'.1 s.2 := by
  unfold withHistory
  rw [Option.map_eq_some_iff]
  constructor
  · rintro ⟨s₁, hstep, rfl⟩
    exact ⟨hstep, rfl⟩
  · rintro ⟨hstep, hrecord⟩
    exact ⟨s'.1, hstep, by rw [← hrecord]⟩

/-- The history adds no run to those of the system. -/
theorem exec_of_withHistory {s s' : σ × η} {as : List α}
    (hexec : exec (withHistory step record) s as = some s') : exec step s.1 as = some s'.1 := by
  induction as generalizing s with
  | nil =>
    cases hexec
    rfl
  | cons a as ih =>
    obtain ⟨s₁, ha, hrest⟩ := (exec_cons_eq_some _).mp hexec
    rw [exec_cons_of_step _ (withHistory_eq_some.mp ha).1]
    exact ih hrest

end History

end Transition

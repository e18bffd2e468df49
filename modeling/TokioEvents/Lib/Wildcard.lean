/-
  Wildcard patterns over token lists.

  A pattern is a list of segments: a literal token, `any` (exactly one token) or
  `rest` (one or more remaining tokens).  `Matches` is the pattern language; a
  `rest` that is not the last segment matches nothing, so `cut`, which drops
  whatever follows the first `rest`, normalises a pattern without changing what
  it matches beyond that.  `index` is the abstract content of any structure that
  stores items under patterns, and `select` the items a token list selects.
-/

import Mathlib.Data.Set.Basic

namespace Wildcard

variable {τ ι : Type*}

/-- One segment of a pattern. -/
inductive Seg (τ : Type*) where
  | lit (t : τ)
  | any
  | rest
  deriving DecidableEq, Repr

/-- The pattern language. -/
inductive Matches : List (Seg τ) → List τ → Prop where
  | nil : Matches [] []
  | lit {t : τ} {p : List (Seg τ)} {ts : List τ} : Matches p ts → Matches (.lit t :: p) (t :: ts)
  | any {t : τ} {p : List (Seg τ)} {ts : List τ} : Matches p ts → Matches (.any :: p) (t :: ts)
  | rest {t : τ} {ts : List τ} : Matches [.rest] (t :: ts)

@[simp] theorem matches_nil_left {ts : List τ} : Matches [] ts ↔ ts = [] := by
  constructor
  · intro h; cases h; rfl
  · rintro rfl; exact .nil

@[simp] theorem matches_nil_right {p : List (Seg τ)} : Matches p [] ↔ p = [] := by
  constructor
  · intro h; cases h; rfl
  · rintro rfl; exact .nil

@[simp] theorem matches_lit_cons {t u : τ} {p : List (Seg τ)} {ts : List τ} :
    Matches (.lit t :: p) (u :: ts) ↔ t = u ∧ Matches p ts := by
  constructor
  · intro h; cases h with | lit h => exact ⟨rfl, h⟩
  · rintro ⟨rfl, h⟩; exact .lit h

@[simp] theorem matches_any_cons {u : τ} {p : List (Seg τ)} {ts : List τ} :
    Matches (.any :: p) (u :: ts) ↔ Matches p ts := by
  constructor
  · intro h; cases h with | any h => exact h
  · exact .any

@[simp] theorem matches_rest_cons {u : τ} {p : List (Seg τ)} {ts : List τ} :
    Matches (.rest :: p) (u :: ts) ↔ p = [] := by
  constructor
  · intro h; cases h; rfl
  · rintro rfl; exact .rest

instance decMatches [DecidableEq τ] : (p : List (Seg τ)) → (ts : List τ) → Decidable (Matches p ts)
  | [], ts => decidable_of_iff _ matches_nil_left.symm
  | _ :: _, [] => decidable_of_iff False (by simp)
  | .lit t :: p, u :: ts =>
    have := decMatches p ts
    decidable_of_iff _ matches_lit_cons.symm
  | .any :: p, _ :: ts =>
    have := decMatches p ts
    decidable_of_iff _ matches_any_cons.symm
  | .rest :: p, _ :: _ => decidable_of_iff (p = []) matches_rest_cons.symm

/-- Drop everything after the first `rest`. -/
def cut : List (Seg τ) → List (Seg τ)
  | [] => []
  | .rest :: _ => [.rest]
  | s :: p => s :: cut p

/-- A pattern without an inner `rest` is not cut. -/
theorem cut_eq_self {p : List (Seg τ)} (h : .rest ∉ p.dropLast) : cut p = p := by
  induction p with
  | nil => rfl
  | cons s p ih =>
    have htail : .rest ∉ p.dropLast := by
      cases p with
      | nil => simp
      | cons s' p => exact fun hmem => h (List.mem_cons_of_mem _ hmem)
    cases s with
    | lit t => exact congrArg (.lit t :: ·) (ih htail)
    | any => exact congrArg (.any :: ·) (ih htail)
    | rest =>
      cases p with
      | nil => rfl
      | cons s' p => exact absurd (List.mem_cons_self ..) h

/-- And a pattern with one is. -/
theorem not_mem_dropLast_of_cut_eq_self {p : List (Seg τ)} (h : cut p = p) :
    .rest ∉ p.dropLast := by
  induction p with
  | nil => simp
  | cons s p ih =>
    cases p with
    | nil => simp
    | cons s' p =>
      intro hmem
      rcases List.mem_cons.mp hmem with rfl | hlater
      · simp [cut] at h
      · cases s with
        | rest => simp [cut] at h
        | lit t => exact ih (List.tail_eq_of_cons_eq h) hlater
        | any => exact ih (List.tail_eq_of_cons_eq h) hlater

/-- Read as a topic, a pattern matches itself: literal segments meet their own
    token, `any` meets whatever token spelled it, and `rest` meets at least the
    token that spelled it. -/
theorem matches_cut_map_self {parse : τ → Seg τ}
    (hparse : ∀ t u, parse t = .lit u → u = t) (ts : List τ) :
    Matches (cut (ts.map parse)) ts := by
  induction ts with
  | nil => exact .nil
  | cons t ts ih =>
    rw [List.map_cons]
    cases hp : parse t with
    | lit u =>
      obtain rfl := hparse t u hp
      exact .lit ih
    | any => exact .any ih
    | rest => exact .rest

/-- The items that a token list selects from an index of (pattern, item) pairs. -/
def select (index : Set (List (Seg τ) × ι)) (ts : List τ) : Set ι :=
  {i | ∃ p, (p, i) ∈ index ∧ Matches p ts}

end Wildcard

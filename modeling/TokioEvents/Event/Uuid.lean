/-
  TokioEvents.Event.Uuid

  `Uuid::to_string`: the hyphenated form of an identifier, in lower-case hexadecimal
  digits.  Different identifiers have different texts.
-/

import Mathlib.Data.Nat.Bitwise
import TokioEvents.Event.Envelope

namespace TokioEvents

/-- A hexadecimal digit. -/
def hexDigit (n : Nat) : Char := ("0123456789abcdef".toList)[n]?.getD '0'

theorem hexDigit_injOn : ∀ m < 16, ∀ n < 16, hexDigit m = hexDigit n → m = n := by decide

namespace Uuid

/-- The 32 hexadecimal digits, the highest first. -/
def nibbles (id : Uuid) : List Nat := (List.range 32).map fun i => id.toNat / 16 ^ (31 - i) % 16

theorem nibbles_lt (id : Uuid) : ∀ n ∈ nibbles id, n < 16 := by
  intro n hn
  obtain ⟨i, -, rfl⟩ := List.mem_map.mp hn
  exact Nat.mod_lt _ (by decide)

/-- A bit of the number is a bit of one of its digits. -/
theorem testBit_nibble (x k : Nat) :
    (x / 16 ^ (k / 4) % 16).testBit (k % 4) = x.testBit k := by
  have hpow : (16 : Nat) ^ (k / 4) = 2 ^ (4 * (k / 4)) := by
    rw [show (16 : Nat) = 2 ^ 4 from rfl, ← Nat.pow_mul]
  have hsplit : k % 4 + 4 * (k / 4) = k := Nat.mod_add_div k 4
  rw [hpow, show (16 : Nat) = 2 ^ 4 from rfl, Nat.testBit_mod_two_pow, Nat.testBit_div_two_pow,
    hsplit]
  simp [Nat.mod_lt k (by decide : 0 < 4)]

/-- The digits determine the identifier. -/
theorem nibbles_injective {a b : Uuid} (h : nibbles a = nibbles b) : a = b := by
  have hdigit : ∀ i < 32, a.toNat / 16 ^ i % 16 = b.toNat / 16 ^ i % 16 := by
    intro i hi
    have hget := congrArg (·[31 - i]?) h
    have hsub : 31 - (31 - i) = i := by omega
    simpa [nibbles, hsub, (by omega : 31 - i < 32)] using hget
  apply BitVec.eq_of_toNat_eq
  apply Nat.eq_of_testBit_eq
  intro k
  by_cases hk : k < 128
  · rw [← testBit_nibble a.toNat, ← testBit_nibble b.toNat, hdigit (k / 4) (by omega)]
  · have hbig : (2 : Nat) ^ 128 ≤ 2 ^ k := Nat.pow_le_pow_right (by decide) (by omega)
    rw [Nat.testBit_eq_false_of_lt (lt_of_lt_of_le a.isLt hbig),
      Nat.testBit_eq_false_of_lt (lt_of_lt_of_le b.isLt hbig)]

/-- The hyphens after groups of 8, 4, 4 and 4 digits. -/
def hyphenate (digits : List Char) : List Char :=
  digits.take 8 ++ '-' :: ((digits.drop 8).take 4 ++ '-' :: ((digits.drop 12).take 4 ++
    '-' :: ((digits.drop 16).take 4 ++ '-' :: digits.drop 20)))

/-- `to_string`. -/
def hyphenated (id : Uuid) : String := String.ofList (hyphenate ((nibbles id).map hexDigit))

/-- Without its hyphens the text is the digits. -/
theorem filter_hyphenate {digits : List Char} (h : ∀ c ∈ digits, (c != '-') = true) :
    (hyphenate digits).filter (· != '-') = digits := by
  have hkeep : ∀ l : List Char, l.Sublist digits → l.filter (· != '-') = l :=
    fun l hl => List.filter_eq_self.mpr fun c hc => h c (hl.subset hc)
  have hgroup : ∀ m n, ((digits.drop m).take n).filter (· != '-') = (digits.drop m).take n :=
    fun m n => hkeep _ ((List.take_sublist n _).trans (List.drop_sublist m digits))
  have hjoin : ∀ m n, (digits.drop m).take n ++ digits.drop (m + n) = digits.drop m := by
    intro m n
    rw [← List.drop_drop]
    exact List.take_append_drop n _
  have hhyphen : ∀ l : List Char, ('-' :: l).filter (· != '-') = l.filter (· != '-') :=
    fun l => List.filter_cons_of_neg (by decide)
  unfold hyphenate
  simp only [List.filter_append, hhyphen, hgroup, hkeep _ (List.take_sublist 8 digits),
    hkeep _ (List.drop_sublist 20 digits)]
  rw [hjoin 16 4, hjoin 12 4, hjoin 8 4]
  exact List.take_append_drop 8 digits

/-- Lists of digits are told apart. -/
theorem map_hexDigit_injective {l l' : List Nat} (hl : ∀ n ∈ l, n < 16) (hl' : ∀ n ∈ l', n < 16)
    (h : l.map hexDigit = l'.map hexDigit) : l = l' := by
  induction l generalizing l' with
  | nil => simpa using h.symm
  | cons n l ih =>
    cases l' with
    | nil => simp at h
    | cons n' l' =>
      rw [List.map_cons, List.map_cons, List.cons_eq_cons] at h
      rw [hexDigit_injOn n (hl n List.mem_cons_self) n' (hl' n' List.mem_cons_self) h.1,
        ih (fun m hm => hl m (List.mem_cons_of_mem _ hm))
          (fun m hm => hl' m (List.mem_cons_of_mem _ hm)) h.2]

theorem hexDigit_ne_hyphen {id : Uuid} : ∀ c ∈ (nibbles id).map hexDigit, (c != '-') = true := by
  intro c hc
  obtain ⟨n, hn, rfl⟩ := List.mem_map.mp hc
  have hhex : ∀ n < 16, (hexDigit n != '-') = true := by decide
  exact hhex n (nibbles_lt id n hn)

/-- The text determines the identifier. -/
theorem hyphenated_injective : Function.Injective hyphenated := by
  intro a b h
  have hchars : hyphenate ((nibbles a).map hexDigit) = hyphenate ((nibbles b).map hexDigit) := by
    have := congrArg String.toList h
    simpa [hyphenated] using this
  apply nibbles_injective
  apply map_hexDigit_injective (nibbles_lt a) (nibbles_lt b)
  rw [← filter_hyphenate hexDigit_ne_hyphen, hchars, filter_hyphenate hexDigit_ne_hyphen]

example : hyphenated 0x0123456789abcdef0000000000000042
    = "01234567-89ab-cdef-0000-000000000042" := by decide

end Uuid
end TokioEvents

import Mathlib.Data.List.Basic
import Mathlib.Data.Nat.Bitwise

/-!
# Bit strings

The low bits of a number as a string of bits, the highest first, and the string of
a list of words of one width. The string determines the words, also when less than
a word is left behind them (`words_cancel`); so a loop that regroups words of one
width into words of another is described by the strings of both.
-/

namespace Bits

/-- The low `w` bits of `n`. -/
def ofNat : Nat → Nat → List Bool
  | 0, _ => []
  | w + 1, n => n.testBit w :: ofNat w n

/-- The string of words of `w` bits. -/
def words (w : Nat) (ns : List Nat) : List Bool := ns.flatMap (ofNat w)

variable {v w a b m n : Nat} {xs ys : List Nat} {r s : List Bool}

@[simp] theorem length_ofNat (w n : Nat) : (ofNat w n).length = w := by
  induction w with
  | zero => rfl
  | succ w ih => rw [ofNat, List.length_cons, ih]

/-- Numbers with the same low bits have the same string. -/
theorem ofNat_congr (same : ∀ i < w, m.testBit i = n.testBit i) : ofNat w m = ofNat w n := by
  induction w with
  | zero => rfl
  | succ w ih => rw [ofNat, ofNat, same w (Nat.lt_succ_self w), ih fun i hi => same i (Nat.lt_succ_of_lt hi)]

/-- What is cut off above does not matter. -/
theorem ofNat_mod (h : w ≤ v) (n : Nat) : ofNat w (n % 2 ^ v) = ofNat w n := by
  refine ofNat_congr fun i hi => ?_
  rw [Nat.testBit_mod_two_pow, decide_eq_true (Nat.lt_of_lt_of_le hi h), Bool.true_and]

/-- The high and the low part of a string. -/
theorem ofNat_add (v w n : Nat) : ofNat (v + w) n = ofNat v (n / 2 ^ w) ++ ofNat w n := by
  induction v with
  | zero => rw [Nat.zero_add, ofNat, List.nil_append]
  | succ v ih =>
    rw [Nat.add_right_comm, ofNat, ofNat, ih, Nat.testBit_div_two_pow, List.cons_append]

/-- A number shifted in front of another. -/
theorem ofNat_concat (v a : Nat) (h : b < 2 ^ w) : ofNat (v + w) (a * 2 ^ w + b) = ofNat v a ++ ofNat w b := by
  have high : (a * 2 ^ w + b) / 2 ^ w = a := by
    rw [Nat.mul_comm, Nat.mul_add_div (Nat.two_pow_pos w), Nat.div_eq_of_lt h, Nat.add_zero]
  have low : (a * 2 ^ w + b) % 2 ^ w = b := by
    rw [Nat.mul_comm, Nat.mul_add_mod, Nat.mod_eq_of_lt h]
  rw [ofNat_add, high, ← ofNat_mod (Nat.le_refl w) (a * 2 ^ w + b), low]

theorem ofNat_zero (w : Nat) : ofNat w 0 = List.replicate w false := by
  induction w with
  | zero => rfl
  | succ w ih => rw [ofNat, ih, Nat.zero_testBit, List.replicate_succ]

theorem testBit_of_ofNat (h : ofNat w m = ofNat w n) : ∀ i < w, m.testBit i = n.testBit i := by
  induction w with
  | zero => exact fun i hi => absurd hi (Nat.not_lt_zero i)
  | succ w ih =>
    rw [ofNat, ofNat, List.cons.injEq] at h
    intro i hi
    rcases Nat.lt_succ_iff_lt_or_eq.1 hi with less | rfl
    · exact ih h.2 i less
    · exact h.1

theorem ofNat_injective (hm : m < 2 ^ w) (hn : n < 2 ^ w) (h : ofNat w m = ofNat w n) : m = n := by
  refine Nat.eq_of_testBit_eq fun i => ?_
  rcases Nat.lt_or_ge i w with low | high
  · exact testBit_of_ofNat h i low
  · have above : 2 ^ w ≤ 2 ^ i := Nat.pow_le_pow_right Nat.zero_lt_two high
    rw [Nat.testBit_lt_two_pow (Nat.lt_of_lt_of_le hm above), Nat.testBit_lt_two_pow (Nat.lt_of_lt_of_le hn above)]

@[simp] theorem words_nil (w : Nat) : words w [] = [] := rfl

@[simp] theorem words_cons (w n : Nat) (ns : List Nat) : words w (n :: ns) = ofNat w n ++ words w ns := rfl

theorem words_append (w : Nat) (xs ys : List Nat) : words w (xs ++ ys) = words w xs ++ words w ys :=
  List.flatMap_append

/-- Words are read off their string, whatever shorter rest is behind it. -/
theorem words_cancel (hx : ∀ x ∈ xs, x < 2 ^ w) (hy : ∀ y ∈ ys, y < 2 ^ w) (hr : r.length < w) (hs : s.length < w)
    (h : words w xs ++ r = words w ys ++ s) : xs = ys ∧ r = s := by
  induction xs generalizing ys with
  | nil =>
    cases ys with
    | nil => exact ⟨rfl, h⟩
    | cons y ys =>
      have lengths := congrArg List.length h
      simp only [words_nil, words_cons, List.length_append, List.length_nil, length_ofNat] at lengths
      omega
  | cons x xs ih =>
    cases ys with
    | nil =>
      have lengths := congrArg List.length h
      simp only [words_nil, words_cons, List.length_append, List.length_nil, length_ofNat] at lengths
      omega
    | cons y ys =>
      rw [words_cons, words_cons, List.append_assoc, List.append_assoc] at h
      obtain ⟨first, rest⟩ := List.append_inj h (by rw [length_ofNat, length_ofNat])
      obtain ⟨tails, ends⟩ := ih (fun x' hx' => hx x' (List.mem_cons_of_mem _ hx'))
        (fun y' hy' => hy y' (List.mem_cons_of_mem _ hy')) rest
      rw [ofNat_injective (hx x List.mem_cons_self) (hy y List.mem_cons_self) first, tails]
      exact ⟨rfl, ends⟩

end Bits

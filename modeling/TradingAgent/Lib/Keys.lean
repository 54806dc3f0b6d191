/-
Keys made of texts. Parts joined by a separator are told apart again from the right as long as the
separator does not occur in them; the part in front may contain it. Decimal numbers are such parts, and
different numbers have different texts.
-/
import Mathlib.Data.String.Basic
import Mathlib.Data.Int.Notation
import Mathlib.Data.Nat.Notation
import Mathlib.Tactic.Common

namespace Keys

/-! ## Separators -/

/-- The text behind the last separator, and what stands in front of it. -/
theorem append_cons_inj {α : Type} {c : α} {a b x y : List α} (hx : c ∉ x) (hy : c ∉ y)
    (h : a ++ c :: x = b ++ c :: y) : a = b ∧ x = y := by
  rcases List.append_eq_append_iff.1 h with ⟨m, rfl, hm⟩ | ⟨m, rfl, hm⟩
  · cases m with
    | nil => exact ⟨by simp, (List.cons.inj hm).2⟩
    | cons d m =>
      obtain ⟨-, rfl⟩ := List.cons.inj hm
      exact absurd (List.mem_append_right m List.mem_cons_self) hx
  · cases m with
    | nil => exact ⟨by simp, (List.cons.inj hm).2.symm⟩
    | cons d m =>
      obtain ⟨-, rfl⟩ := List.cons.inj hm
      exact absurd (List.mem_append_right m List.mem_cons_self) hy

/-- The text in front of the first separator, and what stands behind it. -/
theorem cons_append_inj {α : Type} {c : α} {a b x y : List α} (ha : c ∉ a) (hb : c ∉ b)
    (h : a ++ c :: x = b ++ c :: y) : a = b ∧ x = y := by
  rcases List.append_eq_append_iff.1 h with ⟨m, rfl, hm⟩ | ⟨m, rfl, hm⟩
  · cases m with
    | nil => exact ⟨by simp, (List.cons.inj hm).2⟩
    | cons d m =>
      obtain ⟨rfl, -⟩ := List.cons.inj hm
      exact absurd (List.mem_append_right a List.mem_cons_self) hb
  · cases m with
    | nil => exact ⟨by simp, (List.cons.inj hm).2.symm⟩
    | cons d m =>
      obtain ⟨rfl, -⟩ := List.cons.inj hm
      exact absurd (List.mem_append_right b List.mem_cons_self) ha

/-- Two texts joined by a colon are the same only if their parts are, provided the colon is the last. -/
theorem join_inj {a b x y : String} (hx : ':' ∉ x.toList) (hy : ':' ∉ y.toList)
    (h : a ++ ":" ++ x = b ++ ":" ++ y) : a = b ∧ x = y := by
  have hlist : a.toList ++ ':' :: x.toList = b.toList ++ ':' :: y.toList := by
    have := congrArg String.toList h
    simpa using this
  obtain ⟨hab, hxy⟩ := append_cons_inj hx hy hlist
  exact ⟨String.toList_inj.1 hab, String.toList_inj.1 hxy⟩

/-! ## Numbers -/

theorem natRepr_injective {m n : ℕ} (h : m.repr = n.repr) : m = n := by
  have hdigits : Nat.toDigits 10 m = Nat.toDigits 10 n := by
    rw [← Nat.toList_repr, ← Nat.toList_repr, h]
  rw [← Nat.ofDigitChars_ten_toDigits (n := m), hdigits, Nat.ofDigitChars_ten_toDigits]

theorem isDigit_of_mem_repr {n : ℕ} {c : Char} (h : c ∈ n.repr.toList) : c.isDigit = true := by
  rw [Nat.toList_repr] at h
  exact Nat.isDigit_of_mem_toDigits (by omega) (by omega) h

theorem intToString_injective : Function.Injective (fun n : ℤ => toString n) := by
  intro m n h
  simp only [Int.toString_eq_repr] at h
  have hminus : ∀ a b : ℕ, a.repr ≠ "-" ++ b.repr := by
    intro a b hab
    have hmem : '-' ∈ a.repr.toList := by rw [hab]; simp
    exact absurd (isDigit_of_mem_repr hmem) (by decide)
  cases m with
  | ofNat m =>
    cases n with
    | ofNat n => rw [natRepr_injective h]
    | negSucc n => exact absurd h (hminus m n.succ)
  | negSucc m =>
    cases n with
    | ofNat n => exact absurd h.symm (hminus n m.succ)
    | negSucc n =>
      have hrepr : m.succ.repr = n.succ.repr := by
        have := congrArg String.toList h
        simp only [Int.repr, String.toList_append, List.append_cancel_left_eq] at this
        exact String.toList_inj.1 this
      rw [Nat.succ_injective (natRepr_injective hrepr)]

theorem colon_notMem_intToString (n : ℤ) : ':' ∉ (toString n).toList := by
  intro h
  rw [Int.toString_eq_repr] at h
  cases n with
  | ofNat n => exact absurd (isDigit_of_mem_repr h) (by decide)
  | negSucc n =>
    simp only [Int.repr, String.toList_append, List.mem_append] at h
    rcases h with h | h
    · exact absurd h (by decide)
    · exact absurd (isDigit_of_mem_repr h) (by decide)

end Keys

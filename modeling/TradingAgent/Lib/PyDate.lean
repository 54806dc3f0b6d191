/-
Calendar dates as the standard library of Python has them: a year of four digits, a month and a day of the
month, ordered by these in turn. A date is written in ISO form, with fixed places for its digits, so
different dates have different texts.
-/
import TradingAgent.Lib.Keys
import TradingAgent.Lib.Calendar

/-- A date of the years 1 to 9999. -/
@[ext]
structure PyDate where
  year : ℕ
  month : ℕ
  day : ℕ
  valid : 1 ≤ year ∧ year ≤ 9999 ∧ 1 ≤ month ∧ month ≤ 12 ∧ 1 ≤ day ∧ (day : ℤ) ≤ Calendar.daysInMonth year month
  deriving DecidableEq

namespace PyDate

/-- `date(year, month, day)`; `none` is a `ValueError`. -/
def make? (year month day : ℤ) : Option PyDate :=
  if h : 1 ≤ year.toNat ∧ year.toNat ≤ 9999 ∧ 1 ≤ month.toNat ∧ month.toNat ≤ 12 ∧ 1 ≤ day.toNat ∧
      (day.toNat : ℤ) ≤ Calendar.daysInMonth year.toNat month.toNat
  then some ⟨year.toNat, month.toNat, day.toNat, h⟩
  else none

/-- A number in the order of the dates. -/
def num (d : PyDate) : ℕ := d.year * 10000 + d.month * 100 + d.day

instance : LE PyDate := ⟨fun a b => a.num ≤ b.num⟩

instance (a b : PyDate) : Decidable (a ≤ b) := inferInstanceAs (Decidable (a.num ≤ b.num))

/-- The last `width` digits of a number. -/
def digits : ℕ → ℕ → List Char
  | 0, _ => []
  | width + 1, n => digits width (n / 10) ++ [Nat.digitChar (n % 10)]

/-- The text of a date, as in `2026-03-01`. -/
def isoformat (d : PyDate) : String :=
  String.ofList (digits 4 d.year ++ '-' :: digits 2 d.month ++ '-' :: digits 2 d.day)

theorem length_digits : ∀ width n : ℕ, (digits width n).length = width
  | 0, _ => rfl
  | width + 1, n => by
    rw [digits, List.length_append, length_digits width, List.length_singleton]

theorem digitChar_inj : ∀ m < 10, ∀ n < 10, Nat.digitChar m = Nat.digitChar n → m = n := by decide

theorem digits_inj : ∀ {width m n : ℕ}, m < 10 ^ width → n < 10 ^ width → digits width m = digits width n → m = n
  | 0, m, n, hm, hn, _ => by omega
  | width + 1, m, n, hm, hn, h => by
    rw [digits, digits] at h
    obtain ⟨hinit, hlast⟩ := List.append_inj h (by rw [length_digits, length_digits])
    rw [pow_succ] at hm hn
    have hdiv : m / 10 = n / 10 := digits_inj (by omega) (by omega) hinit
    have hmod : m % 10 = n % 10 :=
      digitChar_inj _ (Nat.mod_lt _ (by omega)) _ (Nat.mod_lt _ (by omega)) (List.cons.inj hlast).1
    omega

theorem digitChar_ne_colon : ∀ n < 10, Nat.digitChar n ≠ ':' := by decide

theorem colon_notMem_digits : ∀ width n : ℕ, ':' ∉ digits width n
  | 0, _ => List.not_mem_nil
  | width + 1, n => by
    rw [digits, List.mem_append, List.mem_singleton]
    rintro (h | h)
    · exact colon_notMem_digits width (n / 10) h
    · exact digitChar_ne_colon _ (Nat.mod_lt _ (by omega)) h.symm

theorem day_le (d : PyDate) : d.day ≤ 31 := by
  have hday := d.valid.2.2.2.2.2
  unfold Calendar.daysInMonth at hday
  split at hday <;> (try split at hday) <;> omega

theorem isoformat_injective : Function.Injective isoformat := by
  intro a b h
  have hlist := congrArg String.toList h
  simp only [isoformat, String.toList_ofList, List.append_assoc] at hlist
  obtain ⟨hyear, hrest⟩ := List.append_inj hlist (by rw [length_digits, length_digits])
  obtain ⟨hmonth, hrest⟩ := List.append_inj (List.cons.inj hrest).2 (by rw [length_digits, length_digits])
  have hday := (List.cons.inj hrest).2
  obtain ⟨-, hya, -, hma, -⟩ := a.valid
  obtain ⟨-, hyb, -, hmb, -⟩ := b.valid
  have hda := a.day_le
  have hdb := b.day_le
  exact PyDate.ext (digits_inj (by omega) (by omega) hyear) (digits_inj (by omega) (by omega) hmonth)
    (digits_inj (by omega) (by omega) hday)

theorem colon_notMem_isoformat (d : PyDate) : ':' ∉ d.isoformat.toList := by
  unfold isoformat
  rw [String.toList_ofList]
  simp only [List.mem_append, List.mem_cons, colon_notMem_digits, or_false, false_or]
  decide

/-- A date has ten characters. -/
theorem length_isoformat (d : PyDate) : d.isoformat.toList.length = 10 := by
  unfold isoformat
  rw [String.toList_ofList]
  simp [length_digits]

end PyDate

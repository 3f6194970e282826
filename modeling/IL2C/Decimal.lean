import Mathlib.Data.Nat.Digits
import IL2C.CTypes

set_option autoImplicit false

/- Decimal numerals as wide strings: what `itow` is meant to write and `twtoi` to
read. This is the statement of purpose both are checked against, built on
Mathlib's `Nat.digits` (least significant digit first). -/
namespace IL2C.Decimal

/-- The character `L'0' + d` of a digit `d < 10`. -/
def digitChar (d : Nat) : WChar := UInt16.ofNat (48 + d)

/-- One of `L'0'`..`L'9'`. -/
def IsDigit (c : WChar) : Prop := 48 ≤ c.toNat ∧ c.toNat ≤ 57

instance : DecidablePred IsDigit := fun _ => inferInstanceAs (Decidable (_ ∧ _))

/-- The value `c - L'0'` of a digit character. -/
def digitValue (c : WChar) : Nat := c.toNat - 48

/-- The value of a digit run read most significant digit first, starting from an
accumulated prefix value `acc`. -/
def valueFrom (acc : Nat) (ds : List WChar) : Nat :=
  ds.foldl (fun n c => 10 * n + digitValue c) acc

/-- The value of a digit run. -/
def value (ds : List WChar) : Nat := valueFrom 0 ds

/-- The canonical numeral of a natural number: no leading zero, `L"0"` for zero. -/
def decimal (n : Nat) : List WChar :=
  if n = 0 then [wide '0'] else (Nat.digits 10 n).reverse.map digitChar

/-- The canonical numeral of an integer: a leading `L'-'` exactly for negatives. -/
def numeral (v : Int) : List WChar :=
  (if v < 0 then [wide '-'] else []) ++ decimal v.natAbs

@[simp] theorem valueFrom_nil (acc : Nat) : valueFrom acc [] = acc := rfl

@[simp] theorem valueFrom_cons (acc : Nat) (c : WChar) (ds : List WChar) :
    valueFrom acc (c :: ds) = valueFrom (10 * acc + digitValue c) ds := rfl

theorem valueFrom_append_singleton (acc : Nat) (ds : List WChar) (c : WChar) :
    valueFrom acc (ds ++ [c]) = 10 * valueFrom acc ds + digitValue c := by
  simp only [valueFrom, List.foldl_append, List.foldl_cons, List.foldl_nil]

/-- A prefix value only grows as digits are read. -/
theorem le_valueFrom (acc : Nat) (ds : List WChar) : acc ≤ valueFrom acc ds := by
  induction ds generalizing acc with
  | nil => exact le_refl acc
  | cons c ds ih => exact le_trans (by omega) (ih (10 * acc + digitValue c))

theorem valueFrom_append (acc : Nat) (front back : List WChar) :
    valueFrom acc (front ++ back) = valueFrom (valueFrom acc front) back := by
  simp only [valueFrom, List.foldl_append]

theorem isDigit_iff (c : WChar) : IsDigit c ↔ wide '0' ≤ c ∧ c ≤ wide '9' := by
  simp only [IsDigit, wchar_le_iff, wide_zero, wide_nine]
  rfl

theorem digitChar_toNat {d : Nat} (small : d < 10) : (digitChar d).toNat = 48 + d :=
  UInt16.toNat_ofNat_of_lt (show 48 + d < 65536 by omega)

theorem digitChar_isDigit {d : Nat} (small : d < 10) : IsDigit (digitChar d) := by
  simp only [IsDigit, digitChar_toNat small]
  omega

theorem digitValue_digitChar {d : Nat} (small : d < 10) : digitValue (digitChar d) = d := by
  simp only [digitValue, digitChar_toNat small]
  omega

/-- Reading back digits written most significant first is `Nat.ofDigits`. -/
theorem valueFrom_reverse_digits (acc : Nat) (xs : List Nat) (small : ∀ d ∈ xs, d < 10) :
    valueFrom acc (xs.reverse.map digitChar) = 10 ^ xs.length * acc + Nat.ofDigits 10 xs := by
  induction xs with
  | nil => simp
  | cons d xs ih =>
    have head : d < 10 := small d (List.mem_cons_self d xs)
    rw [List.reverse_cons, List.map_append, List.map_cons, List.map_nil,
      valueFrom_append_singleton, ih fun e inside => small e (List.mem_cons_of_mem d inside),
      digitValue_digitChar head, Nat.ofDigits_cons, List.length_cons, pow_succ]
    ring

theorem decimal_isDigit (n : Nat) : ∀ c ∈ decimal n, IsDigit c := by
  unfold decimal
  split
  · simp only [List.mem_singleton]
    rintro c rfl
    decide
  · simp only [List.mem_map, List.mem_reverse]
    rintro c ⟨d, inside, rfl⟩
    exact digitChar_isDigit (Nat.digits_lt_base (by norm_num) inside)

theorem value_decimal (n : Nat) : value (decimal n) = n := by
  unfold decimal value
  split
  · subst n
    rfl
  · rw [valueFrom_reverse_digits 0 _ fun d inside => Nat.digits_lt_base (by norm_num) inside,
      Nat.ofDigits_digits, Nat.mul_zero, Nat.zero_add]

theorem decimal_ne_nil (n : Nat) : decimal n ≠ [] := by
  unfold decimal
  split
  · exact List.cons_ne_nil _ _
  · simpa only [ne_eq, List.map_eq_nil_iff, List.reverse_eq_nil_iff,
      Nat.digits_eq_nil_iff_eq_zero] using ‹¬ n = 0›

/-- No leading zero: a numeral of more than one digit starts with a nonzero digit. -/
theorem decimal_head_ne_zero (n : Nat) (nonzero : n ≠ 0) :
    (decimal n).head? ≠ some (wide '0') := by
  have last := Nat.getLast_digit_ne_zero 10 nonzero
  have small := Nat.digits_lt_base (b := 10) (m := n) (by norm_num)
    (List.getLast_mem (Nat.digits_ne_nil_iff_ne_zero.mpr nonzero))
  simp only [decimal, nonzero, ↓reduceIte, List.head?_map, List.head?_reverse,
    List.getLast?_eq_getLast _ (Nat.digits_ne_nil_iff_ne_zero.mpr nonzero), Option.map_some',
    ne_eq, Option.some.injEq, wchar_ext_iff, digitChar_toNat small]
  change ¬ 48 + _ = 48
  omega

/-- The numeral of `n` is that of `n / 10` followed by the last digit, as the digit loop
of `itow` produces it from the right. -/
theorem decimal_step (n : Nat) :
    decimal n = (if n / 10 = 0 then [] else decimal (n / 10)) ++ [digitChar (n % 10)] := by
  by_cases zero : n = 0
  · subst n
    rfl
  · have split : Nat.digits 10 n = n % 10 :: Nat.digits 10 (n / 10) :=
      Nat.digits_def' (by norm_num) (Nat.pos_of_ne_zero zero)
    by_cases last : n / 10 = 0
    · simp only [decimal, zero, last, split, ↓reduceIte, Nat.digits_zero, List.reverse_cons,
        List.reverse_nil, List.nil_append, List.map_cons, List.map_nil]
    · simp only [decimal, zero, last, split, ↓reduceIte, List.reverse_cons, List.map_append,
        List.map_cons, List.map_nil]

theorem decimal_length_pos (n : Nat) : 0 < (decimal n).length :=
  List.length_pos.mpr (decimal_ne_nil n)

/-- At most `d` digits exactly below `10 ^ d`. -/
theorem decimal_length_le (n d : Nat) (pos : 0 < d) : (decimal n).length ≤ d ↔ n < 10 ^ d := by
  by_cases zero : n = 0
  · subst n
    exact ⟨fun _ => Nat.pos_pow_of_pos d (by norm_num), fun _ => pos⟩
  · rw [decimal, if_neg zero, List.length_map, List.length_reverse,
      Nat.digits_len 10 n (by norm_num) zero, Nat.lt_pow_iff_log_lt (by norm_num) zero]
    omega

end IL2C.Decimal

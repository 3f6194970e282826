import IL2C.Win32.Twtoi
import IL2C.Win32.Itow

set_option autoImplicit false

/- `twtoi` reading back what `itow` wrote, the two conversions of the Win32 target's
interop layer. -/
namespace IL2C.Win32

open Decimal

theorem digit_not_blank (c : WChar) (digit : IsDigit c) : ¬ IsBlank c := by
  unfold IsDigit at digit
  rintro (rfl | rfl) <;> simp only [wide_space, wide_tab] at digit <;>
    exact absurd digit (by decide)

theorem digit_not_sign (c : WChar) (digit : IsDigit c) : ¬ IsSign c := by
  unfold IsDigit at digit
  rintro (rfl | rfl) <;> simp only [wide_minus, wide_plus] at digit <;>
    exact absurd digit (by decide)

/-- `twtoi` reads a negative numeral followed by a NUL back. -/
theorem twtoi_numeral_neg (v : Int) (negative : v < 0) (fits : v.natAbs < accumulateLimit)
    (rest : List WChar) (x : Int32) :
    twtoi (numeral v ++ 0 :: rest) x = .ok (true, Int32.ofInt v) := by
  have read := twtoi_signed [] (decimal v.natAbs) (wide '-') 0 rest x nofun (Or.inl rfl)
    (decimal_isDigit _) (by decide)
  rw [value_decimal, if_pos fits, if_pos rfl] at read
  simp only [numeral, if_pos negative, List.singleton_append, List.cons_append,
    List.nil_append] at read ⊢
  rw [read, show -(v.natAbs : Int) = v by omega]

/-- `twtoi` rejects a numeral without a sign: it starts with a digit. -/
theorem twtoi_numeral_nonneg (v : Int) (nonneg : ¬ v < 0) (rest : List WChar) (x : Int32) :
    twtoi (numeral v ++ rest) x = .ok (false, x) := by
  obtain ⟨c, cs, first⟩ := List.exists_cons_of_ne_nil (decimal_ne_nil v.natAbs)
  have digit := decimal_isDigit _ c (first ▸ List.mem_cons_self c cs)
  simp only [numeral, if_neg nonneg, List.nil_append, first, List.cons_append]
  exact twtoi_rejects [] c _ x nofun (digit_not_blank c digit) (digit_not_sign c digit)

/-- For every `int32_t` and every buffer of at least 12 `wchar_t`: the round trip gives
the value back exactly for the negative values of at most four digits; a value `≥ 0`
is written without a sign, which `twtoi` rejects; and from five digits on `itow` itself
faults. -/
theorem twtoi_itow (value x : Int32) (p : List WChar) (room : 12 ≤ p.length) :
    (itow value p >>= fun written => twtoi written x) =
      if 10000 ≤ value.val.natAbs then
        .error (if value.val = -2147483648 then .signedOverflow else .outOfBounds)
      else if value.val < 0 then .ok (true, value) else .ok (false, x) := by
  by_cases large : 10000 ≤ value.val.natAbs
  · rw [itow_faults value p (by rintro rfl; simp only [List.length_nil] at room; omega) large,
      error_bind, if_pos large]
  · have fits : value.val.natAbs < 10000 := by omega
    have short := (decimal_length_le _ 4 (by decide)).mpr fits
    have numeralRoom : (numeral value.val).length < p.length := by
      unfold numeral
      split <;> simp only [List.length_append, List.length_singleton, List.length_nil] <;> omega
    rw [if_neg large, itow_writes_numeral value p fits numeralRoom, ok_bind]
    split
    · next negative =>
      rw [twtoi_numeral_neg _ negative (by unfold accumulateLimit; omega), Int32.ofInt_self]
    · next nonneg => exact twtoi_numeral_nonneg _ nonneg _ x

theorem twtoi_itow_minus_42 :
    12 ≤ (List.replicate 12 (0 : WChar)).length ∧
      (itow (Int32.ofInt (-42)) (List.replicate 12 0) >>= fun written => twtoi written 0) =
        .ok (true, Int32.ofInt (-42)) :=
  ⟨by decide, twtoi_itow _ _ _ (by decide)⟩

theorem twtoi_itow_zero :
    itow 0 (List.replicate 12 0) = .ok (wideString "0" ++ List.replicate 10 0) ∧
      twtoi (wideString "0" ++ List.replicate 10 0) 5 = .ok (false, 5) := by
  decide

end IL2C.Win32

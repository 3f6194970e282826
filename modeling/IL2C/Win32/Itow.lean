import IL2C.Decimal

set_option autoImplicit false

/- `itow` of `tests/Win32/Win32.Target/Main.c`. The pointer `j` into the local
`wchar_t b[6]` is a cursor: `below` holds `*j, *(j - 1), .., b[0]`, nearest first,
and `above` holds `b[j + 1] .. b[5]`. The `j--` from `b[0]` forms `&b[-1]`, and
`*++j` with `above = []` reads `b[6]`; both are undefined (C11 6.5.6p8), so both are
`Fault.outOfBounds`. Slots are `none` while indeterminate. -/
namespace IL2C.Win32

open Decimal

/-- `*p = c` at index `i` of the buffer `p` points into. -/
def store (p : List WChar) (i : Nat) (c : WChar) : Except Fault (List WChar) :=
  if i < p.length then .ok (p.set i c) else .error .outOfBounds

/-- `*j-- = c`: the store to `*j`, then `j--`, which must not leave `b`. -/
def storeRetreat (c : WChar) :
    List (Option WChar) → List (Option WChar) →
      Except Fault (List (Option WChar) × List (Option WChar))
  | _ :: slot :: below, above => .ok (slot :: below, some c :: above)
  | _, _ => .error .outOfBounds

@[simp] theorem storeRetreat_step (c : WChar) (x slot : Option WChar)
    (below above : List (Option WChar)) :
    storeRetreat c (x :: slot :: below) above = .ok (slot :: below, some c :: above) := rfl

@[simp] theorem storeRetreat_bottom (c : WChar) (x : Option WChar) (above : List (Option WChar)) :
    storeRetreat c [x] above = .error .outOfBounds := rfl

/-- `do { *j-- = value % 10 + L'0'; value /= 10; } while (value);` -/
def digitLoop : Int32 → List (Option WChar) → List (Option WChar) →
    Except Fault (List (Option WChar) × List (Option WChar))
  | _, [], _ => .error .outOfBounds
  | value, slot :: below, above => do
    let digit ← value.rem 10
    let code ← digit.add (promote (wide '0'))
    let (_, above) ← storeRetreat (narrow code) (slot :: below) above
    let quotient ← value.div 10
    if quotient.val ≠ 0 then digitLoop quotient below above else pure (below, above)

/-- `do { *p++ = *++j; } while (*j);` The test reads back the slot just copied. -/
def copyLoop : List (Option WChar) → List WChar → Nat → Except Fault (List WChar)
  | [], _, _ => .error .outOfBounds
  | none :: _, _, _ => .error .indeterminate
  | some c :: above, p, i => do
    let p ← store p i c
    if c ≠ 0 then copyLoop above p (i + 1) else pure p

/-- `if (value < 0) { *p++ = L'-'; value = -value; }`: the buffer, the index `p` has
moved to, and the value left to convert. -/
def signPrefix (value : Int32) (p : List WChar) : Except Fault (List WChar × Nat × Int32) :=
  if value.val < 0 then do
    let p ← store p 0 (wide '-')
    let value ← value.neg
    pure (p, 1, value)
  else pure (p, 0, value)

/-- `j = &b[5]; *j-- = 0;` and the digit loop: the slots from `j + 1` up, which the
copy loop reads. -/
def fillDigits (value : Int32) : Except Fault (List (Option WChar)) := do
  let (below, above) ← storeRetreat 0 (List.replicate 6 none) []
  let (_, above) ← digitLoop value below above
  pure above

/-- `void itow(int32_t value, wchar_t* p)`, with `p` the buffer it writes into. -/
def itow (value : Int32) (p : List WChar) : Except Fault (List WChar) := do
  let (p, i, value) ← signPrefix value p
  let above ← fillDigits value
  copyLoop above p i

theorem store_at (front back : List WChar) (x c : WChar) :
    store (front ++ x :: back) front.length c = .ok (front ++ c :: back) := by
  simp only [store, List.length_append, List.length_cons]
  rw [if_pos (by omega), List.set_append_right _ _ (le_refl _), Nat.sub_self,
    List.set_cons_zero]

theorem store_past (p : List WChar) (i : Nat) (c : WChar) (past : p.length ≤ i) :
    store p i c = .error .outOfBounds := by
  simp only [store, if_neg (show ¬ i < p.length by omega)]

/-- One pass of the digit loop on a value `n ≥ 0`: its last digit and its quotient. -/
theorem digit_pass (n : Nat) (small : n < 2147483648) :
    (Int32.ofInt n).rem 10 = .ok (Int32.ofInt ↑(n % 10)) ∧
      (Int32.ofInt ↑(n % 10)).add (promote (wide '0')) = .ok (Int32.ofInt ↑(n % 10 + 48)) ∧
      narrow (Int32.ofInt ↑(n % 10 + 48)) = digitChar (n % 10) ∧
      (Int32.ofInt n).div 10 = .ok (Int32.ofInt ↑(n / 10)) := by
  have value : (Int32.ofInt n).val = n := Int32.ofInt_val_of_bounds (by omega) (by omega)
  have ten : (10 : Int32).val = 10 := rfl
  have digit : (Int32.ofInt ↑(n % 10)).val = ↑(n % 10) :=
    Int32.ofInt_val_of_bounds (by omega) (by omega)
  have code : (Int32.ofInt ↑(n % 10 + 48)).val = ↑(n % 10 + 48) :=
    Int32.ofInt_val_of_bounds (by omega) (by omega)
  have zero : (promote (wide '0')).val = 48 := rfl
  have quotient : (↑n : Int).tdiv 10 = ↑(n / 10) := (Int.ofNat_tdiv n 10).symm
  have remainder : (↑n : Int).tmod 10 = ↑(n % 10) := (Int.ofNat_tmod n 10).symm
  have char : ((↑(n % 10 + 48) : Int) % 65536).toNat = 48 + n % 10 := by omega
  refine ⟨?_, ?_, ?_, ?_⟩
  · rw [Int32.rem, value, ten, if_neg (by decide), quotient, if_pos ⟨by omega, by omega⟩,
      remainder, Int32.exact_of_bounds (by omega) (by omega)]
  · rw [Int32.add, digit, zero, Int32.exact_of_bounds (by omega) (by omega)]
    rfl
  · rw [narrow, code, char, digitChar]
  · rw [Int32.div, value, ten, if_neg (by decide), quotient,
      Int32.exact_of_bounds (by omega) (by omega)]

/-- The digit loop on `n ≥ 0` stores the numeral of `n` right to left below the
cursor, or moves the cursor off the bottom of `b` when `below` has no slot left under
the last digit. -/
theorem digitLoop_decimal (n : Nat) (small : n < 2147483648)
    (below above : List (Option WChar)) :
    digitLoop (Int32.ofInt n) below above =
      if (decimal n).length < below.length then
        .ok (below.drop (decimal n).length, (decimal n).map some ++ above)
      else .error .outOfBounds := by
  induction below generalizing n above with
  | nil => rw [digitLoop, List.length_nil, if_neg (Nat.not_lt_zero _)]
  | cons slot below ih =>
    obtain ⟨rem, add, char, div⟩ := digit_pass n small
    rw [digitLoop, rem, ok_bind, add, ok_bind, char]
    rcases below with _ | ⟨next, below⟩
    · have := decimal_length_pos n
      rw [storeRetreat_bottom, error_bind, if_neg (by simp only [List.length_singleton]; omega)]
    · have quotient : (Int32.ofInt ↑(n / 10)).val = ↑(n / 10) :=
        Int32.ofInt_val_of_bounds (by omega) (by omega)
      rw [storeRetreat_step, ok_bind]
      dsimp only
      rw [div, ok_bind, quotient, decimal_step n]
      by_cases last : n / 10 = 0
      · simp only [last, ↓reduceIte, Nat.cast_zero, ne_eq, not_true_eq_false, List.nil_append,
          List.length_singleton, List.length_cons, List.length_nil, Nat.zero_add,
          List.drop_succ_cons, List.drop_zero, List.map_cons, List.map_nil, List.singleton_append,
          pure_eq_ok]
        rw [if_pos (by omega)]
      · have nonzero : ((n / 10 : Nat) : Int) ≠ 0 := by omega
        rw [if_pos nonzero, if_neg last, ih (n / 10) (by omega)]
        simp only [List.length_append, List.length_singleton, List.length_cons, List.length_nil,
          Nat.zero_add, Nat.add_lt_add_iff_right, List.drop_succ_cons, List.map_append, List.map_cons,
          List.map_nil, List.append_assoc, List.singleton_append]

/-- The copy loop copies a NUL-free run and the NUL after it, and stops. -/
theorem copyLoop_copies (cs : List WChar) (back : List (Option WChar)) (done rest : List WChar)
    (noNul : ∀ c ∈ cs, c ≠ 0) (room : cs.length < rest.length) :
    copyLoop (cs.map some ++ some 0 :: back) (done ++ rest) done.length =
      .ok (done ++ cs ++ 0 :: rest.drop (cs.length + 1)) := by
  induction cs generalizing done rest with
  | nil =>
    have nonempty : 0 < rest.length := room
    obtain ⟨x, rest, rfl⟩ := List.exists_cons_of_length_pos nonempty
    simp only [List.map_nil, List.nil_append, copyLoop, store_at, ok_bind, ne_eq,
      not_true_eq_false, ↓reduceIte, List.append_nil, List.length_nil, Nat.zero_add,
      List.drop_succ_cons, List.drop_zero, pure_eq_ok]
  | cons c cs ih =>
    have nonempty : 0 < rest.length := by simp only [List.length_cons] at room; omega
    obtain ⟨x, rest, rfl⟩ := List.exists_cons_of_length_pos nonempty
    have nonzero : c ≠ 0 := noNul c (List.mem_cons_self c cs)
    have next := ih (done ++ [c]) rest (fun d inside => noNul d (List.mem_cons_of_mem c inside))
      (by simp only [List.length_cons] at room; omega)
    rw [List.length_append, List.length_singleton, List.append_assoc,
      List.singleton_append] at next
    rw [List.map_cons, List.cons_append, copyLoop, store_at, ok_bind, if_pos nonzero, next,
      List.length_cons, List.drop_succ_cons]
    simp only [List.append_assoc, List.cons_append, List.nil_append]

/-- A buffer without room for the run and its NUL is overrun: the store past its end
faults. -/
theorem copyLoop_short (cs : List WChar) (back : List (Option WChar)) (done rest : List WChar)
    (noNul : ∀ c ∈ cs, c ≠ 0) (short : rest.length ≤ cs.length) :
    copyLoop (cs.map some ++ some 0 :: back) (done ++ rest) done.length = .error .outOfBounds := by
  induction cs generalizing done rest with
  | nil =>
    rw [List.length_eq_zero.mp (Nat.le_zero.mp short), List.append_nil]
    rw [List.map_nil, List.nil_append, copyLoop, store_past _ _ _ (le_refl _), error_bind]
  | cons c cs ih =>
    rcases rest with _ | ⟨x, rest⟩
    · rw [List.map_cons, List.cons_append, copyLoop, List.append_nil,
        store_past _ _ _ (le_refl _), error_bind]
    · have nonzero : c ≠ 0 := noNul c (List.mem_cons_self c cs)
      have next := ih (done ++ [c]) rest (fun d inside => noNul d (List.mem_cons_of_mem c inside))
        (by simp only [List.length_cons] at short; omega)
      rw [List.length_append, List.length_singleton, List.append_assoc,
        List.singleton_append] at next
      rw [List.map_cons, List.cons_append, copyLoop, store_at, ok_bind, if_pos nonzero, next]

theorem decimal_no_nul (n : Nat) : ∀ c ∈ decimal n, c ≠ 0 := by
  intro c inside zero
  have digit := decimal_isDigit n c inside
  rw [zero] at digit
  exact absurd digit (by decide)

/-- After `*j-- = 0` the digit loop has the five slots `b[0..4]` below the cursor, and
the `j--` after the fifth digit leaves `b`: only numerals of at most four digits fit. -/
theorem fillDigits_decimal (n : Nat) (small : n < 2147483648) :
    fillDigits (Int32.ofInt n) =
      if n < 10000 then .ok ((decimal n).map some ++ [some 0]) else .error .outOfBounds := by
  have digits : (decimal n).length < 5 ↔ n < 10000 :=
    Nat.lt_succ_iff.trans (decimal_length_le n 4 (by decide))
  rw [fillDigits, show storeRetreat 0 (List.replicate 6 none) [] =
    .ok (List.replicate 5 none, [some 0]) from rfl, ok_bind]
  dsimp only
  rw [digitLoop_decimal n small, List.length_replicate]
  simp only [digits]
  split <;> rfl

theorem signPrefix_negative (value : Int32) (x : WChar) (rest : List WChar)
    (negative : value.val < 0) (notMin : value.val ≠ -2147483648) :
    signPrefix value (x :: rest) = .ok (wide '-' :: rest, 1, Int32.ofInt ↑value.val.natAbs) := by
  have neg : value.neg = .ok (Int32.ofInt ↑value.val.natAbs) := by
    rw [Int32.neg, Int32.exact_of_bounds (by have := value.lt_max; omega)
      (by have := value.min_le; omega)]
    exact congrArg (fun v => Except.ok (Int32.ofInt v)) (by omega)
  rw [signPrefix, if_pos negative,
    show store (x :: rest) 0 (wide '-') = .ok (wide '-' :: rest) from store_at [] rest x _,
    ok_bind, neg]
  rfl

theorem signPrefix_nonneg (value : Int32) (p : List WChar) (nonneg : ¬ value.val < 0) :
    signPrefix value p = .ok (p, 0, Int32.ofInt ↑value.val.natAbs) := by
  rw [signPrefix, if_neg nonneg, Int.natAbs_of_nonneg (by omega), Int32.ofInt_self]
  rfl

/-- Where the numeral of `value` has at most four digits, `itow` writes it and one NUL
at the start of the buffer, and nothing past them. -/
theorem itow_writes_numeral (value : Int32) (p : List WChar) (fits : value.val.natAbs < 10000)
    (room : (numeral value.val).length < p.length) :
    itow value p = .ok (numeral value.val ++ 0 :: p.drop ((numeral value.val).length + 1)) := by
  have digits := fillDigits_decimal value.val.natAbs (by omega)
  rw [if_pos fits] at digits
  have copied := fun done rest =>
    copyLoop_copies (decimal value.val.natAbs) [] done rest (decimal_no_nul _)
  unfold numeral at *
  by_cases negative : value.val < 0
  · have nonempty : 0 < p.length := by omega
    obtain ⟨x, rest, rfl⟩ := List.exists_cons_of_length_pos nonempty
    simp only [List.length_append, List.length_singleton, if_pos negative, List.length_cons,
      List.length_nil, Nat.zero_add] at room ⊢
    have step := copied [wide '-'] rest (by omega)
    simp only [List.singleton_append, List.length_singleton] at step
    rw [itow, signPrefix_negative value x rest negative (by omega), ok_bind]
    dsimp only
    rw [digits, ok_bind, step, show 1 + (decimal value.val.natAbs).length + 1 =
      (decimal value.val.natAbs).length + 1 + 1 by omega, List.drop_succ_cons]
    rfl
  · simp only [if_neg negative, List.nil_append] at room ⊢
    rw [itow, signPrefix_nonneg value p negative, ok_bind]
    dsimp only
    rw [digits, ok_bind]
    exact copied [] p room

theorem signPrefix_min (value : Int32) (x : WChar) (rest : List WChar)
    (min : value.val = -2147483648) :
    signPrefix value (x :: rest) = .error .signedOverflow := by
  rw [signPrefix, if_pos (by omega),
    show store (x :: rest) 0 (wide '-') = .ok (wide '-' :: rest) from store_at [] rest x _,
    ok_bind, Int32.neg, Int32.exact_of_not_inRange (by unfold Int32.InRange; omega), error_bind]

/-- From five digits on, the digit loop moves `j` below `b[0]`; for `INT32_MIN` the
negation `-value` overflows first. -/
theorem itow_faults (value : Int32) (p : List WChar) (nonempty : p ≠ [])
    (large : 10000 ≤ value.val.natAbs) :
    itow value p = .error (if value.val = -2147483648 then .signedOverflow else .outOfBounds) := by
  have digits : value.val ≠ -2147483648 →
      fillDigits (Int32.ofInt ↑value.val.natAbs) = .error .outOfBounds := fun notMin => by
    have := value.lt_max
    have := value.min_le
    rw [fillDigits_decimal _ (by omega), if_neg (by omega)]
  obtain ⟨x, rest, rfl⟩ := List.exists_cons_of_ne_nil nonempty
  by_cases min : value.val = -2147483648
  · rw [itow, signPrefix_min value x rest min, error_bind, if_pos min]
  · obtain ⟨q, i, prefixed⟩ : ∃ q i,
        signPrefix value (x :: rest) = .ok (q, i, Int32.ofInt ↑value.val.natAbs) := by
      by_cases negative : value.val < 0
      · exact ⟨_, _, signPrefix_negative value x rest negative min⟩
      · exact ⟨_, _, signPrefix_nonneg value _ negative⟩
    rw [if_neg min, itow, prefixed, ok_bind]
    dsimp only
    rw [digits min, error_bind]

/-- A buffer of at most the numeral's length is too short for `itow`: the store of the NUL,
or of the sign into an empty buffer, lands past its end. -/
theorem itow_short (value : Int32) (p : List WChar) (fits : value.val.natAbs < 10000)
    (short : p.length ≤ (numeral value.val).length) : itow value p = .error .outOfBounds := by
  have digits := fillDigits_decimal value.val.natAbs (by omega)
  rw [if_pos fits] at digits
  unfold numeral at short
  by_cases negative : value.val < 0
  · rcases p with _ | ⟨x, rest⟩
    · rw [itow, signPrefix, if_pos negative, store_past [] 0 _ (le_refl _), error_bind,
        error_bind]
    · simp only [if_pos negative, List.singleton_append, List.length_cons,
        Nat.add_le_add_iff_right] at short
      rw [itow, signPrefix_negative value x rest negative (by omega), ok_bind]
      dsimp only
      rw [digits, ok_bind]
      exact copyLoop_short _ [] [wide '-'] rest (decimal_no_nul _) short
  · simp only [if_neg negative, List.nil_append] at short
    rw [itow, signPrefix_nonneg value p negative, ok_bind]
    dsimp only
    rw [digits, ok_bind]
    exact copyLoop_short _ [] [] p (decimal_no_nul _) short

/-- `itow` on every value and every buffer. It writes the numeral and a NUL exactly when the
value has at most four digits and the buffer has room for both, and then nothing past
them. Otherwise it faults: `-value` overflows for `INT32_MIN` in a nonempty buffer, and
every other failure is `j` leaving `b` or a store past the end of the buffer. -/
theorem itow_total (value : Int32) (p : List WChar) :
    itow value p =
      if value.val = -2147483648 ∧ p ≠ [] then .error .signedOverflow
      else if 10000 ≤ value.val.natAbs ∨ p.length ≤ (numeral value.val).length then
        .error .outOfBounds
      else .ok (numeral value.val ++ 0 :: p.drop ((numeral value.val).length + 1)) := by
  by_cases large : 10000 ≤ value.val.natAbs
  · rw [if_pos (Or.inl large)]
    rcases p with _ | ⟨x, rest⟩
    · have := value.min_le
      have := value.lt_max
      rw [if_neg (fun min => min.2 rfl), itow]
      by_cases negative : value.val < 0
      · rw [signPrefix, if_pos negative, store_past [] 0 _ (le_refl _), error_bind, error_bind]
      · rw [signPrefix_nonneg value [] negative, ok_bind]
        dsimp only
        rw [fillDigits_decimal _ (by omega), if_neg (by omega), error_bind]
    · rw [itow_faults value _ (List.cons_ne_nil x rest) large]
      by_cases min : value.val = -2147483648
      · rw [if_pos min, if_pos ⟨min, List.cons_ne_nil x rest⟩]
      · rw [if_neg min, if_neg (fun both => min both.1)]
  · have notMin : ¬ (value.val = -2147483648 ∧ p ≠ []) := fun both => large (by omega)
    rw [if_neg notMin]
    by_cases room : (numeral value.val).length < p.length
    · rw [if_neg (by omega), itow_writes_numeral value p (by omega) room]
    · rw [if_pos (Or.inr (by omega)), itow_short value p (by omega) (by omega)]

theorem itow_six_digits : itow 100000 (List.replicate 12 0) = .error .outOfBounds := by decide

end IL2C.Win32

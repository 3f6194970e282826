import IL2C.Decimal

set_option autoImplicit false

/- `twtoi` of `tests/Win32/Win32.Target/Main.c`. The string argument is the buffer
from `_Str` to the end of the object it points into, so a read past that end is
`Fault.outOfBounds`; the result is the returned flag and the final `*value`. -/
namespace IL2C.Win32

open Decimal

/-- The blank-and-sign scan `for (;; _Str++)`: `some (sign, rest)` where it breaks
out after a sign with `_Str` at `rest`, `none` where it returns `false`. -/
def signScan : List WChar → Except Fault (Option (Bool × List WChar))
  | [] => .error .outOfBounds
  | ch :: rest =>
    if ch = wide ' ' ∨ ch = wide '\t' then signScan rest
    else if ch = wide '-' then .ok (some (true, rest))
    else if ch = wide '+' then .ok (some (false, rest))
    else .ok none

/-- `n * 10 + *_Str - L'0'`, evaluated left to right in `int`. -/
def digitStep (n : Int32) (ch : WChar) : Except Fault Int32 := do
  let scaled ← n.mul 10
  let shifted ← scaled.add (promote ch)
  shifted.sub (promote (wide '0'))

/-- `while ((*_Str >= L'0') && (*_Str <= L'9')) n = n * 10 + *_Str++ - L'0';` -/
def accumulate (n : Int32) : List WChar → Except Fault Int32
  | [] => .error .outOfBounds
  | ch :: rest =>
    if wide '0' ≤ ch ∧ ch ≤ wide '9' then do
      let next ← digitStep n ch
      accumulate next rest
    else .ok n

/-- `bool twtoi(const wchar_t *_Str, int32_t* value)`. -/
def twtoi (str : List WChar) (value : Int32) : Except Fault (Bool × Int32) := do
  match ← signScan str with
  | none => pure (false, value)
  | some (sign, rest) =>
    let n ← accumulate 0 rest
    let result ← if sign then n.neg else pure n
    pure (true, result)

/-- A character the scan skips. -/
def IsBlank (c : WChar) : Prop := c = wide ' ' ∨ c = wide '\t'

/-- A character the scan consumes as a sign. -/
def IsSign (c : WChar) : Prop := c = wide '-' ∨ c = wide '+'

/-- The smallest digit-run value whose last step `n * 10 + *_Str` exceeds `INT32_MAX`
before `L'0'` is subtracted: `2^31 - 48`. -/
def accumulateLimit : Nat := 2147483600

theorem signScan_blanks (blanks rest : List WChar) (skipped : ∀ c ∈ blanks, IsBlank c) :
    signScan (blanks ++ rest) = signScan rest := by
  induction blanks with
  | nil => rfl
  | cons c blanks ih =>
    have blank : c = wide ' ' ∨ c = wide '\t' := skipped c (List.mem_cons_self c blanks)
    rw [List.cons_append, signScan, if_pos blank]
    exact ih fun d inside => skipped d (List.mem_cons_of_mem c inside)

theorem signScan_minus (rest : List WChar) :
    signScan (wide '-' :: rest) = .ok (some (true, rest)) := by
  rw [signScan, if_neg (by decide), if_pos rfl]

theorem signScan_plus (rest : List WChar) :
    signScan (wide '+' :: rest) = .ok (some (false, rest)) := by
  rw [signScan, if_neg (by decide), if_neg (by decide), if_pos rfl]

theorem signScan_sign (sign : WChar) (rest : List WChar) (signed : IsSign sign) :
    signScan (sign :: rest) = .ok (some (decide (sign = wide '-'), rest)) := by
  rcases signed with rfl | rfl
  · exact signScan_minus rest
  · exact signScan_plus rest

theorem signScan_other (c : WChar) (rest : List WChar) (notBlank : ¬ IsBlank c)
    (notSign : ¬ IsSign c) : signScan (c :: rest) = .ok none := by
  simp only [IsBlank, IsSign, not_or] at notBlank notSign
  simp only [signScan, notBlank, notSign, or_self, ↓reduceIte]

theorem accumulate_other (n : Int32) (c : WChar) (rest : List WChar) (stop : ¬ IsDigit c) :
    accumulate n (c :: rest) = .ok n := by
  rw [isDigit_iff] at stop
  simp only [accumulate, stop, ↓reduceIte]

theorem accumulate_digit (n : Int32) (c : WChar) (rest : List WChar) (digit : IsDigit c) :
    accumulate n (c :: rest) = digitStep n c >>= fun next => accumulate next rest := by
  rw [isDigit_iff] at digit
  simp only [accumulate, digit, and_self, ↓reduceIte]

/-- A digit step from a prefix value `acc` stores the next prefix value, or overflows
in `n * 10 + *_Str` once that value reaches `accumulateLimit`. -/
theorem digitStep_value (acc : Nat) (c : WChar) (digit : IsDigit c)
    (below : acc < accumulateLimit) :
    digitStep (Int32.ofInt acc) c =
      if 10 * acc + digitValue c < accumulateLimit then
        .ok (Int32.ofInt ↑(10 * acc + digitValue c))
      else .error .signedOverflow := by
  unfold accumulateLimit at below ⊢
  have accVal : (Int32.ofInt acc).val = acc := Int32.ofInt_val_of_bounds (by omega) (by omega)
  have ten : (10 : Int32).val = 10 := rfl
  have zero : (promote (wide '0')).val = 48 := rfl
  have code := promote_val c
  have value : digitValue c = c.toNat - 48 := rfl
  unfold IsDigit at digit
  simp only [digitStep, Int32.mul, Int32.add, Int32.sub, ten, code, zero, accVal]
  by_cases fits : 10 * acc + digitValue c < 2147483600
  · have scaled : ((acc : Int) * 10) < 2147483648 := by omega
    have shifted : ((acc : Int) * 10 + c.toNat) < 2147483648 := by omega
    rw [Int32.exact_of_bounds (by omega) scaled, ok_bind,
      Int32.ofInt_val_of_bounds (by omega) scaled, Int32.exact_of_bounds (by omega) shifted,
      ok_bind, Int32.ofInt_val_of_bounds (by omega) shifted,
      Int32.exact_of_bounds (by omega) (by omega), if_pos fits]
    exact congrArg (fun n => Except.ok (Int32.ofInt n)) (by omega)
  · rw [if_neg fits]
    by_cases scaled : ((acc : Int) * 10) < 2147483648
    · rw [Int32.exact_of_bounds (by omega) scaled, ok_bind,
        Int32.ofInt_val_of_bounds (by omega) scaled,
        Int32.exact_of_not_inRange (by unfold Int32.InRange; omega), error_bind]
    · rw [Int32.exact_of_not_inRange (by unfold Int32.InRange; omega), error_bind]

/-- The digit loop over a whole digit run followed by a non-digit: the run's value
when it stays below `accumulateLimit`, an overflow otherwise. -/
theorem accumulate_run (acc : Nat) (digits : List WChar) (c : WChar) (rest : List WChar)
    (allDigits : ∀ d ∈ digits, IsDigit d) (stop : ¬ IsDigit c)
    (below : acc < accumulateLimit) :
    accumulate (Int32.ofInt acc) (digits ++ c :: rest) =
      if valueFrom acc digits < accumulateLimit then .ok (Int32.ofInt (valueFrom acc digits))
      else .error .signedOverflow := by
  induction digits generalizing acc with
  | nil => simp only [List.nil_append, accumulate_other _ c rest stop, valueFrom_nil, below,
      ↓reduceIte]
  | cons d digits ih =>
    have digit := allDigits d (List.mem_cons_self d digits)
    rw [List.cons_append, accumulate_digit _ d _ digit, digitStep_value acc d digit below,
      valueFrom_cons]
    split
    · exact ih _ (fun e inside => allDigits e (List.mem_cons_of_mem d inside)) ‹_›
    · have grows := le_valueFrom (10 * acc + digitValue d) digits
      rw [error_bind, if_neg (by omega)]

/-- The first character other than a blank is not a sign: `twtoi` returns `false`
and leaves `*value` as it was. This takes in every unsigned numeral. -/
theorem twtoi_rejects (blanks : List WChar) (c : WChar) (rest : List WChar) (value : Int32)
    (skipped : ∀ b ∈ blanks, IsBlank b) (notBlank : ¬ IsBlank c) (notSign : ¬ IsSign c) :
    twtoi (blanks ++ c :: rest) value = .ok (false, value) := by
  rw [twtoi, signScan_blanks blanks _ skipped, signScan_other c rest notBlank notSign]
  rfl

theorem twtoi_unsigned_42 : twtoi (wideString "42") 7 = .ok (false, 7) := by decide

theorem neg_ofInt_of_lt (v : Nat) (below : v < accumulateLimit) :
    (Int32.ofInt v).neg = .ok (Int32.ofInt (-↑v)) := by
  unfold accumulateLimit at below
  rw [Int32.neg, Int32.ofInt_val_of_bounds (by omega) (by omega),
    Int32.exact_of_bounds (by omega) (by omega)]

/-- `twtoi` on blanks, a sign, a digit run and a non-digit: the signed value of the
run while it is below `accumulateLimit`, an overflow in the digit loop from there on,
the top 48 values of each sign included. -/
theorem twtoi_signed (blanks digits : List WChar) (sign c : WChar) (rest : List WChar)
    (value : Int32) (skipped : ∀ b ∈ blanks, IsBlank b) (signed : IsSign sign)
    (allDigits : ∀ d ∈ digits, IsDigit d) (stop : ¬ IsDigit c) :
    twtoi (blanks ++ sign :: (digits ++ c :: rest)) value =
      if Decimal.value digits < accumulateLimit then
        .ok (true, Int32.ofInt
          (if sign = wide '-' then -↑(Decimal.value digits) else ↑(Decimal.value digits)))
      else .error .signedOverflow := by
  have run : accumulate 0 (digits ++ c :: rest) = _ :=
    accumulate_run 0 digits c rest allDigits stop (by decide)
  rw [twtoi, signScan_blanks blanks _ skipped, signScan_sign sign _ signed, ok_bind,
    Decimal.value]
  dsimp only
  rw [run]
  by_cases below : valueFrom 0 digits < accumulateLimit
  · rw [if_pos below, if_pos below, ok_bind]
    by_cases minus : sign = wide '-'
    · rw [decide_eq_true minus, if_pos rfl, if_pos minus, neg_ofInt_of_lt _ below]
      rfl
    · rw [decide_eq_false minus, if_neg Bool.false_ne_true, if_neg minus]
      rfl
  · rw [if_neg below, if_neg below, error_bind]

theorem twtoi_overflows_int_max :
    twtoi (wideString "+2147483647") 0 = .error .signedOverflow := by decide

/-! Acceptance: every result `twtoi` returns comes from the input shapes above, so what
it accepts is well formed. -/

/-- `str` is blanks, a sign, a digit run, possibly empty, and a non-digit, and `v` is the
run's value with the sign applied. -/
def SignedNumeral (str : List WChar) (v : Int) : Prop :=
  ∃ blanks sign digits c rest, str = blanks ++ sign :: (digits ++ c :: rest) ∧
    (∀ b ∈ blanks, IsBlank b) ∧ IsSign sign ∧ (∀ d ∈ digits, IsDigit d) ∧ ¬ IsDigit c ∧
    v = if sign = wide '-' then -↑(Decimal.value digits) else ↑(Decimal.value digits)

/-- `str` is blanks and then a character that is neither a blank nor a sign. -/
def Unsigned (str : List WChar) : Prop :=
  ∃ blanks c rest, str = blanks ++ c :: rest ∧ (∀ b ∈ blanks, IsBlank b) ∧ ¬ IsBlank c ∧
    ¬ IsSign c

theorem signScan_some {str rest : List WChar} {negative : Bool}
    (scanned : signScan str = .ok (some (negative, rest))) :
    ∃ blanks sign, str = blanks ++ sign :: rest ∧ (∀ b ∈ blanks, IsBlank b) ∧ IsSign sign := by
  induction str with
  | nil => cases scanned
  | cons ch str ih =>
    rw [signScan] at scanned
    split at scanned
    · next blank =>
      obtain ⟨blanks, sign, rfl, skipped, signed⟩ := ih scanned
      exact ⟨ch :: blanks, sign, rfl, List.forall_mem_cons.mpr ⟨blank, skipped⟩, signed⟩
    · split at scanned
      · next minus =>
        cases scanned
        exact ⟨[], ch, rfl, nofun, .inl minus⟩
      · split at scanned
        · next plus =>
          cases scanned
          exact ⟨[], ch, rfl, nofun, .inr plus⟩
        · cases scanned

theorem signScan_none {str : List WChar} (scanned : signScan str = .ok none) : Unsigned str := by
  induction str with
  | nil => cases scanned
  | cons ch str ih =>
    rw [signScan] at scanned
    split at scanned
    · next blank =>
      obtain ⟨blanks, c, rest, rfl, skipped, notBlank, notSign⟩ := ih scanned
      exact ⟨ch :: blanks, c, rest, rfl, List.forall_mem_cons.mpr ⟨blank, skipped⟩, notBlank,
        notSign⟩
    · split at scanned
      · cases scanned
      · split at scanned
        · cases scanned
        · next notBlank notMinus notPlus =>
          exact ⟨[], ch, str, rfl, nofun, notBlank, fun sign => sign.elim notMinus notPlus⟩

/-- The digit loop returns only after a digit run and a non-digit. -/
theorem accumulate_split {n m : Int32} {str : List WChar} (ran : accumulate n str = .ok m) :
    ∃ digits c rest, str = digits ++ c :: rest ∧ (∀ d ∈ digits, IsDigit d) ∧ ¬ IsDigit c := by
  induction str generalizing n with
  | nil => cases ran
  | cons ch str ih =>
    by_cases digit : IsDigit ch
    · rw [accumulate_digit _ _ _ digit] at ran
      obtain ⟨next, -, ran⟩ := bind_eq_ok ran
      obtain ⟨digits, c, rest, rfl, allDigits, stop⟩ := ih ran
      exact ⟨ch :: digits, c, rest, rfl, List.forall_mem_cons.mpr ⟨digit, allDigits⟩, stop⟩
    · exact ⟨[], ch, str, rfl, nofun, digit⟩

/-- What `twtoi` accepts is well formed. It returns `true` only on blanks, a sign, a digit
run and a non-digit, with the run's signed value, which is below `accumulateLimit` in
magnitude; a sign followed by no digit is read as 0. It returns `false` only on blanks
and a character that is neither a blank nor a sign, and then leaves `*value` as it was. -/
theorem twtoi_sound (str : List WChar) (value n : Int32) (found : Bool)
    (parsed : twtoi str value = .ok (found, n)) :
    if found then ∃ v, SignedNumeral str v ∧ v.natAbs < accumulateLimit ∧ n.val = v
    else n = value ∧ Unsigned str := by
  rcases scanned : signScan str with e | (_ | ⟨negative, rest⟩)
  · rw [twtoi, scanned, error_bind] at parsed
    cases parsed
  · rw [twtoi, scanned, ok_bind] at parsed
    cases parsed
    exact ⟨rfl, signScan_none scanned⟩
  · obtain ⟨blanks, sign, rfl, skipped, signed⟩ := signScan_some scanned
    have ran := parsed
    rw [twtoi, scanned, ok_bind] at ran
    obtain ⟨m, ran, -⟩ := bind_eq_ok ran
    obtain ⟨digits, c, tail, rfl, allDigits, stop⟩ := accumulate_split ran
    rw [twtoi_signed blanks digits sign c tail value skipped signed allDigits stop] at parsed
    split at parsed
    · next below =>
      cases parsed
      have bounded : (if sign = wide '-' then -↑(Decimal.value digits)
          else (↑(Decimal.value digits) : Int)).natAbs < accumulateLimit := by
        split <;> omega
      refine ⟨_, ⟨blanks, sign, digits, c, tail, rfl, skipped, signed, allDigits, stop, rfl⟩,
        bounded, Int32.ofInt_val_of_bounds ?_ ?_⟩ <;>
        unfold accumulateLimit at bounded <;> omega
    · cases parsed

theorem twtoi_sound_bare_sign :
    twtoi (wideString "+") 5 = .ok (true, 0) ∧
      ∃ v, SignedNumeral (wideString "+") v ∧ v.natAbs < accumulateLimit ∧ (0 : Int32).val = v :=
  ⟨by decide, twtoi_sound (wideString "+") 5 0 true (by decide)⟩

/-- The scan stops inside every buffer that ends in a NUL. -/
theorem signScan_ends (str : List WChar) : ∃ found, signScan (str ++ [0]) = .ok found := by
  induction str with
  | nil => exact ⟨none, rfl⟩
  | cons ch str ih =>
    rw [List.cons_append, signScan]
    split
    · exact ih
    · split
      · exact ⟨_, rfl⟩
      · split <;> exact ⟨_, rfl⟩

/-- A buffer holding a non-digit is a digit run, its first non-digit and the rest. -/
theorem digits_split (str : List WChar) (nonDigit : ∃ c ∈ str, ¬ IsDigit c) :
    ∃ digits c rest, str = digits ++ c :: rest ∧ (∀ d ∈ digits, IsDigit d) ∧ ¬ IsDigit c := by
  induction str with
  | nil => simp only [List.not_mem_nil, false_and, exists_false] at nonDigit
  | cons ch str ih =>
    by_cases digit : IsDigit ch
    · obtain ⟨c, inside, stop⟩ := nonDigit
      have later : c ∈ str := (List.mem_cons.mp inside).resolve_left fun same => stop (same ▸ digit)
      obtain ⟨digits, c, rest, rfl, allDigits, stop⟩ := ih ⟨c, later, stop⟩
      exact ⟨ch :: digits, c, rest, rfl, List.forall_mem_cons.mpr ⟨digit, allDigits⟩, stop⟩
    · exact ⟨[], ch, str, rfl, nofun, digit⟩

/-- On a buffer that ends in a NUL `twtoi` faults only by overflowing in its digit loop,
and exactly on blanks, a sign and a digit run of value at least `accumulateLimit`:
it never reads out of bounds and `-n` never overflows. -/
theorem twtoi_fails_iff (str : List WChar) (value : Int32) (e : Fault) :
    twtoi (str ++ [0]) value = .error e ↔
      e = .signedOverflow ∧ ∃ blanks sign digits c rest,
        str ++ [0] = blanks ++ sign :: (digits ++ c :: rest) ∧ (∀ b ∈ blanks, IsBlank b) ∧
        IsSign sign ∧ (∀ d ∈ digits, IsDigit d) ∧ ¬ IsDigit c ∧
        accumulateLimit ≤ Decimal.value digits := by
  constructor
  · intro failed
    obtain ⟨found, scanned⟩ := signScan_ends str
    rcases found with _ | ⟨negative, rest⟩
    · rw [twtoi, scanned, ok_bind] at failed
      cases failed
    · obtain ⟨blanks, sign, split, skipped, signed⟩ := signScan_some scanned
      have nul : (0 : WChar) ∈ blanks ++ sign :: rest := split ▸ List.mem_concat_self str 0
      have inRest : (0 : WChar) ∈ rest := by
        rcases List.mem_append.mp nul with blank | tail
        · exact absurd (skipped 0 blank) (by unfold IsBlank; decide)
        · rcases List.mem_cons.mp tail with rfl | later
          · exact absurd signed (by unfold IsSign; decide)
          · exact later
      obtain ⟨digits, c, tail, rfl, allDigits, stop⟩ :=
        digits_split rest ⟨0, inRest, by decide⟩
      rw [split, twtoi_signed blanks digits sign c tail value skipped signed allDigits stop]
        at failed
      split at failed
      · cases failed
      · next large =>
        cases failed
        exact ⟨rfl, blanks, sign, digits, c, tail, split, skipped, signed, allDigits, stop,
          by omega⟩
  · rintro ⟨rfl, blanks, sign, digits, c, rest, split, skipped, signed, allDigits, stop, large⟩
    rw [split, twtoi_signed blanks digits sign c rest value skipped signed allDigits stop,
      if_neg (by omega)]

/-! Reads: where the outcome of `twtoi` is not an out-of-bounds read, extending the
buffer does not change it, and a NUL ends every scan before the buffer does. -/

theorem digitStep_ne_outOfBounds (n : Int32) (c : WChar) :
    digitStep n c ≠ .error .outOfBounds :=
  Int32.exact_bind_ne _ _ _ nofun fun _ =>
    Int32.exact_bind_ne _ _ _ nofun fun _ => Int32.exact_ne nofun

theorem signScan_append (str more : List WChar) (within : signScan str ≠ .error .outOfBounds) :
    signScan (str ++ more) =
      (fun found => found.map fun stop => (stop.1, stop.2 ++ more)) <$> signScan str := by
  induction str with
  | nil => exact absurd rfl within
  | cons c str ih =>
    rw [List.cons_append, signScan, signScan]
    rw [signScan] at within
    by_cases blank : c = wide ' ' ∨ c = wide '\t'
    · rw [if_pos blank] at within
      rw [if_pos blank, if_pos blank]
      exact ih within
    · rw [if_neg blank, if_neg blank]
      split <;> [rfl; split <;> rfl]

theorem accumulate_append (n : Int32) (str more : List WChar)
    (within : accumulate n str ≠ .error .outOfBounds) :
    accumulate n (str ++ more) = accumulate n str := by
  induction str generalizing n with
  | nil => exact absurd rfl within
  | cons c str ih =>
    rw [List.cons_append]
    by_cases digit : IsDigit c
    · rw [accumulate_digit _ _ _ digit] at within ⊢
      rw [accumulate_digit _ _ _ digit]
      cases step : digitStep n c with
      | error e => rfl
      | ok next =>
        rw [step, ok_bind] at within
        exact ih next within
    · rw [accumulate_other _ _ _ digit, accumulate_other _ _ _ digit]

/-- Once a run of `twtoi` ends inside a buffer, what lies past the buffer is never read. -/
theorem twtoi_append (str more : List WChar) (value : Int32)
    (within : twtoi str value ≠ .error .outOfBounds) :
    twtoi (str ++ more) value = twtoi str value := by
  unfold twtoi at within ⊢
  cases scan : signScan str with
  | error e =>
    rw [scan, error_bind] at within
    rw [signScan_append str more (by
      rw [scan]
      exact fun same => within (congrArg Except.error (Except.error.inj same))), scan]
    rfl
  | ok found =>
    rw [signScan_append str more (by rw [scan]; nofun), scan]
    rw [scan, ok_bind] at within
    cases found with
    | none => rfl
    | some stop =>
      obtain ⟨sign, rest⟩ := stop
      have digits : accumulate 0 rest ≠ .error .outOfBounds := by
        intro failed
        exact within (by dsimp only; rw [failed, error_bind])
      dsimp only [Functor.map, Except.map, Option.map_some', ok_bind]
      rw [accumulate_append 0 rest more digits]

theorem signScan_terminated (pre : List WChar) (noNul : ∀ c ∈ pre, c ≠ 0) :
    signScan (pre ++ [0]) = .ok none ∨
      ∃ sign rest, signScan (pre ++ [0]) = .ok (some (sign, rest ++ [0])) ∧
        ∀ c ∈ rest, c ≠ 0 := by
  induction pre with
  | nil => exact .inl rfl
  | cons c pre ih =>
    have tail : ∀ d ∈ pre, d ≠ 0 := fun d inside => noNul d (List.mem_cons_of_mem c inside)
    rw [List.cons_append, signScan]
    split
    · exact ih tail
    · split
      · exact .inr ⟨true, pre, rfl, tail⟩
      · split
        · exact .inr ⟨false, pre, rfl, tail⟩
        · exact .inl rfl

theorem accumulate_terminated (n : Int32) (pre : List WChar) (noNul : ∀ c ∈ pre, c ≠ 0) :
    accumulate n (pre ++ [0]) ≠ .error .outOfBounds := by
  induction pre generalizing n with
  | nil => exact fun reached => nomatch (accumulate_other n 0 [] (by decide)).symm.trans reached
  | cons c pre ih =>
    have tail : ∀ d ∈ pre, d ≠ 0 := fun d inside => noNul d (List.mem_cons_of_mem c inside)
    rw [List.cons_append]
    by_cases digit : IsDigit c
    · rw [accumulate_digit _ _ _ digit]
      cases step : digitStep n c with
      | error e => exact fun same => digitStep_ne_outOfBounds n c (step.trans same)
      | ok next => exact ih next tail
    · rw [accumulate_other _ _ _ digit]
      nofun

theorem twtoi_terminated (pre : List WChar) (noNul : ∀ c ∈ pre, c ≠ 0) (value : Int32) :
    twtoi (pre ++ [0]) value ≠ .error .outOfBounds := by
  unfold twtoi
  rcases signScan_terminated pre noNul with scan | ⟨sign, rest, scan, tail⟩
  · rw [scan]
    nofun
  · rw [scan, ok_bind]
    dsimp only
    cases digits : accumulate 0 (rest ++ [0]) with
    | error e =>
      rw [error_bind]
      exact fun same => accumulate_terminated 0 rest tail
        (digits.trans (congrArg Except.error (Except.error.inj same)))
    | ok n =>
      rw [ok_bind]
      cases sign
      · nofun
      · exact Int32.exact_bind_ne _ _ _ nofun fun _ => nofun

/-- A NUL at index `pre.length` bounds every read: on the buffer `s[0..m]` that ends at
the NUL, `twtoi` never reads out of bounds, and whatever follows the NUL in memory
leaves its outcome unchanged. -/
theorem twtoi_reads_to_nul (pre rest : List WChar) (noNul : ∀ c ∈ pre, c ≠ 0)
    (value : Int32) :
    twtoi (pre ++ 0 :: rest) value = twtoi (pre ++ [0]) value ∧
      twtoi (pre ++ [0]) value ≠ .error .outOfBounds := by
  have within := twtoi_terminated pre noNul value
  refine ⟨?_, within⟩
  rw [show pre ++ 0 :: rest = (pre ++ [0]) ++ rest by simp, twtoi_append _ rest value within]

theorem twtoi_reads_to_nul_plus_seven :
    (∀ c ∈ [wide '+', wide '7'], c ≠ 0) ∧
      twtoi ([wide '+', wide '7'] ++ 0 :: [wide '9']) 0 = twtoi ([wide '+', wide '7'] ++ [0]) 0 ∧
      twtoi ([wide '+', wide '7'] ++ [0]) 0 ≠ .error .outOfBounds :=
  ⟨by decide, twtoi_reads_to_nul _ _ (by decide) 0⟩

end IL2C.Win32

import Mathlib.Tactic.Common

set_option autoImplicit false

/- The C types of the sources. `int32_t` carries its range, so no stored value is
out of range, and each arithmetic operator returns `Fault.signedOverflow` where C
leaves the result undefined (C11 6.5p5) instead of wrapping. `wchar_t` is the
16-bit unsigned type of the Win32 target that `Main.c` is built for. -/
namespace IL2C

/-- The ways a modelled run stops without a result: undefined behaviour of C, or a
condition the runtime raises. -/
inductive Fault where
  | signedOverflow
  | divisionByZero
  /-- A load or store outside the object the pointer points into. -/
  | outOfBounds
  /-- A load of a local that was never stored to. -/
  | indeterminate
  /-- A dereference of `NULL`. -/
  | nullReference
  /-- The runtime's array index check failed. -/
  | indexOutOfRange
  /-- The runtime refused an array length. -/
  | invalidLength
  deriving DecidableEq, Repr

instance decEqExcept {ε α : Type} [DecidableEq ε] [DecidableEq α] : DecidableEq (Except ε α)
  | .ok a, .ok b => decidable_of_iff (a = b) ⟨congrArg _, Except.ok.inj⟩
  | .error a, .error b => decidable_of_iff (a = b) ⟨congrArg _, Except.error.inj⟩
  | .ok _, .error _ => isFalse nofun
  | .error _, .ok _ => isFalse nofun

@[simp] theorem ok_bind {ε α β : Type} (a : α) (f : α → Except ε β) :
    (Except.ok a >>= f) = f a := rfl

@[simp] theorem error_bind {ε α β : Type} (e : ε) (f : α → Except ε β) :
    (Except.error e >>= f) = .error e := rfl

/-- A computation of `Except` that succeeds succeeded at each step. -/
theorem bind_eq_ok {ε α β : Type} {x : Except ε α} {f : α → Except ε β} {b : β}
    (success : x >>= f = .ok b) : ∃ a, x = .ok a ∧ f a = .ok b := by
  cases x with
  | error e => cases success
  | ok a => exact ⟨a, rfl, success⟩

@[simp] theorem pure_eq_ok {ε α : Type} (a : α) : (pure a : Except ε α) = .ok a := rfl

/-- C's `int32_t`. -/
structure Int32 where
  val : Int
  min_le : -2147483648 ≤ val
  lt_max : val < 2147483648
  deriving DecidableEq, Repr

namespace Int32

/-- An exact result that `int32_t` represents. -/
def InRange (x : Int) : Prop := -2147483648 ≤ x ∧ x < 2147483648

instance (x : Int) : Decidable (InRange x) := inferInstanceAs (Decidable (_ ∧ _))

@[ext] theorem ext {a b : Int32} (same : a.val = b.val) : a = b := by
  cases a; cases b; cases same; rfl

theorem inRange (a : Int32) : InRange a.val := ⟨a.min_le, a.lt_max⟩

/-- Conversion to `int32_t`, modulo 2^32 as every target of the sources defines it. -/
def ofInt (x : Int) : Int32 :=
  ⟨(x + 2147483648) % 4294967296 - 2147483648, by omega, by omega⟩

instance (n : Nat) : OfNat Int32 n := ⟨ofInt n⟩

@[simp] theorem ofInt_val {x : Int} (range : InRange x) : (ofInt x).val = x := by
  simp only [ofInt]
  unfold InRange at range
  omega

@[simp] theorem ofInt_self (a : Int32) : ofInt a.val = a :=
  ext (ofInt_val a.inRange)

/-- The value of a signed operation whose exact result is `x`. -/
def exact (x : Int) : Except Fault Int32 :=
  if InRange x then .ok (ofInt x) else .error .signedOverflow

theorem exact_of_inRange {x : Int} (range : InRange x) : exact x = .ok (ofInt x) := by
  simp only [exact, range, ↓reduceIte]

/-- `exact_of_inRange` in the form a `simp` discharger such as `omega` proves. -/
theorem exact_of_bounds {x : Int} (lower : -2147483648 ≤ x) (upper : x < 2147483648) :
    exact x = .ok (ofInt x) :=
  exact_of_inRange ⟨lower, upper⟩

theorem ofInt_val_of_bounds {x : Int} (lower : -2147483648 ≤ x) (upper : x < 2147483648) :
    (ofInt x).val = x :=
  ofInt_val ⟨lower, upper⟩

theorem exact_of_not_inRange {x : Int} (outside : ¬ InRange x) :
    exact x = .error .signedOverflow := by
  simp only [exact, outside, ↓reduceIte]

/-- A signed operation fails only by overflowing, so a chain of them never reports
another fault. -/
theorem exact_bind_ne {α : Type} (x : Int) (f : Int32 → Except Fault α) (e : Fault)
    (other : e ≠ .signedOverflow) (rest : ∀ r, f r ≠ .error e) :
    exact x >>= f ≠ .error e := by
  unfold exact
  split
  · exact rest _
  · exact fun same => other (Except.error.inj same).symm

theorem exact_ne {x : Int} {e : Fault} (other : e ≠ .signedOverflow) : exact x ≠ .error e := by
  simpa only [bind_pure] using exact_bind_ne x pure e other fun r => nofun

def add (a b : Int32) : Except Fault Int32 := exact (a.val + b.val)

def sub (a b : Int32) : Except Fault Int32 := exact (a.val - b.val)

def mul (a b : Int32) : Except Fault Int32 := exact (a.val * b.val)

def neg (a : Int32) : Except Fault Int32 := exact (-a.val)

/-- C's `/`, truncating toward zero. -/
def div (a b : Int32) : Except Fault Int32 :=
  if b.val = 0 then .error .divisionByZero else exact (a.val.tdiv b.val)

/-- C's `%`: undefined wherever `/` is (C11 6.5.5p6). -/
def rem (a b : Int32) : Except Fault Int32 :=
  if b.val = 0 then .error .divisionByZero
  else if InRange (a.val.tdiv b.val) then exact (a.val.tmod b.val)
  else .error .signedOverflow

/-- Truncating division by a positive divisor, in terms of the floor division `omega`
reads. -/
theorem tdiv_of_pos (a b : Int) (pos : 0 < b) :
    a.tdiv b = if 0 ≤ a then a / b else -((-a) / b) := by
  split
  · exact Int.tdiv_eq_ediv ‹_› (by omega)
  · rw [← Int.tdiv_eq_ediv (by omega) (by omega), ← Int.neg_tdiv, Int.neg_neg]

theorem tmod_of_pos (a b : Int) (pos : 0 < b) :
    a.tmod b = if 0 ≤ a then a % b else -((-a) % b) := by
  rw [Int.tmod_def, tdiv_of_pos a b pos]
  split
  · rw [Int.emod_def]
  · rw [Int.emod_def, Int.mul_neg]
    omega

/-- C's `==` on `int32_t`, as the `int` it yields. -/
def ceq (a b : Int32) : Int32 := if a = b then 1 else 0

/-- A `bool` operand converted to `int32_t`. -/
def ofBool (b : Bool) : Int32 := if b then 1 else 0

/-- An `int32_t` tested as a condition. -/
def toBool (a : Int32) : Bool := a.val ≠ 0

@[simp] theorem toBool_ceq (a b : Int32) : (ceq a b).toBool = decide (a = b) := by
  by_cases same : a = b
  · rw [ceq, if_pos same, decide_eq_true same]
    rfl
  · rw [ceq, if_neg same, decide_eq_false same]
    rfl

@[simp] theorem ofBool_eq_zero (b : Bool) : ofBool b = 0 ↔ b = false := by
  cases b <;> decide

end Int32

/-- `wchar_t` of the Win32 target: an unsigned 16-bit code unit. -/
abbrev WChar := UInt16

/-- The wide literal `L'c'`. -/
def wide (c : Char) : WChar := UInt16.ofNat c.toNat

/-- A `wchar_t` operand promoted to `int` (C11 6.3.1.1). -/
def promote (c : WChar) : Int32 := Int32.ofInt c.toNat

/-- An `int` stored into a `wchar_t`: reduced modulo 2^16 (C11 6.3.1.3p2). -/
def narrow (x : Int32) : WChar := UInt16.ofNat (x.val % 65536).toNat

/-- The NUL-terminated wide literal `L"s"`. -/
def wideString (s : String) : List WChar := s.toList.map wide ++ [0]

@[simp] theorem wide_space : wide ' ' = 32 := rfl
@[simp] theorem wide_tab : wide '\t' = 9 := rfl
@[simp] theorem wide_minus : wide '-' = 45 := rfl
@[simp] theorem wide_plus : wide '+' = 43 := rfl
@[simp] theorem wide_zero : wide '0' = 48 := rfl
@[simp] theorem wide_nine : wide '9' = 57 := rfl

theorem wchar_le_iff (a b : WChar) : a ≤ b ↔ a.toNat ≤ b.toNat := by
  simp only [UInt16.le_def, BitVec.le_def, UInt16.toNat]

theorem wchar_ext_iff (a b : WChar) : a = b ↔ a.toNat = b.toNat :=
  ⟨congrArg UInt16.toNat, UInt16.toNat.inj⟩

theorem promote_val (c : WChar) : (promote c).val = c.toNat := by
  have small := c.toNat_lt_size
  exact Int32.ofInt_val ⟨by omega, by simp only [UInt16.size] at small; omega⟩

end IL2C

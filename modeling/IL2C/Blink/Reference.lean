import IL2C.Blink.Program

set_option autoImplicit false

/- The structured loop that Main's goto-structured body is meant to implement:
`flag = false; idx = 0; loop { GPIO_SetValue(ledFd, flag ? 1 : 0); flag = !flag;
GPIO_GetValue(buttonFd, &v); if (v == 0) idx = (idx + 1) % 3; sleep(intervals[idx]); }`.
It is written from that statement, not from the generated code, with `idx` a natural
number and `intervals` the list `declaredValue0`; `Refinement` proves Main makes the same
calls. Its closed form says what iteration `i` does in terms of the readings alone. -/
namespace IL2C.MT3620Blink.Reference

/-- The loop's variables, and how many `GPIO_GetValue` calls the platform has answered. -/
structure State where
  flag : Bool
  index : Nat
  button : Int32
  calls : Nat
  trace : List Call

/-- `flag = false; idx = 0;`, and `v` at 0 as Main's `buttonValue` starts. -/
def initial : State := ⟨false, 0, 0, 0, []⟩

/-- One pass of the loop body. -/
def step (p : Platform) (r : State) : Except Fault State := do
  let trace := r.trace ++ [Call.gpioSetValue p.outputFd (if r.flag then 1 else 0)]
  let flag := !r.flag
  let button := (p.buttonWrite r.calls).getD r.button
  let trace := trace ++ [Call.gpioGetValue p.inputFd]
  let index := if button = 0 then (r.index + 1) % 3 else r.index
  let msec := declaredValue0.getD index 0
  let slept ← Program.sleep msec
  pure ⟨flag, index, button, r.calls + 1, trace ++ Call.sleep msec :: slept⟩

/-- The loop after `k` passes. -/
def run (p : Platform) : Nat → Except Fault State
  | 0 => .ok initial
  | k + 1 => run p k >>= step p

/-- `v_k`, what `v` holds after `k` calls of `GPIO_GetValue` (0 before the first). -/
def reading (p : Platform) : Nat → Int32
  | 0 => 0
  | k + 1 => (p.buttonWrite k).getD (reading p k)

/-- `c_k`, how many of `v_1 .. v_k` are 0. -/
def zeros (p : Platform) : Nat → Nat
  | 0 => 0
  | k + 1 => zeros p k + if reading p (k + 1) = 0 then 1 else 0

/-- The calls of pass `i + 1`: `GPIO_SetValue` with `i mod 2`, `GPIO_GetValue`, and
`sleep` with `declaredValue0__[c_(i+1) mod 3]`. -/
def iterationCalls (p : Platform) (i : Nat) : List Call :=
  let msec := declaredValue0.getD (zeros p (i + 1) % 3) 0
  [Call.gpioSetValue p.outputFd (Int32.ofInt ↑(i % 2)), Call.gpioGetValue p.inputFd,
    Call.sleep msec] ++ Program.sleepCalls msec

/-- The loop's state after `k` passes, in closed form. -/
def after (p : Platform) (k : Nat) : State :=
  ⟨decide (k % 2 = 1), zeros p k % 3, reading p k, k, (List.range k).flatMap (iterationCalls p)⟩

theorem flag_value (k : Nat) :
    (if decide (k % 2 = 1) then (1 : Int32) else 0) = Int32.ofInt ↑(k % 2) := by
  rcases Nat.mod_two_eq_zero_or_one k with parity | parity <;> rw [parity] <;> decide

/-- `flag = !flag` takes `flag` after `k` passes to `flag` after `k + 1`. -/
theorem flag_succ (k : Nat) : (!decide (k % 2 = 1)) = decide ((k + 1) % 2 = 1) := by
  by_cases odd : k % 2 = 1 <;> simp [odd] <;> omega

/-- `if (v == 0) idx = (idx + 1) % 3` takes `idx` after `k` passes to `idx` after `k + 1`. -/
theorem index_succ (p : Platform) (k : Nat) :
    (if reading p (k + 1) = 0 then (zeros p k % 3 + 1) % 3 else zeros p k % 3) =
      zeros p (k + 1) % 3 := by
  simp only [zeros]
  split <;> omega

/-- Pass `k + 1` appends its own calls to the calls of the first `k`. -/
theorem trace_after_succ (p : Platform) (k : Nat) :
    (after p (k + 1)).trace = (after p k).trace ++ iterationCalls p k := by
  rw [after, after, List.range_succ, List.flatMap_append, List.flatMap_singleton]

/-- One pass takes the closed form for `k` passes to the one for `k + 1`. -/
theorem step_after (p : Platform) (k : Nat) : step p (after p k) = .ok (after p (k + 1)) := by
  have trace := trace_after_succ p k
  simp only [after] at trace
  simp only [step, after, Program.sleep_eq, ok_bind, pure_eq_ok, flag_succ, flag_value, trace]
  rw [show (p.buttonWrite k).getD (reading p k) = reading p (k + 1) from rfl, index_succ]
  simp only [iterationCalls, List.append_assoc, List.cons_append, List.singleton_append,
    List.nil_append]

/-- The loop never stops: after every number of passes it is in its closed form. -/
theorem run_after (p : Platform) (k : Nat) : run p k = .ok (after p k) := by
  induction k with
  | zero => rfl
  | succ k ih => rw [run, ih, ok_bind, step_after]

end IL2C.MT3620Blink.Reference

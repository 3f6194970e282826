import IL2C.Runtime.Arrays

set_option autoImplicit false

/- `MT3620Blink_Program_Main` and `MT3620Blink_Program_sleep` of
`samples/AzureSphere/Mt3620App/Generated/MT3620Blink.c`: Main as a goto machine over its
labelled blocks, with the board's answers to the interop calls as a parameter. -/
namespace IL2C.MT3620Blink

open Runtime

/-- A call Main's run makes: the interop calls, the call of `MT3620Blink_Program_sleep`
and the `nanosleep` that one makes. -/
inductive Call where
  | gpioOpenAsOutput (gpioId outputMode initialValue : Int32)
  | gpioOpenAsInput (gpioId : Int32)
  | gpioSetValue (gpioFd value : Int32)
  | gpioGetValue (gpioFd : Int32)
  | sleep (msec : Int32)
  | nanosleep (sec nsec : Int32)
  deriving DecidableEq, Repr

/-- What the board answers: the GPIO ids `MT3620_RDB_LED1_RED` and `MT3620_RDB_BUTTON_A`
of `mt3620_rdb.h` (not in the sources), the descriptors the two opens return, what the
`i`-th `GPIO_SetValue` and `GPIO_GetValue` return (counting from 0), and what the `i`-th
`GPIO_GetValue` leaves in `*value`: `some v` where it writes `v`, `none` where it leaves
the old value. -/
structure Platform where
  ledRed : Int32
  buttonA : Int32
  outputFd : Int32
  inputFd : Int32
  setValueResult : Nat → Int32
  getValueResult : Nat → Int32
  buttonWrite : Nat → Option Int32

/-- `declaredValue0__`, the blob `blinkIntervals` is initialized from. -/
def declaredValue0 : List Int32 := [125, 250, 500]

namespace Program

/-- `MT3620Blink_Program_sleep(int32_t msec)`: the `nanosleep` it makes, with
`tv_sec = msec / 1000` and `tv_nsec = msec % 1000 * 1000000`. -/
def sleep (msec : Int32) : Except Fault (List Call) := do
  let sec ← msec.div 1000
  let rest ← msec.rem 1000
  let nsec ← rest.mul 1000000
  pure [.nanosleep sec nsec]

/-- The `nanosleep` that `sleep msec` makes. -/
def sleepCalls (msec : Int32) : List Call :=
  [.nanosleep (Int32.ofInt (msec.val.tdiv 1000)) (Int32.ofInt (msec.val.tmod 1000 * 1000000))]

theorem quotient_inRange (msec : Int32) : Int32.InRange (msec.val.tdiv 1000) := by
  have lower := msec.min_le
  have upper := msec.lt_max
  unfold Int32.InRange
  rw [Int32.tdiv_of_pos _ _ (by decide)]
  split <;> omega

theorem nanoseconds_inRange (msec : Int32) : Int32.InRange (msec.val.tmod 1000 * 1000000) := by
  unfold Int32.InRange
  rw [Int32.tmod_of_pos _ _ (by decide)]
  split <;> omega

/-- `sleep` never overflows: for every `msec` it makes its one `nanosleep`. -/
theorem sleep_eq (msec : Int32) : sleep msec = .ok (sleepCalls msec) := by
  have quotient := quotient_inRange msec
  have remainder : -1000 < msec.val.tmod 1000 ∧ msec.val.tmod 1000 < 1000 := by
    rw [Int32.tmod_of_pos _ _ (by decide)]
    split <;> omega
  have thousand : (1000 : Int32).val = 1000 := rfl
  have million : (1000000 : Int32).val = 1000000 := rfl
  rw [sleep, Int32.div, thousand, if_neg (by decide), Int32.exact_of_inRange quotient,
    ok_bind, Int32.rem, thousand, if_neg (by decide), if_pos quotient,
    Int32.exact_of_bounds (by omega) (by omega), ok_bind, Int32.mul, million,
    Int32.ofInt_val_of_bounds (by omega) (by omega),
    Int32.exact_of_inRange (nanoseconds_inRange msec)]
  rfl

/-- The objref slots of `MT3620Blink_Program_Main_EXECUTION_FRAME__`. -/
structure Frame where
  blinkIntervals : Option Nat
  stack0_1 : Option Nat
  stack1_1 : Option Nat
  deriving DecidableEq, Repr

/-- Main's state: the runtime's heap, whether `frame__` is linked, the frame, the locals
and evaluation-stack slots under their names in the code, how many `GPIO_GetValue` calls
the platform has answered, and the calls made so far. -/
structure State where
  heap : Heap
  linked : Bool
  frame : Frame
  ledFd : Int32
  buttonFd : Int32
  flag : Bool
  blinkIntervalIndex : Int32
  buttonValue : Int32
  local6 : Bool
  local7 : Bool
  stack0_0 : Int32
  stack0_2 : Bool
  stack0_3 : Int32
  stack1_0 : Int32
  stack1_2 : Bool
  stack1_4 : Nat
  stack2_0 : Int32
  calls : Nat
  trace : List Call

/-- The labels of Main's body, with `IL_005a` for the fall-through after the test at
`IL_0058`. -/
inductive Label where
  | IL_0032
  | IL_003a
  | IL_003b
  | IL_005a
  | IL_0066
  | IL_0071
  deriving DecidableEq, Repr

/-- The locals as declared (`buttonValue` cleared by `il2c_memset`), `frame__ = { NULL, 3 }`
not yet linked, and the evaluation-stack slots, each stored before it is read, at 0. -/
def initial (heap : Heap) : State where
  heap := heap
  linked := false
  frame := ⟨none, none, none⟩
  ledFd := 0
  buttonFd := 0
  flag := false
  blinkIntervalIndex := 0
  buttonValue := 0
  local6 := false
  local7 := false
  stack0_0 := 0
  stack0_2 := false
  stack0_3 := 0
  stack1_0 := 0
  stack1_2 := false
  stack1_4 := 0
  stack2_0 := 0
  calls := 0
  trace := []

/-- Main from `il2c_link_execution_frame(&frame__)` to `IL_0030: br.s IL_0071`. -/
def entry (p : Platform) (s : State) : Except Fault State := do
  let s := { s with linked := true }
  let s := { s with stack0_0 := p.ledRed, stack1_0 := 0, stack2_0 := 1 }
  let s := { s with
    stack0_0 := p.outputFd,
    trace := s.trace ++ [Call.gpioOpenAsOutput s.stack0_0 s.stack1_0 s.stack2_0] }
  let s := { s with ledFd := s.stack0_0 }
  let s := { s with stack0_0 := p.buttonA }
  let s := { s with stack0_0 := p.inputFd, trace := s.trace ++ [Call.gpioOpenAsInput s.stack0_0] }
  let s := { s with buttonFd := s.stack0_0 }
  let s := { s with stack0_0 := 0 }
  let s := { s with flag := s.stack0_0.toBool }
  let s := { s with stack0_0 := 3 }
  let (heap, array) ← newArray s.heap s.stack0_0
  let s := { s with heap := heap, frame := { s.frame with stack0_1 := some array } }
  let s := { s with frame := { s.frame with stack1_1 := s.frame.stack0_1 } }
  let heap ← initializeArray s.heap s.frame.stack1_1
    ⟨4 * declaredValue0.length, declaredValue0⟩
  let s := { s with heap := heap, frame := { s.frame with blinkIntervals := s.frame.stack0_1 } }
  let s := { s with stack0_0 := 0 }
  pure { s with blinkIntervalIndex := s.stack0_0 }

/-- The block of Main that starts at a label, up to its jump. -/
def block (p : Platform) : Label → State → Except Fault (Label × State)
  | .IL_0032, s =>
    let s := { s with stack0_0 := s.ledFd, stack1_2 := s.flag }
    if s.stack1_2 then .ok (.IL_003a, s) else .ok (.IL_003b, { s with stack1_0 := 0 })
  | .IL_003a, s => .ok (.IL_003b, { s with stack1_0 := 1 })
  | .IL_003b, s =>
    let s := { s with
      stack0_0 := p.setValueResult s.calls,
      trace := s.trace ++ [Call.gpioSetValue s.stack0_0 s.stack1_0] }
    let s := { s with stack0_2 := s.flag, stack1_0 := 0 }
    let s := { s with stack0_0 := Int32.ceq (Int32.ofBool s.stack0_2) s.stack1_0 }
    let s := { s with flag := s.stack0_0.toBool }
    let s := { s with stack0_0 := s.buttonFd }
    let s := { s with
      stack0_0 := p.getValueResult s.calls,
      buttonValue := (p.buttonWrite s.calls).getD s.buttonValue,
      calls := s.calls + 1, trace := s.trace ++ [Call.gpioGetValue s.stack0_0] }
    let s := { s with stack0_3 := s.buttonValue, stack1_0 := 0 }
    let s := { s with stack0_0 := Int32.ceq s.stack0_3 s.stack1_0 }
    let s := { s with local6 := s.stack0_0.toBool }
    let s := { s with stack0_2 := s.local6 }
    if !s.stack0_2 then .ok (.IL_0066, s) else .ok (.IL_005a, s)
  | .IL_005a, s => do
    let s := { s with stack0_0 := s.blinkIntervalIndex, stack1_0 := 1 }
    let sum ← s.stack0_0.add s.stack1_0
    let s := { s with
      stack0_0 := sum, frame := { s.frame with stack1_1 := s.frame.blinkIntervals } }
    let length ← arrayLength s.heap s.frame.stack1_1
    let s := { s with stack1_4 := length }
    let s := { s with stack1_0 := Int32.ofInt s.stack1_4 }
    let remainder ← s.stack0_0.rem s.stack1_0
    let s := { s with stack0_0 := remainder }
    pure (.IL_0066, { s with blinkIntervalIndex := s.stack0_0 })
  | .IL_0066, s => do
    let s := { s with
      frame := { s.frame with stack0_1 := s.frame.blinkIntervals },
      stack1_0 := s.blinkIntervalIndex }
    let item ← arrayItem s.heap s.frame.stack0_1 s.stack1_0
    let s := { s with stack0_0 := item }
    let slept ← sleep s.stack0_0
    pure (.IL_0071, { s with trace := s.trace ++ Call.sleep s.stack0_0 :: slept })
  | .IL_0071, s =>
    let s := { s with stack0_0 := 1 }
    .ok (.IL_0032, { s with local7 := s.stack0_0.toBool })

/-- `n` blocks of Main from a label. -/
def exec (p : Platform) : Nat → Label × State → Except Fault (Label × State)
  | 0, current => .ok current
  | n + 1, (label, s) => block p label s >>= exec p n

/-- Main's first `n` blocks after its prologue, from a runtime heap. -/
def run (p : Platform) (heap : Heap) (n : Nat) : Except Fault (Label × State) := do
  let s ← entry p (initial heap)
  exec p n (.IL_0071, s)

section Frame

variable {p : Platform}

end Frame

section Results

variable (p : Platform) (setResults getResults : Nat → Int32)

/-- Main pops what `GPIO_SetValue` and `GPIO_GetValue` return (`IL_0040`, `IL_004e`): no
block depends on it. -/
theorem block_ignores_results (l : Label) (s : State) :
    block { p with setValueResult := setResults, getValueResult := getResults } l s =
      block p l s := by
  cases l <;> rfl

theorem exec_ignores_results (n : Nat) :
    exec { p with setValueResult := setResults, getValueResult := getResults } n = exec p n := by
  induction n with
  | zero => rfl
  | succ n ih =>
    funext ⟨l, s⟩
    rw [exec, exec, block_ignores_results, ih]

/-- Main runs the same, to the last call, whatever `GPIO_SetValue` and `GPIO_GetValue`
return: an error they report goes unnoticed. -/
theorem run_ignores_results (heap : Heap) (n : Nat) :
    run { p with setValueResult := setResults, getValueResult := getResults } heap n =
      run p heap n := by
  rw [run, run, exec_ignores_results]
  rfl

end Results

end Program

end IL2C.MT3620Blink

import Mathlib.Tactic.IntervalCases
import IL2C.Blink.Reference

set_option autoImplicit false

/- Main's goto-structured body refines the reference loop: each block keeps the
invariant `At` and, inside a pass of the loop, lowers `rank`, so every pass ends at
`IL_0066` with the calls and the state the reference loop predicts. -/
namespace IL2C.MT3620Blink.Refinement

open Runtime Program
open Reference (reading zeros iterationCalls after flag_succ index_succ trace_after_succ)

/-- The calls Main makes before its loop: the two opens. -/
def startup (p : Platform) : List Call :=
  [Call.gpioOpenAsOutput p.ledRed 0 1, Call.gpioOpenAsInput p.buttonA]

/-- The part of Main's state that a pass of the loop reads or writes. -/
@[ext] structure View where
  ledFd : Int32
  buttonFd : Int32
  heap : Heap
  blinkIntervals : Option Nat
  flag : Bool
  blinkIntervalIndex : Int32
  buttonValue : Int32
  calls : Nat
  trace : List Call

def view (s : State) : View :=
  ⟨s.ledFd, s.buttonFd, s.heap, s.frame.blinkIntervals, s.flag, s.blinkIntervalIndex,
    s.buttonValue, s.calls, s.trace⟩

/-- The view of Main's state while the reference loop is in state `r`, Main having started
from `heap`: the descriptors the opens returned, `blinkIntervals` allocated after `heap`
and holding `declaredValue0__`, the loop's variables, and its calls after the opens. -/
def expected (p : Platform) (heap : Heap) (r : Reference.State) : View :=
  ⟨p.outputFd, p.inputFd, heap ++ [declaredValue0], some heap.length, r.flag,
    Int32.ofInt r.index, r.button, r.calls, startup p ++ r.trace⟩

def Matches (p : Platform) (heap : Heap) (r : Reference.State) (s : State) : Prop :=
  view s = expected p heap r

/-- The reference loop in pass `k + 1` after `GPIO_GetValue`, with `idx` at `index`. -/
def polled (p : Platform) (k index : Nat) : Reference.State :=
  ⟨decide ((k + 1) % 2 = 1), index, reading p (k + 1), k + 1,
    (after p k).trace ++ [Call.gpioSetValue p.outputFd (Int32.ofInt ↑(k % 2)),
      Call.gpioGetValue p.inputFd]⟩

/-- What holds at each label in pass `k + 1`: before `GPIO_SetValue` Main matches the
reference after `k` passes, with the operands of `GPIO_SetValue` on the stack from
`IL_003a` on; after `GPIO_GetValue` it matches the reference in the middle of the pass,
with the old `idx` at `IL_005a`, which only a zero reading reaches, and the new one at
`IL_0066`. -/
def At (p : Platform) (heap : Heap) (k : Nat) : Label → State → Prop
  | .IL_0071, s => Matches p heap (after p k) s
  | .IL_0032, s => Matches p heap (after p k) s
  | .IL_003a, s => Matches p heap (after p k) s ∧ s.stack0_0 = p.outputFd ∧ s.flag = true
  | .IL_003b, s => Matches p heap (after p k) s ∧ s.stack0_0 = p.outputFd ∧
      s.stack1_0 = Int32.ofInt ↑(k % 2)
  | .IL_005a, s => Matches p heap (polled p k (zeros p k % 3)) s ∧ reading p (k + 1) = 0
  | .IL_0066, s => Matches p heap (polled p k (zeros p (k + 1) % 3)) s

/-- How far a label's block stands from the end of a pass. -/
def rank : Label → Nat
  | .IL_0071 => 5
  | .IL_0032 => 4
  | .IL_003a => 3
  | .IL_003b => 2
  | .IL_005a => 1
  | .IL_0066 => 0

section Blocks

variable (p : Platform) (heap : Heap)

theorem arrayLength_intervals :
    arrayLength (heap ++ [declaredValue0]) (some heap.length) = .ok 3 :=
  arrayLength_stored _ _ _ (List.getElem?_concat_length _ _)

theorem ofInt_index_val {index : Nat} (small : index < 3) : (Int32.ofInt index).val = index :=
  Int32.ofInt_val_of_bounds (by omega) (by omega)

theorem arrayItem_intervals (index : Nat) (small : index < 3) :
    arrayItem (heap ++ [declaredValue0]) (some heap.length) (Int32.ofInt index) =
      .ok (declaredValue0.getD index 0) := by
  have lower : 0 ≤ (Int32.ofInt index).val := by
    rw [ofInt_index_val small]
    omega
  have found : declaredValue0[(Int32.ofInt index).val.toNat]? =
      some (declaredValue0.getD index 0) := by
    interval_cases index <;> rfl
  exact arrayItem_stored _ _ _ _ _ (List.getElem?_concat_length _ _) lower found

/-- `idx + 1` and `% blinkIntervals->Length` at `IL_005a`, for an `idx` below 3. -/
theorem advance_index (index : Nat) (small : index < 3) :
    (Int32.ofInt index).add 1 = .ok (Int32.ofInt ↑(index + 1)) ∧
      (Int32.ofInt ↑(index + 1)).rem (Int32.ofInt ↑(3 : Nat)) =
        .ok (Int32.ofInt ↑((index + 1) % 3)) := by
  interval_cases index <;> decide

/-- Main's prologue ends at `IL_0071` in its first pass. -/
theorem entry_at : ∃ s, entry p (initial heap) = .ok s ∧ At p heap 0 .IL_0071 s := by
  have three : (3 : Int32).val.toNat = 3 := rfl
  have filled : initializeArray (heap ++ [List.replicate 3 0]) (some heap.length)
      ⟨4 * declaredValue0.length, declaredValue0⟩ = .ok (heap ++ [declaredValue0]) := by
    rw [initializeArray_fills _ heap.length (List.replicate 3 0) _
        (List.getElem?_concat_length _ _) rfl rfl,
      List.set_append_right _ _ (Nat.le_refl _), Nat.sub_self]
    rfl
  simp only [entry, initial]
  rw [newArray_fresh heap 3 (by decide), ok_bind]
  dsimp only
  rw [three, filled, ok_bind]
  exact ⟨_, rfl, rfl⟩

variable {p heap}

/-- `IL_0032` tests `flag` with `ledFd` on the stack. -/
theorem block_IL_0032_at {k : Nat} {s : State} (holds : At p heap k .IL_0032 s) :
    ∃ l' s', block p .IL_0032 s = .ok (l', s') ∧ (l' = .IL_003a ∨ l' = .IL_003b) ∧
      At p heap k l' s' := by
  have ledFd : s.ledFd = p.outputFd := congrArg View.ledFd holds
  have flag : s.flag = decide (k % 2 = 1) := congrArg View.flag holds
  dsimp only [block]
  split
  · next set => exact ⟨_, _, rfl, .inl rfl, holds, ledFd, set⟩
  · next clear =>
    have even : k % 2 = 0 := by
      have := of_decide_eq_false (flag.symm.trans (Bool.eq_false_iff.mpr clear))
      omega
    exact ⟨_, _, rfl, .inr rfl, holds, ledFd, by rw [even]; rfl⟩

/-- `IL_003a` pushes 1, the value for an odd pass. -/
theorem block_IL_003a_at {k : Nat} {s : State} (holds : At p heap k .IL_003a s) :
    ∃ s', block p .IL_003a s = .ok (.IL_003b, s') ∧ At p heap k .IL_003b s' := by
  obtain ⟨matched, fd, set⟩ := holds
  have odd : k % 2 = 1 := of_decide_eq_true ((congrArg View.flag matched).symm.trans set)
  exact ⟨_, rfl, matched, fd, by rw [odd]; rfl⟩

/-- `IL_003b` sets the LED, flips `flag`, reads the button and goes on to `IL_005a` on a
zero reading. -/
theorem block_IL_003b_at {k : Nat} {s : State} (holds : At p heap k .IL_003b s) :
    ∃ l' s', block p .IL_003b s = .ok (l', s') ∧ (l' = .IL_005a ∨ l' = .IL_0066) ∧
      At p heap k l' s' := by
  obtain ⟨matched, fd, value⟩ := holds
  obtain ⟨ledFd, buttonFd, stored, intervals, flag, index, button, calls, trace⟩ :=
    View.mk.inj matched
  have read : (p.buttonWrite s.calls).getD s.buttonValue = reading p (k + 1) := by
    rw [calls, button]
    rfl
  have flipped : decide (s.flag = false) = decide ((k + 1) % 2 = 1) := by
    rw [Bool.decide_eq_false, flag]
    exact flag_succ k
  have called : s.trace ++ [Call.gpioSetValue s.stack0_0 s.stack1_0] ++
      [Call.gpioGetValue s.buttonFd] = startup p ++ ((after p k).trace ++
        [Call.gpioSetValue p.outputFd (Int32.ofInt ↑(k % 2)), Call.gpioGetValue p.inputFd]) := by
    rw [trace, fd, value, buttonFd, List.append_assoc, List.append_assoc]
    rfl
  have counted : s.calls + 1 = k + 1 := congrArg (· + 1) calls
  dsimp only [block]
  simp only [Int32.toBool_ceq, Int32.ofBool_eq_zero, read]
  by_cases zero : reading p (k + 1) = 0
  · rw [if_neg (by simp [zero])]
    exact ⟨_, _, rfl, .inl rfl,
      View.ext ledFd buttonFd stored intervals flipped index rfl counted called, zero⟩
  · rw [if_pos (by simp [zero])]
    have kept := index_succ p k
    rw [if_neg zero] at kept
    exact ⟨_, _, rfl, .inr rfl, View.ext ledFd buttonFd stored intervals flipped
      (by rw [← kept]; exact index) rfl counted called⟩

/-- `IL_005a` advances `blinkIntervalIndex` modulo `blinkIntervals->Length`. -/
theorem block_IL_005a_at {k : Nat} {s : State} (holds : At p heap k .IL_005a s) :
    ∃ s', block p .IL_005a s = .ok (.IL_0066, s') ∧ At p heap k .IL_0066 s' := by
  obtain ⟨matched, zero⟩ := holds
  obtain ⟨ledFd, buttonFd, stored, intervals, flag, index, button, calls, trace⟩ :=
    View.mk.inj matched
  dsimp only [polled] at index
  have advanced := index_succ p k
  rw [if_pos zero] at advanced
  obtain ⟨sum, remainder⟩ := advance_index (zeros p k % 3) (Nat.mod_lt _ (by decide))
  have length : arrayLength s.heap s.frame.blinkIntervals = .ok 3 := by
    rw [stored, intervals]
    exact arrayLength_intervals heap
  dsimp only [block]
  rw [index, sum, ok_bind, length, ok_bind, remainder, ok_bind]
  exact ⟨_, rfl, View.ext ledFd buttonFd stored intervals flag
    (by rw [← advanced]; rfl) button calls trace⟩

/-- `IL_0066` sleeps for `blinkIntervals[blinkIntervalIndex]`, which ends the pass. -/
theorem block_IL_0066_at {k : Nat} {s : State} (holds : At p heap k .IL_0066 s) :
    ∃ s', block p .IL_0066 s = .ok (.IL_0071, s') ∧ At p heap (k + 1) .IL_0071 s' := by
  obtain ⟨ledFd, buttonFd, stored, intervals, flag, index, button, calls, trace⟩ :=
    View.mk.inj holds
  dsimp only [polled] at index
  have item : arrayItem s.heap s.frame.blinkIntervals s.blinkIntervalIndex =
      .ok (declaredValue0.getD (zeros p (k + 1) % 3) 0) := by
    rw [stored, intervals, index]
    exact arrayItem_intervals heap _ (Nat.mod_lt _ (by decide))
  have called : s.trace ++ Call.sleep (declaredValue0.getD (zeros p (k + 1) % 3) 0) ::
      sleepCalls (declaredValue0.getD (zeros p (k + 1) % 3) 0) =
      startup p ++ (after p (k + 1)).trace := by
    rw [trace, trace_after_succ]
    simp only [polled, iterationCalls, List.append_assoc, List.cons_append,
      List.singleton_append, List.nil_append]
  dsimp only [block]
  rw [item, ok_bind, sleep_eq, ok_bind]
  exact ⟨_, rfl, View.ext ledFd buttonFd stored intervals flag index button calls called⟩

/-- One block of pass `k + 1`: it does not fault, and it either moves on inside the pass
to a label of lower rank or, at `IL_0066`, ends the pass. -/
theorem block_at {k : Nat} {l : Label} {s : State} (holds : At p heap k l s) :
    ∃ l' s', block p l s = .ok (l', s') ∧
      (At p heap k l' s' ∧ rank l' < rank l ∨
        l = .IL_0066 ∧ l' = .IL_0071 ∧ At p heap (k + 1) l' s') := by
  cases l with
  | IL_0071 => exact ⟨_, _, rfl, .inl ⟨holds, by decide⟩⟩
  | IL_0032 =>
    obtain ⟨l', s', moved, rfl | rfl, next⟩ := block_IL_0032_at holds <;>
      exact ⟨_, s', moved, .inl ⟨next, by decide⟩⟩
  | IL_003a =>
    obtain ⟨s', moved, next⟩ := block_IL_003a_at holds
    exact ⟨_, s', moved, .inl ⟨next, by decide⟩⟩
  | IL_003b =>
    obtain ⟨l', s', moved, rfl | rfl, next⟩ := block_IL_003b_at holds <;>
      exact ⟨_, s', moved, .inl ⟨next, by decide⟩⟩
  | IL_005a =>
    obtain ⟨s', moved, next⟩ := block_IL_005a_at holds
    exact ⟨_, s', moved, .inl ⟨next, by decide⟩⟩
  | IL_0066 =>
    obtain ⟨s', moved, next⟩ := block_IL_0066_at holds
    exact ⟨_, s', moved, .inr ⟨rfl, rfl, next⟩⟩

end Blocks

section Runs

variable {p : Platform} {heap : Heap}

/-- Running `m + n` blocks is running `m`, then `n` more. -/
theorem exec_add (m n : Nat) (current : Label × State) :
    exec p (m + n) current = exec p m current >>= exec p n := by
  induction m generalizing current with
  | zero => rw [Nat.zero_add]; rfl
  | succ m ih =>
    obtain ⟨l, s⟩ := current
    rw [Nat.succ_add, exec, exec]
    cases block p l s with
    | error e => rfl
    | ok next => exact ih next

theorem run_add (m n : Nat) : run p heap (m + n) = run p heap m >>= exec p n := by
  simp only [run, exec_add, bind_assoc]

/-- Every pass ends: from any label of pass `k + 1` Main gets to `IL_0071` at the start of
pass `k + 2`, by induction on the rank. -/
theorem pass_at {k : Nat} {l : Label} {s : State} (holds : At p heap k l s) :
    ∃ m s', exec p m (l, s) = .ok (.IL_0071, s') ∧ At p heap (k + 1) .IL_0071 s' := by
  obtain ⟨r, h⟩ : ∃ r, rank l = r := ⟨_, rfl⟩
  induction r using Nat.strong_induction_on generalizing l s with
  | _ r ih =>
    obtain ⟨l', s', moved, inside | ⟨-, rfl, ended⟩⟩ := block_at holds
    · obtain ⟨m, s'', rest, after⟩ := ih _ (h ▸ inside.2) inside.1 rfl
      exact ⟨m + 1, s'', by rw [exec, moved, ok_bind, rest], after⟩
    · exact ⟨1, s', by rw [exec, moved, ok_bind]; rfl, ended⟩

/-- After its prologue and some blocks, Main is at `IL_0071` after any number of passes. -/
theorem reach_pass (k : Nat) :
    ∃ n s, run p heap n = .ok (.IL_0071, s) ∧ At p heap k .IL_0071 s := by
  induction k with
  | zero =>
    obtain ⟨s, entered, holds⟩ := entry_at p heap
    exact ⟨0, s, by rw [run, entered, ok_bind]; rfl, holds⟩
  | succ k ih =>
    obtain ⟨n, s, reached, holds⟩ := ih
    obtain ⟨m, s', passed, ended⟩ := pass_at holds
    exact ⟨n + m, s', by rw [run_add, reached, ok_bind, passed], ended⟩

/-- Main never faults: after any number of blocks it is at some label of some pass. -/
theorem run_at (n : Nat) : ∃ k l s, run p heap n = .ok (l, s) ∧ At p heap k l s := by
  induction n with
  | zero =>
    obtain ⟨s, entered, holds⟩ := entry_at p heap
    exact ⟨0, .IL_0071, s, by rw [run, entered, ok_bind]; rfl, holds⟩
  | succ n ih =>
    obtain ⟨k, l, s, reached, holds⟩ := ih
    obtain ⟨l', s', moved, next⟩ := block_at holds
    have ran : run p heap (n + 1) = .ok (l', s') := by
      rw [run_add, reached, ok_bind, exec, moved, ok_bind]
      rfl
    rcases next with inside | ⟨-, -, ended⟩
    · exact ⟨k, l', s', ran, inside.1⟩
    · exact ⟨k + 1, l', s', ran, ended⟩

/-- At `IL_0066` the index `il2c_array_item` reads is within `blinkIntervals`, which holds
three elements. -/
theorem item_in_bounds {k : Nat} {s : State} (holds : At p heap k .IL_0066 s) :
    0 ≤ s.blinkIntervalIndex.val ∧ s.blinkIntervalIndex.val < 3 ∧
      arrayLength s.heap s.frame.blinkIntervals = .ok 3 := by
  obtain ⟨-, -, stored, intervals, -, index, -⟩ := View.mk.inj holds
  dsimp only [polled] at index
  rw [index, stored, intervals, arrayLength_intervals,
    ofInt_index_val (Nat.mod_lt _ (by decide))]
  exact ⟨by omega, by omega, rfl⟩

/-- At `IL_005a` the divisor `blinkIntervals->Length` is 3 and `blinkIntervalIndex + 1` is
in range. -/
theorem remainder_in_bounds {k : Nat} {s : State} (holds : At p heap k .IL_005a s) :
    arrayLength s.heap s.frame.blinkIntervals = .ok 3 ∧ 0 ≤ s.blinkIntervalIndex.val ∧
      s.blinkIntervalIndex.val + 1 < 2147483648 := by
  obtain ⟨-, -, stored, intervals, -, index, -⟩ := View.mk.inj holds.1
  dsimp only [polled] at index
  rw [index, stored, intervals, arrayLength_intervals,
    ofInt_index_val (Nat.mod_lt _ (by decide))]
  exact ⟨rfl, by omega, by omega⟩

end Runs

/-- Main refines the reference loop. For every board and every heap Main starts from: after
any number `k` of passes Main is back at `IL_0032`, having made the calls of the reference
loop's first `k` passes, which are `iterationCalls` of each pass; and Main never faults, with
`il2c_array_item`'s index inside `blinkIntervals` and the `%` at `IL_0062` safe. -/
theorem main_refines_reference (p : Platform) (heap : Heap) :
    (∀ k, ∃ n s r, run p heap n = .ok (.IL_0032, s) ∧ Reference.run p k = .ok r ∧
      s.trace = startup p ++ r.trace ∧ r.trace = (List.range k).flatMap (iterationCalls p)) ∧
    (∀ n, ∃ l s, run p heap n = .ok (l, s) ∧
      (l = .IL_0066 → 0 ≤ s.blinkIntervalIndex.val ∧ s.blinkIntervalIndex.val < 3 ∧
        arrayLength s.heap s.frame.blinkIntervals = .ok 3) ∧
      (l = .IL_005a → arrayLength s.heap s.frame.blinkIntervals = .ok 3 ∧
        0 ≤ s.blinkIntervalIndex.val ∧ s.blinkIntervalIndex.val + 1 < 2147483648)) := by
  constructor
  · intro k
    obtain ⟨n, s, reached, holds⟩ := @reach_pass p heap k
    obtain ⟨s', looped, same⟩ :
        ∃ s', block p .IL_0071 s = .ok (.IL_0032, s') ∧ view s' = view s := ⟨_, rfl, rfl⟩
    exact ⟨n + 1, s', after p k, by rw [run_add, reached, ok_bind, exec, looped]; rfl,
      Reference.run_after p k, congrArg View.trace (same.trans holds), rfl⟩
  · intro n
    obtain ⟨k, l, s, reached, holds⟩ := @run_at p heap n
    refine ⟨l, s, reached, ?_, ?_⟩
    · rintro rfl
      exact item_in_bounds holds
    · rintro rfl
      exact remainder_in_bounds holds

end IL2C.MT3620Blink.Refinement

import IL2C.CTypes

set_option autoImplicit false

/- The IL2C runtime services that `MT3620Blink_Program_Main` calls on arrays. Their code
is not in the sources; each definition is modelled from the spec and says where. A
reference is `Option Nat`, `none` being `NULL`, and the heap holds the `System.Int32`
arrays by address. -/
namespace IL2C.Runtime

/-- The managed heap: the elements of each `System.Int32[]` allocated so far, by address. -/
abbrev Heap := List (List Int32)

/-- Modelled from the spec: `il2c_new_array(System_Int32, length)` (§4.4
`allocateArray`): a negative length is `invalidLength`; otherwise a fresh zeroed array
of `length` elements at the next address. Out-of-memory is left out: the generated code
relies on the allocation succeeding. -/
def newArray (heap : Heap) (length : Int32) : Except Fault (Heap × Nat) :=
  if length.val < 0 then .error .invalidLength
  else .ok (heap ++ [List.replicate length.val.toNat 0], heap.length)

/-- `System_RuntimeFieldHandle`: the size in bytes and the values of a static blob. -/
structure RuntimeFieldHandle where
  size : Nat
  field : List Int32

/-- Modelled from the spec: `System_Runtime_CompilerServices_RuntimeHelpers_InitializeArray`
copies a blob into an array whose element storage it exactly fills (§4.2 boxing copies
payloads bitwise the same way); any other size is refused. -/
def initializeArray (heap : Heap) (array : Option Nat) (handle : RuntimeFieldHandle) :
    Except Fault Heap :=
  match array with
  | none => .error .nullReference
  | some address =>
    match heap[address]? with
    | none => .error .nullReference
    | some elements =>
      if handle.size = 4 * elements.length ∧ handle.field.length = elements.length then
        .ok (heap.set address handle.field)
      else .error .invalidLength

/-- Modelled from the spec: `array->Length` (§3). -/
def arrayLength (heap : Heap) (array : Option Nat) : Except Fault Nat :=
  match array with
  | none => .error .nullReference
  | some address =>
    match heap[address]? with
    | none => .error .nullReference
    | some elements => .ok elements.length

/-- Modelled from the spec: `il2c_array_item(array, int32_t, index)`, whose bounds
check fails outside `0 ≤ index < Length` (§8). -/
def arrayItem (heap : Heap) (array : Option Nat) (index : Int32) : Except Fault Int32 :=
  match array with
  | none => .error .nullReference
  | some address =>
    match heap[address]? with
    | none => .error .nullReference
    | some elements =>
      if 0 ≤ index.val then
        match elements[index.val.toNat]? with
        | some item => .ok item
        | none => .error .indexOutOfRange
      else .error .indexOutOfRange

theorem newArray_fresh (heap : Heap) (length : Int32) (nonneg : 0 ≤ length.val) :
    newArray heap length = .ok (heap ++ [List.replicate length.val.toNat 0], heap.length) := by
  rw [newArray, if_neg (by omega)]

theorem initializeArray_fills (heap : Heap) (address : Nat) (elements : List Int32)
    (handle : RuntimeFieldHandle) (stored : heap[address]? = some elements)
    (fills : handle.size = 4 * elements.length) (same : handle.field.length = elements.length) :
    initializeArray heap (some address) handle = .ok (heap.set address handle.field) := by
  simp only [initializeArray, stored, fills, same, and_self, ↓reduceIte]

theorem arrayLength_stored (heap : Heap) (address : Nat) (elements : List Int32)
    (stored : heap[address]? = some elements) :
    arrayLength heap (some address) = .ok elements.length := by
  simp only [arrayLength, stored]

theorem arrayItem_stored (heap : Heap) (address : Nat) (elements : List Int32) (index : Int32)
    (item : Int32) (stored : heap[address]? = some elements) (lower : 0 ≤ index.val)
    (found : elements[index.val.toNat]? = some item) :
    arrayItem heap (some address) index = .ok item := by
  simp only [arrayItem, stored, lower, ↓reduceIte, found]

end IL2C.Runtime

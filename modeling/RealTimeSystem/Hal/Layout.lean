import Mathlib.Algebra.Order.Ring.Int
import Mathlib.Tactic.Common

/-!
# HAL — strings, enumerations and the structures of the shared segment

The data of `hal.h` and `hal_priv.h`.  A pointer into the HAL segment is its offset from
the base, a `Nat`, and `0` is the null pointer; any other pointer is an address.  A C string
is the list of its bytes without the terminating NUL, so the end of a string sorts before every
byte.

The link fields of the structures (`next_ptr`, `links`, the list roots) are not fields of the
records here: they are the linkage of `Segment.lean`.  So are the pointer cells (`runtime` of a
function and of a thread) and the values HAL hands out the address of (`maxtime`,
`maxtime_increased`, `dummysig`), which live in two maps from addresses.
-/

namespace RTS

/-- Address in the process. -/
abbrev Addr := Nat

/-- Bytes of a C string, without the terminating NUL. -/
abbrev CStr := List UInt8

def EPERM : Int := 1
def ENOMEM : Int := 12
def EACCES : Int := 13
def EINVAL : Int := 22
def ENOSPC : Int := 28
def EALREADY : Int := 114

/-- Conversion to `int`. -/
def toInt32 (x : Int) : Int := Int.bmod x (2 ^ 32)

/-- Conversion to `long`. -/
def toInt64 (x : Int) : Int := Int.bmod x (2 ^ 64)

/-! ### Strings -/

/-- The sign of `strcmp`. -/
def strcmp : CStr → CStr → Int
  | [], [] => 0
  | [], _ :: _ => -1
  | _ :: _, [] => 1
  | a :: as, b :: bs => if a < b then -1 else if b < a then 1 else strcmp as bs

/-- What `rt_snprintf (buf, size, "%s", s)` leaves in `buf`. -/
def rt_snprintf (size : Nat) (s : CStr) : CStr := s.take (size - 1)

/-- The bytes of a string constant of the source. -/
def lit (cs : List Char) : CStr := cs.map fun c => UInt8.ofNat c.toNat

theorem byte_trichotomy (x y : UInt8) : x < y ∨ x = y ∨ y < x := by
  by_cases h : x = y
  · exact .inr (.inl h)
  · rcases UInt8.lt_or_lt_of_ne h with h | h
    · exact .inl h
    · exact .inr (.inr h)

theorem strcmp_self (a : CStr) : strcmp a a = 0 := by
  induction a with
  | nil => rfl
  | cons x xs ih => simp [strcmp, ih]

theorem strcmp_eq_zero {a b : CStr} : strcmp a b = 0 ↔ a = b := by
  induction a generalizing b with
  | nil => cases b <;> simp [strcmp]
  | cons x xs ih =>
      cases b with
      | nil => simp [strcmp]
      | cons y ys =>
          rcases byte_trichotomy x y with h | rfl | h
          · simp [strcmp, h, UInt8.ne_of_lt h]
          · simp [strcmp, ih]
          · simp [strcmp, h, (UInt8.ne_of_lt h).symm, UInt8.lt_asymm h]

/-- Swapping the arguments swaps the sign. -/
theorem strcmp_swap (a b : CStr) : strcmp b a = -strcmp a b := by
  induction a generalizing b with
  | nil => cases b <;> simp [strcmp]
  | cons x xs ih =>
      cases b with
      | nil => simp [strcmp]
      | cons y ys =>
          rcases byte_trichotomy x y with h | rfl | h
          · simp [strcmp, h, UInt8.lt_asymm h]
          · simp [strcmp, ih]
          · simp [strcmp, h, UInt8.lt_asymm h]

theorem strcmp_trans {a b c : CStr} (hab : strcmp a b < 0) (hbc : strcmp b c < 0) :
    strcmp a c < 0 := by
  induction a generalizing b c with
  | nil =>
      cases b with
      | nil => exact hbc
      | cons y ys =>
          cases c with
          | nil => simp [strcmp] at hbc
          | cons z zs => simp [strcmp]
  | cons x xs ih =>
      cases b with
      | nil => simp [strcmp] at hab
      | cons y ys =>
          cases c with
          | nil => simp [strcmp] at hbc
          | cons z zs =>
              -- the first bytes decide unless the three are equal
              rcases byte_trichotomy x y with hxy | rfl | hxy
              · rcases byte_trichotomy y z with hyz | rfl | hyz
                · simp [strcmp, UInt8.lt_trans hxy hyz]
                · simp [strcmp, hxy]
                · simp [strcmp, hyz, UInt8.lt_asymm hyz] at hbc
              · rcases byte_trichotomy x z with hyz | rfl | hyz
                · simp [strcmp, hyz]
                · simp only [strcmp, UInt8.lt_irrefl, if_false] at *
                  exact ih hab hbc
                · simp [strcmp, hyz, UInt8.lt_asymm hyz] at hbc
              · simp [strcmp, hxy, UInt8.lt_asymm hxy] at hab

/-! ### Constants and enumerations -/

def HAL_NAME_LEN : Nat := 47

/-- A name that is not too long is kept whole. -/
theorem rt_snprintf_short {name : CStr} (h : ¬ name.length > HAL_NAME_LEN) :
    rt_snprintf (HAL_NAME_LEN + 1) name = name :=
  List.take_of_length_le (Nat.not_lt.mp h)

def HAL_STACKSIZE : Int := 16384
def HAL_KEY : Int := 0x48414C32
def HAL_SIZE : Nat := 256 * 4096
def RTAPI_NAME_LEN : Nat := 31

def HAL_LOCK_NONE : UInt8 := 0
def HAL_LOCK_LOAD : UInt8 := 1
def HAL_LOCK_CONFIG : UInt8 := 2
def HAL_LOCK_PARAMS : UInt8 := 4
def HAL_LOCK_RUN : UInt8 := 8

/-- `sizeof (hal_data_t)`. -/
def HAL_DATA_SIZE : Nat := 272

/-- Offset of `hal_data->funct_entry_free`, the root of the idle function entries. -/
def FUNCT_ENTRY_FREE : Nat := 224

/-- Offset of `funct_list` in `hal_thread_t`, of `runtime` and `maxtime` there, of `runtime`,
`maxtime` and `maxtime_increased` in `hal_funct_t` and of `dummysig` in `hal_pin_t`. -/
def THREAD_FUNCT_LIST : Nat := 48
def THREAD_RUNTIME : Nat := 32
def THREAD_MAXTIME : Nat := 40
def FUNCT_RUNTIME : Nat := 48
def FUNCT_MAXTIME : Nat := 56
def FUNCT_MAXTIME_INCREASED : Nat := 60
def PIN_DUMMYSIG : Nat := 32

/-- The structures allocated in the segment.  Function entries are linked in rings, the others in
lists. -/
inductive Kind where
  | comp | pin | param | funct | thread | oldname | entry
  deriving DecidableEq, Repr

/-- `sizeof` of each structure. -/
def Kind.size : Kind → Nat
  | .comp => 104
  | .pin => 104
  | .param => 88
  | .funct => 112
  | .thread => 120
  | .oldname => 56
  | .entry => 40

/-- `hal_state_t`. -/
inductive HalState where
  | uninit | initializing | active | running | shutting_down | destroyed | error
  deriving DecidableEq, Repr

/-- `component_type_t`. -/
inductive CompType where
  | unknown | user | realtime | other
  deriving DecidableEq, Repr

/-- `hal_type_t`. -/
inductive HalType where
  | unspecified | uninitialized | bit | float | s32 | u32 | port | s64 | u64 | int32 | max
  deriving DecidableEq, Repr

/-- `hal_param_dir_t`; an argument may hold a value that is neither of the two. -/
inductive ParamDir where
  | ro | rw | other (code : Int)
  deriving DecidableEq, Repr

/-! ### Structures -/

/-- `hal_comp_t`. -/
structure Comp where
  comp_id : Int := 0
  mem_id : Int := 0
  type : CompType := .user
  ready : Int := 0
  pid : Int := 0
  shmem_base : Addr := 0
  name : CStr := []
  make : Addr := 0
  insmod_args : Nat := 0
  deriving DecidableEq

/-- `hal_pin_t`. -/
structure Pin where
  data_ptr_addr : Nat := 0
  owner_ptr : Nat := 0
  signal : Nat := 0
  oldname : Nat := 0
  type : HalType := .uninitialized
  name : CStr := []
  deriving DecidableEq

/-- `hal_param_t`. -/
structure Param where
  data_ptr : Nat := 0
  owner_ptr : Nat := 0
  oldname : Nat := 0
  type : HalType := .uninitialized
  dir : ParamDir := .other 0
  name : CStr := []
  deriving DecidableEq

/-- `hal_funct_t`. -/
structure Funct where
  uses_fp : Int := 0
  owner_ptr : Nat := 0
  reentrant : Int := 0
  users : Int := 0
  arg : Addr := 0
  funct : Addr := 0
  name : CStr := []
  deriving DecidableEq

/-- `hal_thread_t`. -/
structure Thread where
  uses_fp : Int := 0
  period : Int := 0
  priority : Int := 0
  task_id : Int := 0
  name : CStr := []
  comp_id : Int := 0
  deriving DecidableEq

/-- `hal_funct_entry_t`. -/
structure Entry where
  arg : Addr := 0
  funct : Addr := 0
  funct_ptr : Nat := 0
  deriving DecidableEq

end RTS

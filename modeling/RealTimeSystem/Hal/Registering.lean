import RealTimeSystem.Hal.Program

/-!
# HAL — components and what they register

The operations of `hal_lib.c` on components, pins, parameters and functions, one definition for
each function, in the order of the source.  Every call on the mutex stands where the source has
it, on each path.

Printed messages are left out.  A name is a C string; where the source tests for a null pointer
it is an `Option`.  A formatted name is the whole text that the format expands to.
-/

namespace RTS.Hal

variable {σ : Type} (R : Rtapi σ)

/-! ### Components -/

/-- `init_hal_data`: the pin lists and `shmem_avail` are not reset. -/
def init_hal_data : Prog σ Int := do
  rtapi_mutex_get
  change fun m =>
    let a := m.arena
    let pool : Kind → Support.Pool := fun k =>
      match k with
      | .pin => a.pool .pin
      | .oldname => { a.pool .oldname with free_ptr := 0 }
      | k => { a.pool k with list_ptr := 0, free_ptr := 0 }
    { m with
      arena := { a with pool := pool, brk := a.brk.init }.list_init_entry FUNCT_ENTRY_FREE
      base_period := 0, threads_running := 0, pending_constructor := 0, constructor_prefix := []
      exact_base_period := 0, lock := HAL_LOCK_NONE, state := .active }
  let pid ← call R.getpid
  change fun m => { m with init_pid := pid, error_code := 0 }
  rtapi_mutex_give
  return 0

/-- The block of `hal_init` under `if (!lib_mem_id)`. -/
def hal_init_lib : Prog σ Int := do
  let s ← get
  if s.hal_data ≠ 0 ∧ s.shm.state = .destroyed then
    return -EINVAL
  let pid ← call R.getpid
  let id ← call (R.init (rt_snprintf RTAPI_NAME_LEN
    (lit ['H', 'A', 'L', '_', 'L', 'I', 'B', '_'] ++ lit (toString pid).toList)))
  modify fun s => { s with lib_module_id := id }
  if id < 0 then
    return -EINVAL
  let mem_id ← call (R.shmem_new HAL_KEY id HAL_SIZE)
  modify fun s => { s with lib_mem_id := mem_id }
  if mem_id < 0 then
    let _ ← call (R.exit id)
    return -EINVAL
  let (retval, mem) ← call (R.shmem_getptr mem_id)
  if retval < 0 then
    let _ ← call (R.exit id)
    return -EINVAL
  modify fun s => { s with hal_shmem_base := mem, hal_data := mem }
  let retval ← init_hal_data R
  if retval ≠ 0 then
    let _ ← call (R.exit id)
    return -EINVAL
  return 0

/-- The name `hal_init` gives to RTAPI. -/
def rtapi_name (name : CStr) : CStr :=
  rt_snprintf RTAPI_NAME_LEN (lit ['H', 'A', 'L', '_'] ++ name)

/-- The rest of `hal_init`: `comp->name` keeps the empty name the allocator gave it. -/
def hal_init_comp (name : CStr) : Prog σ Int := do
  let hal_name := rt_snprintf (HAL_NAME_LEN + 1) name
  let comp_id ← call (R.init (rtapi_name name))
  if comp_id < 0 then
    return -EINVAL
  rtapi_mutex_get
  let dup ← walk fun m => m.halpr_find_comp_by_name hal_name
  if dup ≠ 0 then
    rtapi_mutex_give
    let _ ← call (R.exit comp_id)
    return -EINVAL
  let comp ← take Segment.halpr_alloc_comp_struct
  if comp = 0 then
    rtapi_mutex_give
    let _ ← call (R.exit comp_id)
    return -ENOMEM
  let s ← get
  change fun m => m.setComp comp { m.comp comp with
    comp_id := comp_id, type := .realtime, pid := 0, ready := 0, shmem_base := s.hal_shmem_base,
    insmod_args := 0 }
  change fun m => m.insert_head .comp comp
  rtapi_mutex_give
  change fun m => m.setComp comp { m.comp comp with type := .realtime, pid := 0 }
  modify fun s => { s with ref_cnt := s.ref_cnt + 1 }
  return comp_id

def hal_init (name : Option CStr) : Prog σ Int := do
  match name with
  | none => return -EINVAL
  | some name =>
      if name.length > HAL_NAME_LEN then
        return -EINVAL
      let s ← get
      if s.lib_mem_id = 0 then
        let retval ← hal_init_lib R
        if retval ≠ 0 then
          return retval
        else
          hal_init_comp R name
      else
        hal_init_comp R name

def hal_exit (comp_id : Int) : Prog σ Int := do
  let s ← get
  if s.hal_data = 0 then
    return -EINVAL
  if s.shm.state = .destroyed then
    return -EALREADY
  rtapi_mutex_get
  let prev ← walk fun m =>
    (m.arena.pool .comp).seek (fun x => (m.comp x).comp_id = comp_id) FUEL .root
  let comp ← look fun m => (m.arena.pool .comp).deref prev
  if comp = 0 then
    rtapi_mutex_give
    return -EINVAL
  change fun m => m.unlink .comp prev comp
  walkTo fun m => (m.free_comp_struct comp).map ((), ·)
  rtapi_mutex_give
  modify fun s => { s with ref_cnt := s.ref_cnt - 1 }
  let _ ← call (R.exit comp_id)
  return 0

/-- The offset of the block; `none` is the null pointer. -/
def hal_malloc (size : Int) : Prog σ (Option Int) := do
  let s ← get
  if s.hal_data = 0 then
    return none
  rtapi_mutex_get
  let retval ← take fun m =>
    let r := shmalloc_up m.arena.brk size
    (r.1, m.onArena fun a => { a with brk := r.2 })
  rtapi_mutex_give
  return retval

def hal_set_constructor (comp_id : Int) (make : Addr) : Prog σ Int := do
  rtapi_mutex_get
  let comp ← walk fun m => m.halpr_find_comp_by_id comp_id
  if comp = 0 then
    rtapi_mutex_give
    return -EINVAL
  change fun m => m.setComp comp { m.comp comp with make := make }
  rtapi_mutex_give
  return 0

def hal_set_unready (comp_id : Int) : Prog σ Int := do
  rtapi_mutex_get
  let comp ← walk fun m => m.halpr_find_comp_by_id comp_id
  if comp ≠ 0 then
    change fun m => m.setComp comp { m.comp comp with ready := 0 }
    rtapi_mutex_give
    return 0
  else
    rtapi_mutex_give
    return -EINVAL

def hal_ready (comp_id : Int) : Prog σ Int := do
  rtapi_mutex_get
  let comp ← walk fun m => m.halpr_find_comp_by_id comp_id
  if comp = 0 then
    rtapi_mutex_give
    return -EINVAL
  let ready ← look fun m => (m.comp comp).ready
  if ready > 0 then
    rtapi_mutex_give
    return -EINVAL
  change fun m => m.setComp comp { m.comp comp with ready := 1 }
  rtapi_mutex_give
  return 0

def hal_unready (comp_id : Int) : Prog σ Int := do
  rtapi_mutex_get
  let comp ← walk fun m => m.halpr_find_comp_by_id comp_id
  if comp = 0 then
    rtapi_mutex_give
    return -EINVAL
  let ready ← look fun m => (m.comp comp).ready
  if ready < 1 then
    rtapi_mutex_give
    return -EINVAL
  change fun m => m.setComp comp { m.comp comp with ready := 0 }
  rtapi_mutex_give
  return 0

/-- The string the result points at. -/
def hal_comp_name (comp_id : Int) : Prog σ (Option CStr) := do
  rtapi_mutex_get
  let comp ← walk fun m => m.halpr_find_comp_by_id comp_id
  let result ← look fun m => if comp ≠ 0 then some (m.comp comp).name else none
  rtapi_mutex_give
  return result

/-! ### Locking -/

def hal_set_lock (lock_type : UInt8) : Prog σ Int := do
  let s ← get
  if s.hal_data = 0 then
    return -EINVAL
  change fun m => { m with lock := lock_type }
  return 0

/-- The error code is returned as an `unsigned char`. -/
def hal_get_lock : Prog σ UInt8 := do
  let s ← get
  if s.hal_data = 0 then
    return UInt8.ofInt (-EINVAL)
  return s.shm.lock

/-! ### Pins and parameters -/

/-- The end of `hal_pin_new`, `hal_param_new` and the first half of `hal_export_funct`: insert the
new structure, or free it when its name is taken; then give the mutex. -/
def insert_new (k : Kind) (names : Segment → Nat → CStr) (free : Segment → Nat → Option Segment)
    (new : Nat) : Prog σ Bool := do
  let inserted ← walkTo fun m => m.insert_sorted k (names m) new
  if inserted then
    rtapi_mutex_give
    return true
  else
    walkTo fun m => (free m new).map ((), ·)
    rtapi_mutex_give
    return false

/-- The part of `hal_pin_new` and `hal_param_new` under the mutex. -/
def register_new (k : Kind) (names : Segment → Nat → CStr) (alloc : Segment → Nat × Segment)
    (fill : Nat → Nat → Segment → Segment) (free : Segment → Nat → Option Segment) (addr : Addr)
    (comp_id : Int) : Prog σ Int := do
  let s ← get
  rtapi_mutex_get
  let comp ← walk fun m => m.halpr_find_comp_by_id comp_id
  if comp = 0 then
    rtapi_mutex_give
    return -EINVAL
  if ¬ SHMCHK s.hal_shmem_base addr then
    rtapi_mutex_give
    return -EINVAL
  let ready ← look fun m => (m.comp comp).ready
  if ready ≠ 0 then
    rtapi_mutex_give
    return -EINVAL
  let new ← take alloc
  if new = 0 then
    rtapi_mutex_give
    return -ENOMEM
  change (fill comp new)
  let inserted ← insert_new k names free new
  if inserted then
    return 0
  else
    return -EINVAL

/-- The new parameter of `hal_param_new`. -/
def Segment.fill_param (base : Addr) (name : CStr) (type : HalType) (dir : ParamDir)
    (data_addr : Addr) (comp new : Nat) (m : Segment) : Segment :=
  m.setParam new { m.param new with
    owner_ptr := comp, data_ptr := data_addr - base, type := type, dir := dir
    name := rt_snprintf (HAL_NAME_LEN + 1) name }

def hal_param_new (name : CStr) (type : HalType) (dir : ParamDir) (data_addr : Addr)
    (comp_id : Int) : Prog σ Int := do
  let s ← get
  if s.hal_data = 0 then
    return -EINVAL
  if type ≠ .bit ∧ type ≠ .float ∧ type ≠ .s32 ∧ type ≠ .u32 ∧ type ≠ .s64 ∧ type ≠ .u64 then
    return -EINVAL
  if dir ≠ .ro ∧ dir ≠ .rw then
    return -EINVAL
  if name.length > HAL_NAME_LEN then
    return -EINVAL
  if s.shm.lock &&& HAL_LOCK_LOAD ≠ 0 then
    return -EPERM
  register_new .param (fun m x => (m.param x).name) Segment.alloc_param_struct
    (Segment.fill_param s.hal_shmem_base name type dir data_addr)
    (fun m x => some (m.free_param_struct x)) data_addr comp_id

def hal_param_bit_new (name : CStr) (dir : ParamDir) (type : HalType) (data_addr : Addr)
    (comp_id : Int) : Prog σ Int :=
  hal_param_new name type dir data_addr comp_id

def hal_param_s32_new (name : CStr) (dir : ParamDir) (type : HalType) (data_addr : Addr)
    (comp_id : Int) : Prog σ Int :=
  hal_param_new name type dir data_addr comp_id

/-- The new pin of `hal_pin_new`; `data_ptr_addr` is made to point at its dummy signal. -/
def Segment.fill_pin (base : Addr) (name : CStr) (type : HalType) (data_ptr_addr : Addr)
    (comp new : Nat) (m : Segment) : Segment :=
  ((m.setPin new { m.pin new with
      data_ptr_addr := data_ptr_addr - base, owner_ptr := comp, type := type, signal := 0
      name := rt_snprintf (HAL_NAME_LEN + 1) name }).setData (base + new + PIN_DUMMYSIG) 0).setCell
    (data_ptr_addr - base) ((m.comp comp).shmem_base + (new + PIN_DUMMYSIG))

/-- `data_ptr_addr` is the address of a pointer cell, which is read at once and written when it is
known to be in the segment. -/
def hal_pin_new (name : CStr) (type : HalType) (data_ptr_addr : Addr) (comp_id : Int) :
    Prog σ Int := do
  let s ← get
  if s.hal_data = 0 then
    return -EINVAL
  -- the source tells of a cell that is not null, and goes on
  load data_ptr_addr
  if type ≠ .bit ∧ type ≠ .float ∧ type ≠ .s32 ∧ type ≠ .u32 ∧ type ≠ .s64 ∧ type ≠ .u64 ∧
      type ≠ .port then
    return -EINVAL
  if name.length > HAL_NAME_LEN then
    return -EINVAL
  if s.shm.lock &&& HAL_LOCK_LOAD ≠ 0 then
    return -EPERM
  register_new .pin (fun m x => (m.pin x).name) Segment.alloc_pin_struct
    (Segment.fill_pin s.hal_shmem_base name type data_ptr_addr)
    (fun m x => some (m.free_pin_struct s.hal_shmem_base x)) data_ptr_addr comp_id

/-- `hal_pin_newfv` of a format that expands to `full`; the source keeps 47 bytes and refuses a
longer name. -/
def hal_pin_newfv (type : HalType) (data_ptr_addr : Addr) (comp_id : Int) (full : CStr) :
    Prog σ Int :=
  if full.length > HAL_NAME_LEN then
    return -ENOMEM
  else
    hal_pin_new (rt_snprintf (HAL_NAME_LEN + 1) full) type data_ptr_addr comp_id

def hal_pin_newf (type : HalType) (data_ptr_addr : Addr) (comp_id : Int) (full : CStr) :
    Prog σ Int :=
  hal_pin_newfv type data_ptr_addr comp_id full

/-! ### Functions -/

def dotTime : CStr := lit ['.', 't', 'i', 'm', 'e']

def dotTmax : CStr := lit ['.', 't', 'm', 'a', 'x']

def dotTmaxIncreased : CStr :=
  lit ['.', 't', 'm', 'a', 'x', '-', 'i', 'n', 'c', 'r', 'e', 'a', 's', 'e', 'd']

/-- `*p = v` for the pointer in a cell of the segment. -/
def storeThrough (c : Nat) (v : Int) : Prog σ Unit := do
  let p ← look fun m => m.cell c
  store p v

/-- The end of `hal_export_funct`, without the mutex: the pin and the two parameters of the
function `new`. -/
def export_funct_pins (name : CStr) (new : Nat) (comp_id : Int) : Prog σ Int := do
  let s ← get
  let retval ← hal_pin_newf .s32 (s.hal_shmem_base + (new + FUNCT_RUNTIME)) comp_id (name ++ dotTime)
  if retval ≠ 0 then
    return -EINVAL
  storeThrough (new + FUNCT_RUNTIME) 0
  change fun m => m.setData (s.hal_shmem_base + (new + FUNCT_MAXTIME)) 0
  let _ ← hal_param_s32_new (rt_snprintf (HAL_NAME_LEN + 1) (name ++ dotTmax)) .rw .s32
    (s.hal_shmem_base + (new + FUNCT_MAXTIME)) comp_id
  change fun m => m.setData (s.hal_shmem_base + (new + FUNCT_MAXTIME_INCREASED)) 0
  let _ ← hal_param_bit_new (rt_snprintf (HAL_NAME_LEN + 1) (name ++ dotTmaxIncreased)) .ro .bit
    (s.hal_shmem_base + (new + FUNCT_MAXTIME_INCREASED)) comp_id
  return 0

/-- The part of `hal_export_funct` under the mutex: an error, or the listed function. -/
def export_funct_new (name : CStr) (funct arg : Addr) (uses_fp reentrant comp_id : Int) :
    Prog σ (Except Int Nat) := do
  rtapi_mutex_get
  let comp ← walk fun m => m.halpr_find_comp_by_id comp_id
  if comp = 0 then
    rtapi_mutex_give
    return .error (-EINVAL)
  let type ← look fun m => (m.comp comp).type
  if type = .user then
    rtapi_mutex_give
    return .error (-EINVAL)
  let ready ← look fun m => (m.comp comp).ready
  if ready ≠ 0 then
    rtapi_mutex_give
    return .error (-EINVAL)
  let new ← take Segment.alloc_funct_struct
  if new = 0 then
    rtapi_mutex_give
    return .error (-ENOMEM)
  change fun m => m.setFunct new
    { uses_fp := uses_fp, owner_ptr := comp, reentrant := reentrant, users := 0, arg := arg
      funct := funct, name := rt_snprintf (HAL_NAME_LEN + 1) name }
  let inserted ← insert_new .funct (fun m x => (m.funct x).name) Segment.free_funct_struct new
  if inserted then
    return .ok new
  else
    return .error (-EINVAL)

def hal_export_funct (name : CStr) (funct arg : Addr) (uses_fp reentrant comp_id : Int) :
    Prog σ Int := do
  let s ← get
  if s.hal_data = 0 then
    return -EINVAL
  if name.length > HAL_NAME_LEN then
    return -EINVAL
  if s.shm.lock &&& HAL_LOCK_LOAD ≠ 0 then
    return -EPERM
  let made ← export_funct_new name funct arg uses_fp reentrant comp_id
  match made with
  | .error e => return e
  | .ok new => export_funct_pins name new comp_id

/-- What `hal_export_functfv` finds on the stack: `sz`, and the bytes from `name` on up to the first
NUL. -/
structure Garbage where
  sz : Int
  name : CStr
  deriving DecidableEq

/-- The format is never expanded: neither of the two variables is set. -/
def hal_export_functfv (stack : Garbage) (funct arg : Addr) (uses_fp reentrant comp_id : Int)
    (_full : CStr) : Prog σ Int :=
  if stack.sz = -1 ∨ stack.sz > HAL_NAME_LEN then
    return -ENOMEM
  else
    hal_export_funct stack.name funct arg uses_fp reentrant comp_id

def hal_export_functf (stack : Garbage) (funct arg : Addr) (uses_fp reentrant comp_id : Int)
    (full : CStr) : Prog σ Int :=
  hal_export_functfv stack funct arg uses_fp reentrant comp_id full

end RTS.Hal

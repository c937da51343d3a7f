import RealTimeSystem.Hal.Layout
import RealTimeSystem.Support.Interact
import Mathlib.Logic.Function.Basic

/-!
# RTAPI — a process and its shared memory handles

The data of `uspace_common.h` and `rtapi_uspace.h` that one process holds, the system calls it
makes, and the functions of `uspace_common.c` on shared memory.

A system call is a question (`Call`), and its result is any answer of its type: a failed call has a
positive `errno`, and a mapping is not at address 0.  `sched_yield`, `sysconf` and the reads that
touch the pages of a new mapping have no effect here and are left out, as are the messages.
-/

namespace RTS.Uspace

open RTS.Support

/-! ### System calls -/

/-- The `errno` of a call that failed. -/
structure Errno where
  val : Int
  pos : 0 < val

/-- Where a segment was mapped, and the counter it holds should it be the one of `rtapi_init`. -/
structure Mapping where
  addr : Addr
  ne : addr ≠ 0
  uuid : Int

/-- The calls of the pthread library in `task_start`, in their order. -/
inductive Attr where
  | init | setstacksize | setschedpolicy | setschedparam | setinheritsched | setaffinity
  deriving DecidableEq

/-- System and library calls. -/
inductive Call where
  | getpid
  | geteuid
  | shmget (key : Int) (size : Int)
  /-- `shmctl (id, IPC_STAT, …)` -/
  | shm_stat (id : Int)
  /-- `shmctl (id, IPC_SET, …)` -/
  | shm_set (id : Int)
  /-- `shmctl (id, IPC_RMID, …)` -/
  | shm_rmid (id : Int)
  | shmat (id : Int)
  | shmdt (mem : Addr)
  | sched_get_priority_max
  | sched_get_priority_min
  /-- `sysconf (_SC_NPROCESSORS_ONLN)` and `find_rt_cpu_number`: whether a CPU is to be chosen -/
  | rt_cpu
  | pthread_attr (attr : Attr)
  | pthread_create (task : Nat)
  | pthread_cancel (task : Nat)
  | pthread_join (task : Nat)
  | clock_gettime

/-- The results of a call; `none` is the result 0 of a library call. -/
abbrev Call.Answer : Call → Type
  | .getpid => Int
  | .geteuid => Nat
  | .shmget _ _ => Except Errno Nat
  | .shm_stat _ => Except Errno Nat
  | .shm_set _ => Except Errno Unit
  | .shm_rmid _ => Except Errno Unit
  | .shmat _ => Except Errno Mapping
  | .shmdt _ => Except Errno Unit
  | .sched_get_priority_max => Int
  | .sched_get_priority_min => Int
  | .rt_cpu => Bool
  | .pthread_attr _ => Option Errno
  | .pthread_create _ => Option Errno
  | .pthread_cancel _ => Unit
  | .pthread_join _ => Unit
  | .clock_gettime => Int

/-! ### The data of a process -/

def MAX_SHM : Nat := 64
def SHMEM_MAGIC : Int := 25453
def UUID_KEY : Int := 0x48484c34
def UUID_SIZE : Nat := 16
def MAX_TASKS : Nat := 64
def TASK_MAGIC : Int := 21979

/-- `SHMEM_S_…` -/
inductive ShmState where
  | unborn | created | attached | active | detached | destroyed | error
  deriving DecidableEq

/-- `rtapi_shmem_handle`, zero-filled by default. -/
structure Handle where
  magic : Int := 0
  key : Int := 0
  id : Int := 0
  count : Int := 0
  size : Nat := 0
  mem : Addr := 0
  state : ShmState := .unborn
  owner_pid : Int := 0
  error_code : Int := 0

/-- `TASK_S_…` -/
inductive TaskState where
  | empty | init | allocated | running | paused | deleted
  deriving DecidableEq

/-- `PosixTask`; the two semaphores are their numbers of tokens. -/
structure Task where
  magic : Int
  id : Int
  owner : Int
  uses_fp : Int
  stacksize : Nat
  prio : Int
  period : Int := 0
  pll_correction : Int := 0
  pll_correction_limit : Int := 0
  arg : Addr
  state : TaskState
  owner_pid : Int
  error_code : Int
  pause_sem : Nat := 0
  resume_sem : Nat := 0

/-- The static data of a process, zero-filled by default. -/
structure Process where
  shmem_array : Nat → Handle := fun _ => {}
  uuid_mem_id : Int := 0
  /-- `uuid_data`, and `uuid_shmem_base`, which is set together with it -/
  uuid_data : Addr := 0
  /-- the counters in memory, by the address of their mapping -/
  uuid : Addr → Int := fun _ => 0
  task_array : Nat → Option Task := fun _ => none
  /-- `App ().period` -/
  period : Int := 0

/-- Programs of a process. -/
abbrev Sys := Ask Process Call Call.Answer

def Process.setSlot (s : Process) (i : Nat) (h : Handle) : Process :=
  { s with shmem_array := Function.update s.shmem_array i h }

@[simp] theorem Process.setSlot_self (s : Process) (i : Nat) (h : Handle) :
    (s.setSlot i h).shmem_array i = h := Function.update_self ..

theorem Process.setSlot_of_ne (s : Process) {i j : Nat} (hj : j ≠ i) (h : Handle) :
    (s.setSlot i h).shmem_array j = s.shmem_array j := Function.update_of_ne hj _ _

@[simp] theorem Process.setSlot_setSlot (s : Process) (i : Nat) (h h' : Handle) :
    (s.setSlot i h).setSlot i h' = s.setSlot i h' := by
  simp [Process.setSlot]

/-- Write fields of a slot. -/
def onSlot (i : Nat) (f : Handle → Handle) : Sys Unit :=
  modify fun s => s.setSlot i (f (s.shmem_array i))

/-! ### `rtapi_shmem_new` -/

/-- The walk over the handles: the slot of `key`, else the first free slot. -/
def scan (t : Nat → Handle) (key : Int) : Nat → Nat → Option Nat → Sum Nat (Option Nat)
  | 0, _, shmem => .inr shmem
  | n + 1, i, shmem =>
      if (t i).magic = SHMEM_MAGIC then
        if (t i).key = key then .inl i else scan t key n (i + 1) shmem
      else scan t key n (i + 1) (shmem.or (some i))

/-- `shmget_again`: a call that failed with `EPERM` is repeated. -/
def shmget_again (key size : Int) : Nat → Sys (Except Errno Nat)
  | 0 => ask (Call.shmget key size)
  | n + 1 => do
      let r : Except Errno Nat ← ask (Call.shmget key size)
      match r with
      | .ok id => return .ok id
      | .error e => if e.val = EPERM then shmget_again key size n else return .error e

/-- The end of `rtapi_shmem_new`: the segment `id` is mapped, and the slot `i` becomes valid. -/
def shmem_attach (i : Nat) (key : Int) (size id : Nat) : Sys Int := do
  let r : Except Errno Mapping ← ask (Call.shmat id)
  match r with
  | .error e =>
      onSlot i fun h => { h with error_code := e.val }
      let _ ← ask (Call.shm_rmid id)
      onSlot i fun h => { h with state := .error, id := -1, mem := 0 }
      return -e.val
  | .ok m =>
      modify fun s => { s with uuid := Function.update s.uuid m.addr m.uuid }
      onSlot i fun h => { h with mem := m.addr, state := .attached }
      onSlot i fun h => { h with
        magic := SHMEM_MAGIC, size := size, key := key, count := 1, state := .active }
      return i

/-- `rtapi_shmem_new` on the free slot `i`. -/
def shmem_create (i : Nat) (key : Int) (size : Nat) : Sys Int := do
  let pid : Int ← ask Call.getpid
  onSlot i fun h => { h with owner_pid := pid, error_code := 0 }
  let r ← shmget_again key (toInt32 size) 5
  match r with
  | .error e =>
      onSlot i fun h => { h with id := -1, error_code := e.val }
      return -e.val
  | .ok id =>
      onSlot i fun h => { h with id := id, state := .created }
      let _ ← ask (Call.shm_stat id)
      let euid : Nat ← ask Call.geteuid
      if euid = 0 then
        let _ ← ask (Call.shm_set id)
      shmem_attach i key size id

def rtapi_shmem_new (key _module_id : Int) (size : Nat) : Sys Int := do
  if key = 0 then
    return -EINVAL
  if size = 0 then
    return -EINVAL
  let s ← get
  match scan s.shmem_array key MAX_SHM 0 none with
  | .inl i =>
      onSlot i fun h => { h with count := toInt32 (h.count + 1) }
      return i
  | .inr none => return -ENOMEM
  | .inr (some i) => shmem_create i key size

/-! ### The other functions on handles -/

/-- The result and `*ptr`. -/
def rtapi_shmem_getptr (handle : Int) : Sys (Int × Addr) := do
  if handle < 0 ∨ handle ≥ MAX_SHM then
    return (-EINVAL, 0)
  let s ← get
  let shmem := s.shmem_array handle.toNat
  if shmem.magic ≠ SHMEM_MAGIC then
    return (-EINVAL, 0)
  if shmem.state ≠ .active ∧ shmem.state ≠ .attached then
    return (-EACCES, 0)
  return (0, shmem.mem)

/-- Detaching a mapping that no reference is left to; the result is `r1`. -/
def shmem_detach (i : Nat) : Sys Int := do
  let s ← get
  if (s.shmem_array i).state = .active ∨ (s.shmem_array i).state = .attached then
    let r : Except Errno Unit ← ask (Call.shmdt (s.shmem_array i).mem)
    match r with
    | .ok _ =>
        onSlot i fun h => { h with state := .detached, mem := 0 }
        return 0
    | .error e =>
        onSlot i fun h => { h with error_code := e.val, state := .detached, mem := 0 }
        return -1
  else
    return 0

/-- Marking the segment for removal when nobody is attached; the result is `r2`. -/
def shmem_destroy (i : Nat) : Sys Int := do
  let s ← get
  let d : Except Errno Nat ← ask (Call.shm_stat (s.shmem_array i).id)
  match d with
  | .error e =>
      onSlot i fun h => { h with error_code := e.val }
      return -1
  | .ok nattch =>
      if nattch = 0 then
        let r : Except Errno Unit ← ask (Call.shm_rmid (s.shmem_array i).id)
        match r with
        | .ok _ =>
            onSlot i fun h => { h with state := .destroyed }
            return 0
        | .error e =>
            onSlot i fun h => { h with error_code := e.val, state := .destroyed }
            return -1
      else
        return 0

def rtapi_shmem_delete (handle _module_id : Int) : Sys Int := do
  if handle < 0 ∨ handle ≥ MAX_SHM then
    return -EINVAL
  let s ← get
  let shmem := s.shmem_array handle.toNat
  if shmem.magic ≠ SHMEM_MAGIC then
    return -EINVAL
  let count := toInt32 (shmem.count - 1)
  onSlot handle.toNat fun h => { h with count := count }
  if count > 0 then
    return 0
  let r1 ← shmem_detach handle.toNat
  let r2 ← shmem_destroy handle.toNat
  onSlot handle.toNat fun h => { h with magic := 0 }
  if r1 ≠ 0 ∨ r2 ≠ 0 then
    return -EINVAL
  return 0

/-! ### `rtapi_init` and `rtapi_exit` -/

def rtapi_exit (module_id : Int) : Sys Int := do
  let s ← get
  let _ ← rtapi_shmem_delete s.uuid_mem_id module_id
  return 0

/-- The mutex of the counter is free: it is held for three statements only. -/
def rtapi_init (_modname : CStr) : Sys Int := do
  let id ← rtapi_shmem_new UUID_KEY 0 UUID_SIZE
  modify fun s => { s with uuid_mem_id := id }
  if id < 0 then
    let _ ← rtapi_exit 0
    return -EINVAL
  let p ← rtapi_shmem_getptr id
  if p.1 < 0 then
    let _ ← rtapi_exit 0
    return -EINVAL
  modify fun s => if s.uuid_data = 0 then { s with uuid_data := p.2 } else s
  modify fun s => { s with
    uuid := Function.update s.uuid s.uuid_data (toInt32 (s.uuid s.uuid_data + 1)) }
  let s ← get
  return s.uuid s.uuid_data

end RTS.Uspace

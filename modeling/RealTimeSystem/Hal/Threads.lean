import RealTimeSystem.Hal.Registering

/-!
# HAL — threads, their functions, and the life of the segment

The operations of `hal_lib.c` on threads, the start and end of HAL, the statistics, and one cycle
of `thread_task`.

`hal_create_thread` is the sequence of its two parts: with the mutex, up to the insertion in the
thread list (`create_thread_task`), and without it, the pseudo component of the thread and what
that registers (`create_thread_comp`).
-/

namespace RTS.Hal

open RTS.Support

variable {σ : Type} (R : Rtapi σ)

/-! ### Creating and deleting threads -/

def free_thread_struct (thread : Nat) : Prog σ Unit := do
  change fun m => { m with threads_running := 0 }
  let task_id ← look fun m => (m.thread thread).task_id
  let _ ← rtapi_task_pause R task_id
  let _ ← rtapi_task_delete R task_id
  walkTo fun m => (m.clear_thread thread).map ((), ·)

/-- The period test of `hal_create_thread` when there is no thread yet. -/
def create_thread_clock (period_nsec : Nat) : Prog σ Bool := do
  let curr ← call (R.clock_set_period 0)
  if curr = 0 then
    let curr ← call (R.clock_set_period (toInt64 period_nsec))
    if curr < 0 then
      return false
    else
      return ¬ curr > toInt64 (period_nsec + period_nsec / 100 : Nat)
  else
    return ¬ curr > toInt64 (period_nsec + period_nsec / 100 : Nat)

/-- From the task of the new thread to its insertion; `none` when the thread was rolled back. -/
def create_thread_insert (new : Nat) (period_nsec : Nat) (uses_fp priority : Int) :
    Prog σ (Option Nat) := do
  let s ← get
  change fun m => m.setThread new { m.thread new with
    period := toInt64 period_nsec, priority := priority }
  let retval ← call
    (R.task_new (s.hal_shmem_base + new) priority s.lib_module_id HAL_STACKSIZE uses_fp)
  if retval < 0 then
    free_thread_struct R new
    rtapi_mutex_give
    return none
  change fun m => m.setThread new { m.thread new with task_id := retval }
  let retval' ← call (R.task_start retval (toInt64 period_nsec))
  if retval' < 0 then
    let _ ← rtapi_task_delete R retval
    free_thread_struct R new
    rtapi_mutex_give
    return none
  change fun m => m.insert_head .thread new
  rtapi_mutex_give
  return some new

/-- The part of `hal_create_thread` under the mutex: an error, or the listed thread. -/
def create_thread_task (name : CStr) (period_nsec : Nat) (uses_fp priority : Int) :
    Prog σ (Except Int Nat) := do
  rtapi_mutex_get
  let dup ← walk fun m => m.halpr_find_thread_by_name name
  if dup ≠ 0 then
    rtapi_mutex_give
    return .error (-EINVAL)
  let new ← take Segment.alloc_thread_struct
  if new = 0 then
    rtapi_mutex_give
    return .error (-ENOMEM)
  change fun m => m.setThread new { m.thread new with
    uses_fp := uses_fp, name := rt_snprintf (HAL_NAME_LEN + 1) name }
  let first ← look fun m => (m.arena.pool .thread).list_ptr
  if first = 0 then
    let fits ← create_thread_clock R period_nsec
    if fits then
      let listed ← create_thread_insert R new period_nsec uses_fp priority
      return listed.elim (.error (-EINVAL)) .ok
    else
      free_thread_struct R new
      rtapi_mutex_give
      return .error (-EINVAL)
  else
    let listed ← create_thread_insert R new period_nsec uses_fp priority
    return listed.elim (.error (-EINVAL)) .ok

/-- The rest of `hal_create_thread`, on the listed thread `new`. -/
def create_thread_comp (new : Nat) : Prog σ Int := do
  let s ← get
  let name := (s.shm.thread new).name
  let comp_id ← hal_init R (some (rt_snprintf (HAL_NAME_LEN + 1) (lit ['_', '_'] ++ name)))
  change fun m => m.setThread new { m.thread new with comp_id := comp_id }
  if comp_id < 0 then
    return -EINVAL
  change fun m => m.setData (s.hal_shmem_base + (new + THREAD_MAXTIME)) 0
  let retval ← hal_param_s32_new (rt_snprintf (HAL_NAME_LEN + 1) (name ++ dotTmax)) .rw .s32
    (s.hal_shmem_base + (new + THREAD_MAXTIME)) comp_id
  if retval ≠ 0 then
    return -EINVAL
  let retval ← hal_pin_newf .s32 (s.hal_shmem_base + (new + THREAD_RUNTIME)) comp_id (name ++ dotTime)
  if retval ≠ 0 then
    return -EINVAL
  storeThrough (new + THREAD_RUNTIME) 0
  let _ ← hal_ready comp_id
  return comp_id

def hal_create_thread (name : CStr) (period_nsec : Nat) (uses_fp priority : Int) :
    Prog σ Int := do
  let s ← get
  if s.hal_data = 0 then
    return -EINVAL
  if period_nsec = 0 then
    return -EINVAL
  if name.length > HAL_NAME_LEN then
    return -EINVAL
  if s.shm.lock &&& HAL_LOCK_CONFIG ≠ 0 then
    return -EPERM
  let made ← create_thread_task R name period_nsec uses_fp priority
  match made with
  | .error e => return e
  | .ok new => create_thread_comp R new

def hal_thread_delete (name : CStr) : Prog σ Int := do
  let s ← get
  if s.hal_data = 0 then
    return -EINVAL
  if s.shm.lock &&& HAL_LOCK_CONFIG ≠ 0 then
    return -EPERM
  if s.shm.state ≠ .active ∧ s.shm.state ≠ .running then
    return -EINVAL
  rtapi_mutex_get
  let prev ← walk fun m =>
    (m.arena.pool .thread).seek (fun x => strcmp (m.thread x).name name = 0) FUEL .root
  let thread ← look fun m => (m.arena.pool .thread).deref prev
  if thread = 0 then
    rtapi_mutex_give
    return -EINVAL
  let comp_id ← look fun m => (m.thread thread).comp_id
  if comp_id ≠ 0 then
    -- `hal_exit` takes the mutex
    let _ ← hal_exit R comp_id
    change fun m => m.setThread thread { m.thread thread with comp_id := 0 }
    change fun m => m.unlink .thread prev thread
    free_thread_struct R thread
    rtapi_mutex_give
    return 0
  else
    change fun m => m.unlink .thread prev thread
    free_thread_struct R thread
    rtapi_mutex_give
    return 0

/-! ### The functions of a thread -/

/-- `while (++n < position) …`: forward from the root; `none` inside when the position is too
high. -/
def advance (next : Nat → Nat) (root : Nat) (position : Int) :
    Nat → Int → Nat → Option (Option Nat)
  | 0, _, _ => none
  | fuel + 1, n, list_entry =>
      if n + 1 < position then
        let list_entry := next list_entry
        if list_entry = root then some none
        else advance next root position fuel (n + 1) list_entry
      else some (some list_entry)

/-- `while (--n > position) …`: backward from the root, and one more step to insert before. -/
def retreat (prev : Nat → Nat) (root : Nat) (position : Int) :
    Nat → Int → Nat → Option (Option Nat)
  | 0, _, _ => none
  | fuel + 1, n, list_entry =>
      if n - 1 > position then
        let list_entry := prev list_entry
        if list_entry = root then some none
        else retreat prev root position fuel (n - 1) list_entry
      else some (some (prev list_entry))

/-- The insertion point of `hal_add_funct_to_thread`: the entry to insert behind. -/
def insertion_point (m : Segment) (root : Nat) (position : Int) : Option (Option Nat) :=
  if position > 0 then advance m.arena.links.next root position FUEL 0 root
  else retreat m.arena.links.prev root position FUEL 0 root

def hal_add_funct_to_thread (funct_name thread_name : Option CStr) (position : Int) :
    Prog σ Int := do
  let s ← get
  if s.hal_data = 0 then
    return -EINVAL
  if s.shm.lock &&& HAL_LOCK_CONFIG ≠ 0 then
    return -EPERM
  rtapi_mutex_get
  if position = 0 then
    rtapi_mutex_give
    return -EINVAL
  match funct_name, thread_name with
  | none, _ =>
      rtapi_mutex_give
      return -EINVAL
  | _, none =>
      rtapi_mutex_give
      return -EINVAL
  | some funct_name, some thread_name =>
      let funct ← walk fun m => m.halpr_find_funct_by_name funct_name
      if funct = 0 then
        rtapi_mutex_give
        return -EINVAL
      let f ← look fun m => m.funct funct
      if f.users > 0 ∧ f.reentrant = 0 then
        rtapi_mutex_give
        return -EINVAL
      let thread ← walk fun m => m.halpr_find_thread_by_name thread_name
      if thread = 0 then
        rtapi_mutex_give
        return -EINVAL
      let t ← look fun m => m.thread thread
      if f.uses_fp ≠ 0 ∧ t.uses_fp = 0 then
        rtapi_mutex_give
        return -EINVAL
      let found ← walk fun m => insertion_point m (thread + THREAD_FUNCT_LIST) position
      match found with
      | none =>
          rtapi_mutex_give
          return -EINVAL
      | some list_entry =>
          let s ← get
          match s.shm.alloc_funct_entry_struct with
          | none => throw .segv
          | some (funct_entry, m) =>
              change fun _ => m
              change fun m => m.setEntry funct_entry
                { funct_ptr := funct, arg := (m.funct funct).arg, funct := (m.funct funct).funct }
              change fun m => m.onArena fun a => a.list_add_after funct_entry list_entry
              change fun m => m.setFunct funct
                { m.funct funct with users := (m.funct funct).users + 1 }
              rtapi_mutex_give
              return 0

/-- The search of `hal_del_funct_from_thread` in a ring. -/
def find_entry (m : Segment) (root funct : Nat) : Nat → Nat → Option (Option Nat)
  | 0, _ => none
  | fuel + 1, list_entry =>
      if list_entry = root then some none
      else if (m.entry list_entry).funct_ptr = funct then some (some list_entry)
      else find_entry m root funct fuel (m.arena.links.next list_entry)

def hal_del_funct_from_thread (funct_name thread_name : Option CStr) : Prog σ Int := do
  let s ← get
  if s.hal_data = 0 then
    return -EINVAL
  if s.shm.lock &&& HAL_LOCK_CONFIG ≠ 0 then
    return -EPERM
  rtapi_mutex_get
  match funct_name, thread_name with
  | none, _ =>
      rtapi_mutex_give
      return -EINVAL
  | _, none =>
      rtapi_mutex_give
      return -EINVAL
  | some funct_name, some thread_name =>
      let funct ← walk fun m => m.halpr_find_funct_by_name funct_name
      if funct = 0 then
        rtapi_mutex_give
        return -EINVAL
      let f ← look fun m => m.funct funct
      if f.users = 0 then
        rtapi_mutex_give
        return -EINVAL
      let thread ← walk fun m => m.halpr_find_thread_by_name thread_name
      if thread = 0 then
        rtapi_mutex_give
        return -EINVAL
      let root := thread + THREAD_FUNCT_LIST
      let found ← walk fun m => find_entry m root funct FUEL (m.arena.links.next root)
      match found with
      | none =>
          rtapi_mutex_give
          return -EINVAL
      | some e =>
          change fun m => m.onArena fun a => a.list_remove_entry e
          change fun m => m.free_funct_entry_struct e
          rtapi_mutex_give
          return 0

/-! ### Running state -/

def hal_start_threads : Prog σ Int := do
  let s ← get
  if s.hal_data = 0 then
    return -EINVAL
  if s.shm.lock &&& HAL_LOCK_RUN ≠ 0 then
    return -EPERM
  if s.shm.state = .running then
    return -EALREADY
  if s.shm.state ≠ .active then
    return -EINVAL
  change fun m => { m with threads_running := 1, state := .running }
  return 0

def hal_stop_threads : Prog σ Int := do
  let s ← get
  if s.hal_data = 0 then
    return -EINVAL
  if s.shm.lock &&& HAL_LOCK_RUN ≠ 0 then
    return -EPERM
  if s.shm.state = .active then
    return -EALREADY
  if s.shm.state ≠ .running then
    return -EINVAL
  change fun m => { m with threads_running := 0, state := .active }
  return 0

/-! ### Start and end of HAL -/

def hal_app_main : Prog σ Int := do
  let id ← call (R.init (lit ['H', 'A', 'L', '_', 'L', 'I', 'B']))
  modify fun s => { s with lib_module_id := id }
  if id < 0 then
    return -EINVAL
  let mem_id ← call (R.shmem_new HAL_KEY id HAL_SIZE)
  modify fun s => { s with lib_mem_id := mem_id }
  if mem_id < 0 then
    let _ ← call (R.exit id)
    return -EINVAL
  let (retval, mem) ← call (R.shmem_getptr mem_id)
  if retval < 0 then
    let _ ← call (R.shmem_delete mem_id id)
    let _ ← call (R.exit id)
    return -EINVAL
  modify fun s => { s with hal_shmem_base := mem, hal_data := mem }
  change fun m => { m with state := .initializing, error_code := 0 }
  let retval ← init_hal_data R
  if retval ≠ 0 then
    let _ ← call (R.shmem_delete mem_id id)
    let _ ← call (R.exit id)
    return -EINVAL
  return 0

/-- The loop of `hal_app_exit` over the threads. -/
def teardown_threads : Nat → Prog σ Unit
  | 0 => throw .endless
  | n + 1 => do
      let thread ← look fun m => (m.arena.pool .thread).list_ptr
      if thread ≠ 0 then
        change fun m => m.unlink .thread .root thread
        free_thread_struct R thread
        teardown_threads n

/-- The part of `hal_app_exit` that works on the segment. -/
def hal_app_teardown : Prog σ Unit := do
  change fun m => { m with state := .shutting_down }
  rtapi_mutex_get
  teardown_threads R FUEL
  rtapi_mutex_give

def hal_app_exit : Prog σ Unit := do
  let s ← get
  if s.hal_data = 0 then
    return ()
  if s.shm.state = .destroyed then
    return ()
  hal_app_teardown R
  let s ← get
  let _ ← call (R.shmem_delete s.lib_mem_id s.lib_module_id)
  let _ ← call (R.exit s.lib_module_id)
  change fun m => { m with state := .destroyed }

def hal_get_state : Prog σ HalState := do
  let s ← get
  if s.hal_data = 0 then
    return .uninit
  return s.shm.state

/-- `hal_stats_t`. -/
structure HalStats where
  state : HalState
  comp_count : Nat
  pin_count : Nat
  param_count : Nat
  funct_count : Nat
  thread_count : Nat
  threads_running : Int
  shmem_avail : Int
  shmem_total : Nat
  init_pid : Int
  error_code : Int
  deriving DecidableEq

/-- The counting loops of `hal_get_stats`. -/
def Segment.count_list (m : Segment) (k : Kind) : Option Nat :=
  m.count k FUEL (m.arena.pool k).list_ptr

/-- `stats` says whether the caller's pointer is not null. -/
def hal_get_stats (stats : Bool) : Prog σ (Int × Option HalStats) := do
  let s ← get
  if s.hal_data = 0 ∨ stats = false then
    return (-EINVAL, none)
  rtapi_mutex_get
  let comp_count ← walk fun m => m.count_list .comp
  let pin_count ← walk fun m => m.count_list .pin
  let param_count ← walk fun m => m.count_list .param
  let funct_count ← walk fun m => m.count_list .funct
  let thread_count ← walk fun m => m.count_list .thread
  let m ← look id
  rtapi_mutex_give
  return (0, some
    { state := m.state, init_pid := m.init_pid, error_code := m.error_code
      threads_running := m.threads_running, shmem_avail := m.arena.brk.shmem_avail
      shmem_total := HAL_SIZE, comp_count := comp_count, pin_count := pin_count
      param_count := param_count, funct_count := funct_count, thread_count := thread_count })

/-! ### The cycle of a thread

`code` is what the code of a function does to the values in memory, given its argument and the
period. -/

section
variable (code : Addr → Addr → Int → (Addr → Int) → (Addr → Int))

/-- The loop of `thread_task` over the functions, from `funct_entry` on; it returns `end_time`. -/
def run_functs (thread : Nat) : Nat → Nat → Int → Prog σ Int
  | 0, _, _ => throw .endless
  | fuel + 1, funct_entry, end_time => do
      if funct_entry = thread + THREAD_FUNCT_LIST then
        return end_time
      let s ← get
      let e := s.shm.entry funct_entry
      let period := (s.shm.thread thread).period
      jump e.funct
      modify fun s => { s with
        calls := ⟨e.funct, e.arg, period⟩ :: s.calls
        shm := { s.shm with data := code e.funct e.arg period s.shm.data } }
      let end_time ← call R.get_clocks
      if e.funct_ptr = 0 then
        return end_time
      let runtime ← look fun m => m.cell (e.funct_ptr + FUNCT_RUNTIME)
      let maxtime := s.hal_shmem_base + (e.funct_ptr + FUNCT_MAXTIME)
      let increased := s.hal_shmem_base + (e.funct_ptr + FUNCT_MAXTIME_INCREASED)
      if runtime ≠ 0 then
        change fun m =>
          if m.data runtime > m.data maxtime then
            (m.setData maxtime (m.data runtime)).setData increased 1
          else m.setData increased 0
        let next ← look fun m => m.arena.links.next funct_entry
        run_functs thread fuel next end_time
      else
        let next ← look fun m => m.arena.links.next funct_entry
        run_functs thread fuel next end_time

/-- One turn of the loop of `thread_task`, up to `rtapi_wait`. -/
def thread_task_cycle (thread : Nat) : Prog σ Unit := do
  let s ← get
  if s.shm.threads_running > 0 then
    let first ← look fun m => m.arena.links.next (thread + THREAD_FUNCT_LIST)
    if first ≠ thread + THREAD_FUNCT_LIST then
      let start_time ← call R.get_clocks
      let end_time ← run_functs R code thread FUEL first start_time
      let runtime ← look fun m => m.cell (thread + THREAD_RUNTIME)
      store runtime (toInt32 (end_time - start_time))
      let maxtime := s.hal_shmem_base + (thread + THREAD_MAXTIME)
      change fun m =>
        if m.data runtime > m.data maxtime then m.setData maxtime (m.data runtime) else m

end

end RTS.Hal

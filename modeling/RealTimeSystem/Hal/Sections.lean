import RealTimeSystem.Hal.Removal
import RealTimeSystem.Support.Sections

/-!
# HAL — `hal_create_thread` and `hal_app_exit` in sections

Both written out with a cut at every call on the mutex, and some more: what is under the mutex is
one section, with the `rtapi_mutex_get` and the `rtapi_mutex_give` around it.  Run alone they are the
functions themselves (`hal_create_thread_eq`, `hal_app_exit_eq`).
-/

namespace RTS.Hal

open RTS.Support Sections

variable {σ : Type} (R : Rtapi σ)

/-! ### The sections -/

/-- The checks of `hal_create_thread`. -/
def create_thread_check (name : CStr) (period_nsec : Nat) : Prog σ (Option Int) := do
  let s ← get
  if s.hal_data = 0 then
    return some (-EINVAL)
  if period_nsec = 0 then
    return some (-EINVAL)
  if name.length > HAL_NAME_LEN then
    return some (-EINVAL)
  if s.shm.lock &&& HAL_LOCK_CONFIG ≠ 0 then
    return some (-EPERM)
  return none

/-- The checks of `hal_param_new`; `hal_shmem_base` when they are passed. -/
def param_new_check (name : CStr) (type : HalType) (dir : ParamDir) : Prog σ (Except Int Addr) := do
  let s ← get
  if s.hal_data = 0 then
    return .error (-EINVAL)
  if type ≠ .bit ∧ type ≠ .float ∧ type ≠ .s32 ∧ type ≠ .u32 ∧ type ≠ .s64 ∧ type ≠ .u64 then
    return .error (-EINVAL)
  if dir ≠ .ro ∧ dir ≠ .rw then
    return .error (-EINVAL)
  if name.length > HAL_NAME_LEN then
    return .error (-EINVAL)
  if s.shm.lock &&& HAL_LOCK_LOAD ≠ 0 then
    return .error (-EPERM)
  return .ok s.hal_shmem_base

/-- The checks of `hal_pin_new`. -/
def pin_new_check (name : CStr) (type : HalType) (data_ptr_addr : Addr) :
    Prog σ (Except Int Addr) := do
  let s ← get
  if s.hal_data = 0 then
    return .error (-EINVAL)
  load data_ptr_addr
  if type ≠ .bit ∧ type ≠ .float ∧ type ≠ .s32 ∧ type ≠ .u32 ∧ type ≠ .s64 ∧ type ≠ .u64 ∧
      type ≠ .port then
    return .error (-EINVAL)
  if name.length > HAL_NAME_LEN then
    return .error (-EINVAL)
  if s.shm.lock &&& HAL_LOCK_LOAD ≠ 0 then
    return .error (-EPERM)
  return .ok s.hal_shmem_base

/-- The start of `hal_app_exit`, up to the mutex; whether it goes on. -/
def app_exit_begin : Prog σ Bool := do
  let s ← get
  if s.hal_data = 0 then
    return false
  if s.shm.state = .destroyed then
    return false
  change fun m => { m with state := .shutting_down }
  return true

/-! ### The functions in sections -/

namespace Cut

def hal_init_comp (name : CStr) : Sections Stop (State σ) Int := do
  let comp_id ← part (call (R.init (rtapi_name name)))
  if comp_id < 0 then
    return -EINVAL
  else
    match ← part (init_insert name comp_id) with
    | .error e =>
        let _ ← part (call (R.exit comp_id))
        return e
    | .ok comp =>
        part (change fun m => m.setComp comp { m.comp comp with type := .realtime, pid := 0 })
        part (modify fun s => { s with ref_cnt := s.ref_cnt + 1 })
        return comp_id

/-- The library is initialised here, or was before. -/
def hal_init (name : CStr) : Sections Stop (State σ) Int := do
  if name.length > HAL_NAME_LEN then
    return -EINVAL
  else
    let retval ← part do
      let s ← get
      if s.lib_mem_id = 0 then hal_init_lib R else return 0
    if retval ≠ 0 then
      return retval
    else
      hal_init_comp R name

def hal_param_new (name : CStr) (type : HalType) (dir : ParamDir) (data_addr : Addr)
    (comp_id : Int) : Sections Stop (State σ) Int := do
  match ← part (param_new_check name type dir) with
  | .error e => return e
  | .ok base => part (param_new_insert base name type dir data_addr comp_id)

def hal_pin_new (name : CStr) (type : HalType) (data_ptr_addr : Addr) (comp_id : Int) :
    Sections Stop (State σ) Int := do
  match ← part (pin_new_check name type data_ptr_addr) with
  | .error e => return e
  | .ok base => part (pin_new_insert base name type data_ptr_addr comp_id)

def hal_pin_newf (type : HalType) (data_ptr_addr : Addr) (comp_id : Int) (full : CStr) :
    Sections Stop (State σ) Int :=
  if full.length > HAL_NAME_LEN then
    return -ENOMEM
  else
    hal_pin_new (rt_snprintf (HAL_NAME_LEN + 1) full) type data_ptr_addr comp_id

/-- `hal_create_thread` from the listed thread on. -/
def create_thread_comp (new : Nat) : Sections Stop (State σ) Int := do
  let s ← part get
  let name := (s.shm.thread new).name
  let comp_id ← hal_init R (rt_snprintf (HAL_NAME_LEN + 1) (lit ['_', '_'] ++ name))
  part (change fun m => m.setThread new { m.thread new with comp_id := comp_id })
  if comp_id < 0 then
    return -EINVAL
  else
    part (change fun m => m.setData (s.hal_shmem_base + (new + THREAD_MAXTIME)) 0)
    let retval ← hal_param_new (rt_snprintf (HAL_NAME_LEN + 1) (name ++ dotTmax)) .s32 .rw
      (s.hal_shmem_base + (new + THREAD_MAXTIME)) comp_id
    if retval ≠ 0 then
      return -EINVAL
    else
      let retval ← hal_pin_newf .s32 (s.hal_shmem_base + (new + THREAD_RUNTIME)) comp_id
        (name ++ dotTime)
      if retval ≠ 0 then
        return -EINVAL
      else
        part (storeThrough (new + THREAD_RUNTIME) 0)
        let _ ← part (hal_ready comp_id)
        return comp_id

end Cut

/-! ### Alone they are the functions -/

theorem Cut.run_init_comp (name : CStr) :
    (Cut.hal_init_comp R name).run = Hal.hal_init_comp R name := by
  rw [hal_init_comp_eq]
  unfold Cut.hal_init_comp
  simp only [run_bind, run_part, run_ite, run_pure]
  refine bind_congr fun comp_id => ?_
  congr 1
  refine bind_congr fun made => ?_
  cases made with
  | error e => simp only [run_bind, run_part, run_pure]
  | ok comp => simp only [run_bind, run_part, run_pure]

theorem Cut.run_init (name : CStr) : (Cut.hal_init R name).run = Hal.hal_init R (some name) := by
  unfold Cut.hal_init Hal.hal_init
  simp only [run_ite, run_pure, run_bind, run_part, run_init_comp, bind_assoc]
  by_cases hn : name.length > HAL_NAME_LEN
  · rw [if_pos hn, if_pos hn]
  rw [if_neg hn, if_neg hn]
  refine bind_congr fun s => ?_
  by_cases hid : s.lib_mem_id = 0
  · simp only [if_pos hid]
  · simp only [if_neg hid, pure_bind, ne_eq, not_true_eq_false, if_false]

theorem Cut.run_param_new (name : CStr) (type : HalType) (dir : ParamDir) (data_addr : Addr)
    (comp_id : Int) : (Cut.hal_param_new name type dir data_addr comp_id).run =
      (Hal.hal_param_new name type dir data_addr comp_id : Prog σ Int) := by
  unfold Cut.hal_param_new Hal.hal_param_new param_new_check
  simp only [run_bind, run_part, bind_assoc]
  refine bind_congr fun s => ?_
  split_ifs <;> rw [pure_bind] <;> try rfl
  exact run_part _

theorem Cut.run_pin_new (name : CStr) (type : HalType) (data_ptr_addr : Addr) (comp_id : Int) :
    (Cut.hal_pin_new name type data_ptr_addr comp_id).run =
      (Hal.hal_pin_new name type data_ptr_addr comp_id : Prog σ Int) := by
  unfold Cut.hal_pin_new Hal.hal_pin_new pin_new_check
  simp only [run_bind, run_part, bind_assoc]
  refine bind_congr fun s => ?_
  split_ifs with h₀
  · rfl
  all_goals simp only [bind_assoc, pure_bind]
  all_goals try rfl
  exact bind_congr fun _ => run_part _

theorem Cut.run_pin_newf (type : HalType) (data_ptr_addr : Addr) (comp_id : Int) (full : CStr) :
    (Cut.hal_pin_newf type data_ptr_addr comp_id full).run =
      (Hal.hal_pin_newf type data_ptr_addr comp_id full : Prog σ Int) := by
  unfold Cut.hal_pin_newf Hal.hal_pin_newf hal_pin_newfv
  rw [run_ite, run_pin_new, run_pure]

theorem Cut.run_create_thread_comp (new : Nat) :
    (Cut.create_thread_comp R new).run = Hal.create_thread_comp R new := by
  unfold Cut.create_thread_comp Hal.create_thread_comp hal_param_s32_new
  simp only [run_bind, run_part, run_ite, run_pure, run_init, run_param_new, run_pin_newf]

/-- **The sections of `hal_create_thread`.** -/
theorem hal_create_thread_eq (name : CStr) (period_nsec : Nat) (uses_fp priority : Int) :
    hal_create_thread R name period_nsec uses_fp priority = (do
      match ← create_thread_check name period_nsec with
      | some e => return e
      | none =>
          match ← create_thread_task R name period_nsec uses_fp priority with
          | .error e => return e
          | .ok new => (Cut.create_thread_comp R new).run) := by
  unfold hal_create_thread create_thread_check
  simp only [bind_assoc, Cut.run_create_thread_comp]
  refine bind_congr fun s => ?_
  split_ifs
  · exact (pure_bind _ _).symm
  · exact (pure_bind _ _).symm
  · exact (pure_bind _ _).symm
  · exact (pure_bind _ _).symm
  · exact (bind_congr fun made => by cases made <;> rfl).trans (pure_bind _ _).symm

/-- **The sections of `hal_app_exit`.** -/
theorem hal_app_exit_eq :
    hal_app_exit R = (do
      if ← app_exit_begin then
        app_exit_remove R
        let s ← get
        let _ ← call (R.shmem_delete s.lib_mem_id s.lib_module_id)
        let _ ← call (R.exit s.lib_module_id)
        change fun m => { m with state := .destroyed }) := by
  unfold hal_app_exit app_exit_begin hal_app_teardown app_exit_remove
  simp only [bind_assoc]
  refine bind_congr fun s => ?_
  split_ifs <;> simp only [pure_bind, bind_assoc, if_true, if_false, Bool.false_eq_true]

end RTS.Hal

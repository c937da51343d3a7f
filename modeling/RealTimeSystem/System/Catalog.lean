import RealTimeSystem.Support.Spec
import RealTimeSystem.System.Forgetting

/-!
# System — the catalog, HAL without its memory

What HAL is to a program that calls it: what is registered, the lock level and the state.  Each
operation is a specification on the catalog (`Op.catalog`).  Where a structure comes from, which id
RTAPI gives to a module, and whether it grants a task, are choices.
-/

namespace RTS.Hal

open RTS.Support RTS.Uspace

/-- What is registered, where the segment is attached, the lock level and the state. -/
structure Catalog where
  reg : Registry
  base : Addr
  lock : UInt8
  state : HalState

/-- The offsets in use, by kind. -/
def Registry.offs (g : Registry) : Kind → List Nat
  | .comp => keys g.comps
  | .pin => keys g.pins
  | .param => keys g.params
  | .funct => keys g.functs
  | .thread => g.threads.map Slot.off
  | .entry => keys g.entries
  | .oldname => []

namespace Catalog

/-- Nothing is registered. -/
def empty (base : Addr) : Catalog := ⟨{}, base, HAL_LOCK_NONE, .active⟩

/-- The registry goes through events. -/
def record (c : Catalog) (evs : List Event) : Catalog := { c with reg := c.reg.applyAll evs }

/-! ### The operations -/

/-- A structure that is not in use, or `0`. -/
def alloc (k : Kind) : Spec Catalog Nat := .guess fun c new => new = 0 ∨ new ∉ c.reg.offs k

/-- An operation of the registry. -/
def perform (f : Catalog → Int × List Event) : Spec Catalog Int :=
  fun c r c' => r = (f c).1 ∧ c' = c.record (f c).2

/-- A single event. -/
def emit (ev : Event) : Spec Catalog Unit := .modify fun c => c.record [ev]

/-- The id is RTAPI's, and what the structure held before it was freed is kept where it is not
set. -/
def hal_init (name : CStr) : Spec Catalog Int := do
  let id ← .guess fun _ _ => True
  let new ← alloc .comp
  let old ← .guess fun _ _ => True
  perform fun c => c.reg.init c.base new old id name

def hal_exit (comp_id : Int) : Spec Catalog Int := perform fun c => c.reg.exit c.state comp_id

def hal_set_constructor (comp_id : Int) (make : Addr) : Spec Catalog Int :=
  perform fun c => c.reg.set comp_id fun comp => some { comp with make := make }

def hal_ready (comp_id : Int) : Spec Catalog Int :=
  perform fun c => c.reg.set comp_id fun comp =>
    if comp.ready > 0 then none else some { comp with ready := 1 }

def hal_unready (comp_id : Int) : Spec Catalog Int :=
  perform fun c => c.reg.set comp_id fun comp =>
    if comp.ready < 1 then none else some { comp with ready := 0 }

def hal_set_unready (comp_id : Int) : Spec Catalog Int :=
  perform fun c => c.reg.set comp_id fun comp => some { comp with ready := 0 }

def hal_comp_name (comp_id : Int) : Spec Catalog (Option CStr) :=
  .guess fun c name => name = (c.reg.findComp comp_id).map fun p => p.2.name

def hal_param_new (name : CStr) (type : HalType) (dir : ParamDir) (data_addr : Addr)
    (comp_id : Int) : Spec Catalog Int := do
  let new ← alloc .param
  perform fun c => c.reg.param_new c.base c.lock new name type dir data_addr comp_id

def hal_pin_new (name : CStr) (type : HalType) (data_ptr_addr : Addr) (comp_id : Int) :
    Spec Catalog Int := do
  let new ← alloc .pin
  perform fun c => c.reg.pin_new c.base c.lock new name type data_ptr_addr comp_id

def hal_pin_newf (type : HalType) (data_ptr_addr : Addr) (comp_id : Int) (full : CStr) :
    Spec Catalog Int := do
  let new ← alloc .pin
  perform fun c => c.reg.pin_newf c.base c.lock new type data_ptr_addr comp_id full

/-- The pin and the two parameters of the function `new`. -/
def export_funct_pins (name : CStr) (new : Nat) (comp_id : Int) : Spec Catalog Int := do
  let c ← .get
  let retval ← hal_pin_newf .s32 (c.base + (new + FUNCT_RUNTIME)) comp_id (name ++ dotTime)
  if retval ≠ 0 then
    return -EINVAL
  else
    let _ ← hal_param_new (rt_snprintf (HAL_NAME_LEN + 1) (name ++ dotTmax)) .s32 .rw
      (c.base + (new + FUNCT_MAXTIME)) comp_id
    let _ ← hal_param_new (rt_snprintf (HAL_NAME_LEN + 1) (name ++ dotTmaxIncreased)) .bit .ro
      (c.base + (new + FUNCT_MAXTIME_INCREASED)) comp_id
    return 0

def hal_export_funct (name : CStr) (funct arg : Addr) (uses_fp reentrant comp_id : Int) :
    Spec Catalog Int := do
  let new ← alloc .funct
  let r ← perform fun c =>
    c.reg.export_funct c.lock new name funct arg uses_fp reentrant comp_id
  if r ≠ 0 then
    return r
  else
    export_funct_pins name new comp_id

/-- The component, the parameter and the pin of the thread `new`, of which the record is `th`. -/
def create_thread_comp (new : Nat) (th : Thread) : Spec Catalog Int := do
  let c ← .get
  let comp_id ← hal_init (rt_snprintf (HAL_NAME_LEN + 1) (lit ['_', '_'] ++ th.name))
  emit (.setThread new { th with comp_id := comp_id })
  if comp_id < 0 then
    return -EINVAL
  else
    let retval ← hal_param_new (rt_snprintf (HAL_NAME_LEN + 1) (th.name ++ dotTmax)) .s32 .rw
      (c.base + (new + THREAD_MAXTIME)) comp_id
    if retval ≠ 0 then
      return -EINVAL
    else
      let retval ← hal_pin_newf .s32 (c.base + (new + THREAD_RUNTIME)) comp_id (th.name ++ dotTime)
      if retval ≠ 0 then
        return -EINVAL
      else
        let _ ← hal_ready comp_id
        return comp_id

/-- The thread gets a task, or RTAPI refuses the clock or the task. -/
def hal_create_thread (name : CStr) (period_nsec : Nat) (uses_fp priority : Int) :
    Spec Catalog Int := do
  let c ← .get
  if period_nsec = 0 then
    return -EINVAL
  else if name.length > HAL_NAME_LEN then
    return -EINVAL
  else if c.lock &&& HAL_LOCK_CONFIG ≠ 0 then
    return -EPERM
  else if ∃ t ∈ c.reg.threads, t.thread.name = name then
    return -EINVAL
  else
    let new ← alloc .thread
    if new = 0 then
      return -ENOMEM
    else
      let made ← .guess fun _ made => ∀ th ∈ made, th.name = name ∧
        th.uses_fp = uses_fp ∧ th.period = toInt64 period_nsec ∧ th.priority = priority
      match made with
      | none => return -EINVAL
      | some th =>
          emit (.addThread new th)
          create_thread_comp new th

def hal_thread_delete (name : CStr) : Spec Catalog Int := do
  let c ← .get
  (c.reg.delete c.lock c.state name).elim .never fun spec => perform fun _ => spec

def hal_add_funct_to_thread (funct_name thread_name : Option CStr) (position : Int) :
    Spec Catalog Int := do
  let new ← .guess fun _ _ => True
  perform fun c => c.reg.add_funct c.lock new funct_name thread_name position

def hal_del_funct_from_thread (funct_name thread_name : Option CStr) : Spec Catalog Int :=
  perform fun c => c.reg.del_funct c.lock funct_name thread_name

def hal_get_stats (stats : Bool) : Spec Catalog (Int × Option HalStats) :=
  .guess fun c r =>
    if stats then ∃ st, r = (0, some st) ∧ st.state = c.state ∧
      st.comp_count = c.reg.comps.length ∧ st.pin_count = c.reg.pins.length ∧
      st.param_count = c.reg.params.length ∧ st.funct_count = c.reg.functs.length ∧
      st.thread_count = c.reg.threads.length
    else r = (-EINVAL, none)

def hal_set_lock (lock_type : UInt8) : Spec Catalog Int := do
  Spec.modify fun c => { c with lock := lock_type }
  return 0

def hal_start_threads : Spec Catalog Int := do
  let c ← .get
  if c.lock &&& HAL_LOCK_RUN ≠ 0 then
    return -EPERM
  else if c.state = .running then
    return -EALREADY
  else if c.state ≠ .active then
    return -EINVAL
  else
    Spec.modify fun c => { c with state := .running }
    return 0

def hal_stop_threads : Spec Catalog Int := do
  let c ← .get
  if c.lock &&& HAL_LOCK_RUN ≠ 0 then
    return -EPERM
  else if c.state = .active then
    return -EALREADY
  else if c.state ≠ .running then
    return -EINVAL
  else
    Spec.modify fun c => { c with state := .active }
    return 0

/-- The part of `hal_app_exit` on the segment. -/
def teardown : Spec Catalog Unit :=
  .modify fun c => { c.record (c.reg.threads.map fun t => .dropThread t.off) with
    state := .shutting_down }

end Catalog

/-- **The operations on the catalog.** -/
def Op.catalog : Op → Spec Catalog Reply
  | .hal_init none => return .code (-EINVAL)
  | .hal_init (some name) => .code <$> Catalog.hal_init name
  | .hal_exit comp_id => .code <$> Catalog.hal_exit comp_id
  | .hal_malloc _ => .offset <$> .guess fun _ _ => True
  | .hal_set_constructor comp_id make => .code <$> Catalog.hal_set_constructor comp_id make
  | .hal_ready comp_id => .code <$> Catalog.hal_ready comp_id
  | .hal_unready comp_id => .code <$> Catalog.hal_unready comp_id
  | .hal_set_unready comp_id => .code <$> Catalog.hal_set_unready comp_id
  | .hal_comp_name comp_id => .name <$> Catalog.hal_comp_name comp_id
  | .hal_export_funct name funct arg uses_fp reentrant comp_id =>
      .code <$> Catalog.hal_export_funct name funct arg uses_fp reentrant comp_id
  | .hal_create_thread name period_nsec uses_fp priority =>
      .code <$> Catalog.hal_create_thread name period_nsec uses_fp priority
  | .hal_thread_delete name => .code <$> Catalog.hal_thread_delete name
  | .hal_add_funct_to_thread funct_name thread_name position =>
      .code <$> Catalog.hal_add_funct_to_thread funct_name thread_name position
  | .hal_del_funct_from_thread funct_name thread_name =>
      .code <$> Catalog.hal_del_funct_from_thread funct_name thread_name
  | .hal_param_new name type dir data_addr comp_id =>
      .code <$> Catalog.hal_param_new name type dir data_addr comp_id
  | .hal_pin_new name type data_ptr_addr comp_id =>
      .code <$> Catalog.hal_pin_new name type data_ptr_addr comp_id
  | .hal_get_stats stats => .stats <$> Catalog.hal_get_stats stats
  | .hal_set_lock lock_type => .code <$> Catalog.hal_set_lock lock_type
  | .hal_get_lock => .lock <$> Catalog.lock <$> Spec.get
  | .hal_start_threads => .code <$> Catalog.hal_start_threads
  | .hal_stop_threads => .code <$> Catalog.hal_stop_threads
  | .hal_get_state => .state <$> Catalog.state <$> Spec.get
  | .teardown => (fun _ => .done) <$> Catalog.teardown

end RTS.Hal

import RealTimeSystem.Hal.Segment
import RealTimeSystem.Support.Wp

/-!
# HAL — the state of a process using HAL, and its programs

`State σ` is what a HAL operation reads and writes: the segment, the variables of `hal_lib.c`, and
the state `σ` of RTAPI.  RTAPI is a parameter, an `Rtapi σ` of total functions; `Rtapi/` gives
the one of the repository.

A program returns or stops for good: at a mutex it holds itself (`deadlock`), at an access to memory
that is not there or a call of a null function (`segv`), or in a walk that does not end (`endless`).

Three ghosts record what an operation did, newest first: `locks`, each call on the mutex with
whether it was held; `strikes`, each task paused or deleted with the segment at that moment; and
`calls`, each function a thread called.
-/

namespace RTS.Hal

open RTS.Support

/-- The RTAPI functions HAL calls. -/
structure Rtapi (σ : Type) where
  /-- `rtapi_init (modname)` -/
  init : CStr → σ → Int × σ
  /-- `rtapi_exit (module_id)` -/
  exit : Int → σ → Int × σ
  /-- `rtapi_shmem_new (key, module_id, size)` -/
  shmem_new : Int → Int → Int → σ → Int × σ
  /-- `rtapi_shmem_getptr (handle, &ptr)`: the result and the pointer -/
  shmem_getptr : Int → σ → (Int × Addr) × σ
  /-- `rtapi_shmem_delete (handle, module_id)` -/
  shmem_delete : Int → Int → σ → Int × σ
  /-- `rtapi_clock_set_period (nsecs)` -/
  clock_set_period : Int → σ → Int × σ
  /-- `rtapi_task_new (taskcode, arg, prio, owner, stacksize, uses_fp)`, always of `thread_task` -/
  task_new : Addr → Int → Int → Int → Int → σ → Int × σ
  /-- `rtapi_task_start (task_id, period_nsec)` -/
  task_start : Int → Int → σ → Int × σ
  /-- `rtapi_task_pause (task_id)` -/
  task_pause : Int → σ → Int × σ
  /-- `rtapi_task_delete (id)` -/
  task_delete : Int → σ → Int × σ
  /-- `rtapi_get_clocks ()` -/
  get_clocks : σ → Int × σ
  /-- `getpid ()` -/
  getpid : σ → Int × σ

/-- A call on the mutex, and whether it was held then. -/
inductive LockEvent where
  | get (held : Bool)
  | give (held : Bool)
  deriving DecidableEq

/-- A task paused or deleted, and the segment at that moment. -/
structure Strike where
  task_id : Int
  shm : Segment

/-- A function called by a thread, with its argument and the period. -/
structure Called where
  funct : Addr
  arg : Addr
  period : Int
  deriving DecidableEq

/-- A process that uses HAL. -/
structure State (σ : Type) where
  shm : Segment
  hal_shmem_base : Addr := 0
  hal_data : Addr := 0
  ref_cnt : Int := 0
  lib_module_id : Int := -1
  lib_mem_id : Int := 0
  rt : σ
  locks : List LockEvent := []
  strikes : List Strike := []
  calls : List Called := []
  /-- addresses the process can read, besides those in the segment -/
  readable : Addr → Bool := fun _ => false

/-- Why a program stopped for good. -/
inductive Stop where
  | deadlock | segv | endless
  deriving DecidableEq

abbrev Prog (σ : Type) := EStateM Stop (State σ)

variable {σ α : Type}

/-- `SHMCHK`. -/
def SHMCHK (base ptr : Addr) : Bool := base < ptr && ptr < base + HAL_SIZE

/-- `*p` can be read. -/
def State.Reads (s : State σ) (p : Addr) : Prop := SHMCHK s.hal_shmem_base p ∨ s.readable p

instance (s : State σ) (p : Addr) : Decidable (s.Reads p) := inferInstanceAs (Decidable (_ ∨ _))

/-! ### Steps of a program -/

/-- Read the segment. -/
def look (f : Segment → α) : Prog σ α := do return f (← get).shm

/-- Walk over a list. -/
def walk (f : Segment → Option α) : Prog σ α := do
  match f (← get).shm with
  | some a => return a
  | none => throw .endless

/-- Write the segment. -/
def change (f : Segment → Segment) : Prog σ Unit :=
  modify fun s => { s with shm := f s.shm }

/-- Take a result of the segment. -/
def take (f : Segment → α × Segment) : Prog σ α :=
  modifyGet fun s => ((f s.shm).1, { s with shm := (f s.shm).2 })

/-- Write the segment on a walk. -/
def walkTo (f : Segment → Option (α × Segment)) : Prog σ α := do
  match f (← get).shm with
  | some (a, m) =>
      modify fun s => { s with shm := m }
      return a
  | none => throw .endless

/-- Call RTAPI. -/
def call (f : σ → α × σ) : Prog σ α :=
  modifyGet fun s => ((f s.rt).1, { s with rt := (f s.rt).2 })

/-- Read `*p`; what is there does not matter. -/
def load (p : Addr) : Prog σ Unit := do
  if (← get).Reads p then return () else throw .segv

/-- Jump to the code at `p`. -/
def jump (p : Addr) : Prog σ Unit :=
  if p = 0 then throw .segv else return ()

/-- `*p = v` for a pointer to a value. -/
def store (p : Addr) (v : Int) : Prog σ Unit :=
  if p = 0 then throw .segv else change fun m => m.setData p v

/-- `rtapi_mutex_get (&(hal_data->mutex))`: it spins for ever on a mutex of its own. -/
def rtapi_mutex_get : Prog σ Unit := do
  let s ← get
  if s.hal_data = 0 then throw .segv
  modify fun s => { s with locks := .get s.shm.mutex :: s.locks }
  if s.shm.mutex then throw .deadlock
  change fun m => { m with mutex := true }

/-- `rtapi_mutex_give (&(hal_data->mutex))`: unconditional. -/
def rtapi_mutex_give : Prog σ Unit :=
  modify fun s =>
    { s with shm := { s.shm with mutex := false }, locks := .give s.shm.mutex :: s.locks }

section
variable (R : Rtapi σ)

/-- `rtapi_task_pause (id)`. -/
def rtapi_task_pause (id : Int) : Prog σ Int := do
  modify fun s => { s with strikes := ⟨id, s.shm⟩ :: s.strikes }
  call (R.task_pause id)

/-- `rtapi_task_delete (id)`. -/
def rtapi_task_delete (id : Int) : Prog σ Int := do
  modify fun s => { s with strikes := ⟨id, s.shm⟩ :: s.strikes }
  call (R.task_delete id)

end

/-! ### Their preconditions -/

variable {s : State σ} {E : Stop → State σ → Prop}

@[simp] theorem wp_look {f : Segment → α} {Q : α → State σ → Prop} :
    Wp (look f : Prog σ α) s Q E ↔ Q (f s.shm) s := Iff.rfl

@[simp] theorem wp_change {f : Segment → Segment} {Q : Unit → State σ → Prop} :
    Wp (change f : Prog σ Unit) s Q E ↔ Q () { s with shm := f s.shm } := Iff.rfl

@[simp] theorem wp_take {f : Segment → α × Segment} {Q : α → State σ → Prop} :
    Wp (take f : Prog σ α) s Q E ↔ Q (f s.shm).1 { s with shm := (f s.shm).2 } := Iff.rfl

@[simp] theorem wp_call {f : σ → α × σ} {Q : α → State σ → Prop} :
    Wp (call f : Prog σ α) s Q E ↔ Q (f s.rt).1 { s with rt := (f s.rt).2 } := Iff.rfl

/-- A program whose result is ignored. -/
theorem Returns.of_ignored {x : Prog σ α} {Q : State σ → Prop} {s' : State σ}
    (h : Returns x s fun _ s' => Q s') (hrun : (do let _ ← x : Prog σ Unit) s = .ok () s') :
    Q s' := by
  have hw : Wp (do let _ ← x : Prog σ Unit) s (fun _ s' => Q s') fun _ _ => False :=
    wp_bind.mpr h
  exact hw.of_ok hrun

theorem ok_of_ignored {x : Prog σ α} {s' : State σ}
    (hrun : (do let _ ← x : Prog σ Unit) s = .ok () s') : ∃ a, x s = .ok a s' := by
  have hw : Wp (do let _ ← x : Prog σ Unit) s (fun _ s' => ∃ a, x s = .ok a s')
      fun _ _ => True := by
    rw [wp_bind]
    unfold Wp
    cases hx : x s with
    | ok a s₁ => exact ⟨a, rfl⟩
    | error e s₁ => trivial
  exact hw.of_ok hrun

theorem wp_walk {f : Segment → Option α} {a : α} (h : f s.shm = some a)
    {Q : α → State σ → Prop} : Wp (walk f : Prog σ α) s Q E ↔ Q a s := by
  simp [walk, h]

/-- Whatever the walk ends with. -/
theorem wp_walk_any {f : Segment → Option α} {Q : α → State σ → Prop}
    (h : ∀ a, f s.shm = some a → Q a s) : Wp (walk f : Prog σ α) s Q fun _ _ => True := by
  unfold Hal.walk
  rw [wp_bind, wp_get]
  cases hf : f s.shm with
  | none => trivial
  | some a => exact h a hf

theorem wp_walkTo {f : Segment → Option (α × Segment)} {a : α} {m : Segment}
    (h : f s.shm = some (a, m)) {Q : α → State σ → Prop} :
    Wp (walkTo f : Prog σ α) s Q E ↔ Q a { s with shm := m } := by
  unfold walkTo
  rw [wp_bind, wp_get]
  simp only [h, wp_bind, wp_modify, wp_pure]

theorem wp_load {p : Addr} (hp : s.Reads p) {Q : Unit → State σ → Prop} :
    Wp (load p : Prog σ Unit) s Q E ↔ Q () s := by
  simp [load, hp]

/-- A read that may fail. -/
theorem wp_load_or {p : Addr} {Q : Unit → State σ → Prop} (hok : s.Reads p → Q () s)
    (hno : ¬ s.Reads p → E .segv s) : Wp (load p : Prog σ Unit) s Q E := by
  unfold load
  rw [wp_bind, wp_get]
  exact .ite hok hno

theorem wp_jump {p : Addr} (hp : p ≠ 0) {Q : Unit → State σ → Prop} :
    Wp (jump p : Prog σ Unit) s Q E ↔ Q () s := by
  simp [jump, hp]

theorem wp_jump_or {p : Addr} {Q : Unit → State σ → Prop} (hok : p ≠ 0 → Q () s)
    (hno : p = 0 → E .segv s) : Wp (jump p : Prog σ Unit) s Q E :=
  .ite hno hok

theorem wp_store {p : Addr} (hp : p ≠ 0) {v : Int} {Q : Unit → State σ → Prop} :
    Wp (store p v : Prog σ Unit) s Q E ↔ Q () { s with shm := s.shm.setData p v } := by
  simp [store, hp]

theorem wp_mutex_get (h₀ : s.hal_data ≠ 0) (h : s.shm.mutex = false) {Q : Unit → State σ → Prop} :
    Wp (rtapi_mutex_get : Prog σ Unit) s Q E ↔
      Q () { s with shm := { s.shm with mutex := true }, locks := .get false :: s.locks } := by
  simp [rtapi_mutex_get, h₀, h]

theorem wp_mutex_give {Q : Unit → State σ → Prop} :
    Wp (rtapi_mutex_give : Prog σ Unit) s Q E ↔
      Q () { s with
        shm := { s.shm with mutex := false }, locks := .give s.shm.mutex :: s.locks } := Iff.rfl

end RTS.Hal

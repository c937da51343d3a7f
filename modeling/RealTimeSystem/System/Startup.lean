import RealTimeSystem.Hal.Growing
import RealTimeSystem.System.Creating
import RealTimeSystem.System.Release

/-!
# System — the start of the example task

`task_thread_main`: a component, the block of its pins and parameters, the application segment, the
thread and its two functions.  A failure after `hal_init` calls `hal_exit` and nothing else.

The messages, the two diagnostic prints, `module_intfc`, which is empty, the first stores to the
application segment and the cycle times are left out.

**`init_hal_param_found`**: the first pin is listed and stays, or nothing is listed and RTAPI is as
before.
-/

namespace RTS.ExampleTask

open RTS.Support RTS.Hal RTS.Uspace

/-! ### The functions of the source -/

def MAX_AXES : Int := 4

/-- `sizeof (task_shared_t)` -/
def TASK_SHARED_SIZE : Int := 40

/-- `sizeof (task_hal_data_t)` -/
def TASK_HAL_DATA_SIZE : Int := 64

/-! The offsets in `task_hal_data_t`. -/

def ENABLE_IN : Nat := 0
def TARGET_POS : Nat := 8
def FEED_RATE : Nat := 16
def CURRENT_POS : Nat := 24
def RUNNING : Nat := 32
def ERROR : Nat := 40
def HEARTBEAT_OUT : Nat := 48
def MAX_VELOCITY : Nat := 56
def MAX_ACCEL : Nat := 60

def task1 : CStr := lit ['t', 'a', 's', 'k', '1']

/-- `"example."` before a name. -/
def example_name (cs : List Char) : CStr := lit (['e', 'x', 'a', 'm', 'p', 'l', 'e', '.'] ++ cs)

def enable_in_name : CStr := example_name ['e', 'n', 'a', 'b', 'l', 'e', '-', 'i', 'n']

/-- What `PIN_NEW` is called with: the type, the field and the name. -/
structure NewPin where
  type : HalType
  field : Nat
  name : CStr

/-- The pins after the first. -/
def other_pins : List NewPin :=
  [⟨.s32, TARGET_POS, example_name ['t', 'a', 'r', 'g', 'e', 't', '-', 'p', 'o', 's']⟩,
    ⟨.float, FEED_RATE, example_name ['f', 'e', 'e', 'd', '-', 'r', 'a', 't', 'e']⟩,
    ⟨.s32, CURRENT_POS, example_name ['c', 'u', 'r', 'r', 'e', 'n', 't', '-', 'p', 'o', 's']⟩,
    ⟨.bit, RUNNING, example_name ['r', 'u', 'n', 'n', 'i', 'n', 'g']⟩,
    ⟨.bit, ERROR, example_name ['e', 'r', 'r', 'o', 'r']⟩,
    ⟨.s32, HEARTBEAT_OUT,
      example_name ['h', 'e', 'a', 'r', 't', 'b', 'e', 'a', 't', '-', 'o', 'u', 't']⟩]

def hal_pins : List NewPin := ⟨.bit, ENABLE_IN, enable_in_name⟩ :: other_pins

def max_velocity_name : CStr :=
  example_name ['m', 'a', 'x', '-', 'v', 'e', 'l', 'o', 'c', 'i', 't', 'y']

def max_accel_name : CStr := example_name ['m', 'a', 'x', '-', 'a', 'c', 'c', 'e', 'l']

/-- `"example-"` before a name. -/
def example_dash (cs : List Char) : CStr := lit (['e', 'x', 'a', 'm', 'p', 'l', 'e', '-'] ++ cs)

def thread_name : CStr := example_dash ['t', 'h', 'r', 'e', 'a', 'd']

def cmd_handler_name : CStr :=
  example_dash ['c', 'm', 'd', '-', 'h', 'a', 'n', 'd', 'l', 'e', 'r']

def controller_name : CStr := example_dash ['c', 'o', 'n', 't', 'r', 'o', 'l', 'l', 'e', 'r']

/-- The globals of `task.c` that are read, and where its two functions are. -/
structure Config where
  num_axis : Int
  task_period_nsec : Int
  taskCommandHandler : Addr
  taskController : Addr

section
variable {σ : Type}

/-- `PIN_NEW` of each of the pins, up to the first that is refused. -/
def pin_new (taskHalData : Addr) (mot_comp_id : Int) : List NewPin → Prog σ Int
  | [] => return 0
  | p :: ps => do
      let r ← hal_pin_newf p.type (taskHalData + p.field) mot_comp_id p.name
      if r ≠ 0 then
        return -1
      pin_new taskHalData mot_comp_id ps

/-- The initial values of the pins; `0x3ff0000000000000` is `1.0f`. -/
def initial_values (off : Nat) : Prog σ Unit := do
  storeThrough (off + ENABLE_IN) 0
  storeThrough (off + TARGET_POS) 0
  storeThrough (off + FEED_RATE) 0x3ff0000000000000
  storeThrough (off + CURRENT_POS) 0
  storeThrough (off + RUNNING) 0
  storeThrough (off + ERROR) 0
  storeThrough (off + HEARTBEAT_OUT) 0

def init_hal_param (mot_comp_id : Int) : Prog σ Int := do
  let block ← hal_malloc TASK_HAL_DATA_SIZE
  match block with
  | none => return -1
  | some off =>
      let s ← get
      let taskHalData := s.hal_shmem_base + off.toNat
      change fun m => m.setData (taskHalData + MAX_VELOCITY) 1000
      change fun m => m.setData (taskHalData + MAX_ACCEL) 500
      let r ← pin_new taskHalData mot_comp_id hal_pins
      if r ≠ 0 then
        return -1
      initial_values off.toNat
      let r ← hal_param_s32_new max_velocity_name .rw .s32 (taskHalData + MAX_VELOCITY) mot_comp_id
      if r ≠ 0 then
        return -1
      let r ← hal_param_s32_new max_accel_name .rw .s32 (taskHalData + MAX_ACCEL) mot_comp_id
      if r ≠ 0 then
        return -1
      return 0

variable (R : Rtapi σ)

def init_task_comm_buffers (mot_comp_id : Int) : Prog σ Int := do
  let emc_shmem_id ← call (R.shmem_new TASK_SHM_KEY mot_comp_id TASK_SHARED_SIZE)
  if emc_shmem_id < 0 then
    return -1
  let (retval, _) ← call (R.shmem_getptr emc_shmem_id)
  if retval < 0 then
    return -1
  return 0

variable (cfg : Config)

/-- The period is an `unsigned long`. -/
def init_task_threads (mot_comp_id : Int) : Prog σ Int := do
  let retval ← hal_create_thread R thread_name (cfg.task_period_nsec * 1000 % 2 ^ 64).toNat 1 98
  if retval < 0 then
    return -1
  let retval ← hal_export_funct cmd_handler_name cfg.taskCommandHandler 0 1 0 mot_comp_id
  if retval < 0 then
    return -1
  let retval ← hal_export_funct controller_name cfg.taskController 0 1 0 mot_comp_id
  if retval < 0 then
    return -1
  let _ ← hal_add_funct_to_thread (some cmd_handler_name) (some thread_name) 1
  let _ ← hal_add_funct_to_thread (some controller_name) (some thread_name) 2
  return 0

/-- `task_thread_main` after `hal_init`. -/
def task_thread_phases (mot_comp_id : Int) : Prog σ Int := do
  if cfg.num_axis < 1 ∨ cfg.num_axis > MAX_AXES then
    let _ ← hal_exit R mot_comp_id
    return -1
  let retval ← init_hal_param mot_comp_id
  if retval ≠ 0 then
    let _ ← hal_exit R mot_comp_id
    return -1
  let retval ← init_task_comm_buffers R mot_comp_id
  if retval ≠ 0 then
    let _ ← hal_exit R mot_comp_id
    return -1
  let retval ← init_task_threads R cfg mot_comp_id
  if retval ≠ 0 then
    let _ ← hal_exit R mot_comp_id
    return -1
  let _ ← hal_ready mot_comp_id
  return 0

def task_thread_main : Prog σ Int := do
  let mot_comp_id ← hal_init R (some task1)
  if mot_comp_id < 0 then
    return -1
  task_thread_phases R cfg mot_comp_id

end

/-! ### What is registered -/

section
variable {σ : Type} {R : Rtapi σ} {s s' : State σ} {L L' : Lists} {comp_id : Int}

theorem pin_new_enrolling (taskHalData : Addr) (ps : List NewPin) :
    Enrolling (pin_new taskHalData comp_id ps : Prog σ Int) := by
  induction ps with
  | nil => exact .pure
  | cons p ps ih => exact .bind (.hal_pin_newf _ _ _ _) fun _ => .ite .pure ih

theorem initial_values_enrolling (off : Nat) : Enrolling (initial_values off : Prog σ Unit) :=
  .bind (.storeThrough _ _) fun _ => .bind (.storeThrough _ _) fun _ =>
    .bind (.storeThrough _ _) fun _ => .bind (.storeThrough _ _) fun _ =>
    .bind (.storeThrough _ _) fun _ => .bind (.storeThrough _ _) fun _ => .storeThrough _ _

theorem init_task_comm_buffers_enrolling :
    Enrolling (init_task_comm_buffers R comp_id) :=
  .bind (.call _) fun _ => .ite .pure <| .bind (.call _) fun _ => .ite .pure .pure

theorem init_task_threads_enrolling (cfg : Config) :
    Enrolling (init_task_threads R cfg comp_id) :=
  .bind (.hal_create_thread _ _ _ _) fun _ => .ite .pure <|
    .bind (.hal_export_funct _ _ _ _ _ _) fun _ => .ite .pure <|
    .bind (.hal_export_funct _ _ _ _ _ _) fun _ => .ite .pure <|
    .bind (.hal_add_funct_to_thread _ _ _) fun _ =>
    .bind (.hal_add_funct_to_thread _ _ _) fun _ => .pure

/-- `init_hal_param` gets its block and the first pin: in the segment `m`, with the memory
of `a`. -/
structure FirstPin (m : Segment) (a : Arena) : Prop where
  memory : (shmalloc_up a.brk TASK_HAL_DATA_SIZE).1 ≠ none
  unlocked : ¬ m.lock &&& HAL_LOCK_LOAD ≠ 0
  free : ∀ p, m.Listed .pin p → (m.pin p).name ≠ enable_in_name
  room : ¬ Arena.Full { a with brk := (shmalloc_up a.brk TASK_HAL_DATA_SIZE).2 } .pin

theorem pin_newf_locked {g : Registry} {base : Addr} {lock : UInt8} {new : Nat} {type : HalType}
    {data_ptr_addr : Addr} {full : CStr} (hl : lock &&& HAL_LOCK_LOAD ≠ 0) :
    (g.pin_newf base lock new type data_ptr_addr comp_id full).1 ≠ 0 ∧
      (g.pin_newf base lock new type data_ptr_addr comp_id full).2 = [] := by
  have hE : -EINVAL ≠ 0 := by decide
  have hM : -ENOMEM ≠ 0 := by decide
  have hP : -EPERM ≠ 0 := by decide
  unfold Registry.pin_newf Registry.pin_new
  split_ifs
  · exact ⟨hM, rfl⟩
  · exact ⟨hE, rfl⟩
  · exact ⟨hP, rfl⟩
  · exact ⟨hE, rfl⟩

/-- The first pin is listed, or nothing is. -/
theorem first_pin_found (h : Inv s L) {c : Nat} {comp : Comp}
    (hf : (view s.shm L).findComp comp_id = some (c, comp)) (hr : comp.ready = 0) {off : Nat}
    (h₀ : 0 < off) (hoff : off < HAL_SIZE) :
    Returns (hal_pin_newf .bit (s.hal_shmem_base + off + ENABLE_IN) comp_id enable_in_name) s
      fun r s' => (r ≠ 0 ∧ s'.rt = s.rt ∧ (∃ L', Moved s L [] s' L') ∧
          ¬ (¬ s.shm.lock &&& HAL_LOCK_LOAD ≠ 0 ∧
            (∀ p, s.shm.Listed .pin p → (s.shm.pin p).name ≠ enable_in_name) ∧
            ¬ s.shm.arena.Full .pin)) ∨
        (r = 0 ∧ Pinned s L s' ∧ ¬ s.shm.lock &&& HAL_LOCK_LOAD ≠ 0 ∧
          (∀ p, s.shm.Listed .pin p → (s.shm.pin p).name ≠ enable_in_name) ∧
          ¬ s.shm.arena.Full .pin) := by
  have hin : SHMCHK s.hal_shmem_base (s.hal_shmem_base + off + ENABLE_IN) = true := by
    simp only [SHMCHK, Bool.and_eq_true, decide_eq_true_eq]
    exact ⟨Nat.lt_add_of_pos_right h₀, Nat.add_lt_add_left hoff _⟩
  have hrefines := hal_pin_newf_refines h .bit (.inl hin) comp_id enable_in_name
  by_cases hl : s.shm.lock &&& HAL_LOCK_LOAD ≠ 0
  · refine hrefines.mono fun r s' hpost => ?_
    obtain ⟨⟨hr', L', hm, hs⟩, _⟩ := hpost
    obtain ⟨hne, hnil⟩ : ((view s.shm L).pin_newf s.hal_shmem_base s.shm.lock
        (s.shm.arena.alloc .pin).1 .bit (s.hal_shmem_base + off + ENABLE_IN) comp_id
        enable_in_name).1 ≠ 0 ∧ _ := pin_newf_locked hl
    rw [hnil] at hm
    exact .inl ⟨hr' ▸ hne, hs.rt, ⟨L', hm⟩, fun hall => hall.1 hl⟩
  refine (hal_pin_newf_found h hf hr hl enable_in_name (by decide) hin).with_eq.mono
    fun r s' hpost => ?_
  obtain ⟨hrun, evs, L', hm, hr0, hadds, _⟩ := hpost
  obtain ⟨⟨-, L'', -, hs⟩, -⟩ := hrefines.of_ok hrun
  rw [h.good.shape.pins_free] at hadds
  rcases hadds with ⟨⟨-, hfree, hroom⟩, rfl⟩ | ⟨hno, rfl⟩
  · refine .inr ⟨hr0.mpr (List.cons_ne_nil _ _), ⟨L', hm.inv, ?_⟩, hl, hfree, hroom⟩
    rw [hm.events]
    show _ < (enter (NameLt Pin.name) _ (view s.shm L).pins).length
    rw [enter_length]
    exact Nat.lt_succ_self _
  · refine .inl ⟨fun e => hr0.mp e rfl, hs.rt, ⟨L', hm⟩, fun hall => hno ⟨by decide, hall.2⟩⟩

/-- **`init_hal_param`** lists the first pin, which stays, or it fails and lists nothing. -/
theorem init_hal_param_found (h : Inv s L) {c : Nat} {comp : Comp}
    (hf : (view s.shm L).findComp comp_id = some (c, comp)) (hr : comp.ready = 0) :
    Wp (init_hal_param comp_id) s (fun r s' =>
        (¬ FirstPin s.shm s.shm.arena ∧ r ≠ 0 ∧ s'.rt = s.rt ∧ ∃ L', Moved s L [] s' L') ∨
        (FirstPin s.shm s.shm.arena ∧ Pinned s L s')) fun _ _ => True := by
  have hneg : (-1 : Int) ≠ 0 := by decide
  have hspan := h.good.shape.mem.span
  unfold init_hal_param
  rw [wp_bind]
  refine (hal_malloc_spec h TASK_HAL_DATA_SIZE).to_wp.mono (fun block s₁ ⟨hb, hs₁⟩ => ?_) fun _ _ => id
  have h₁ : Moved s L [] s₁ L :=
    hs₁ ▸ .grow h (serve_span (r := .up TASK_HAL_DATA_SIZE) hspan (by decide))
  have hrt₁ : s₁.rt = s.rt := by rw [hs₁]; rfl
  cases block with
  | none => exact .inl ⟨fun hp => hp.memory hb.symm, hneg, hrt₁, L, h₁⟩
  | some off =>
      obtain ⟨hlo, hhi, -⟩ := shmalloc_up_some hspan (by decide)
        (show shmalloc_up s.shm.arena.brk TASK_HAL_DATA_SIZE = (some off, _) from
          Prod.ext hb.symm rfl)
      have hpos : 0 < off.toNat ∧ off.toNat < HAL_SIZE := by
        have h₁ := hspan.lo
        have h₂ := hspan.hi
        unfold HAL_DATA_SIZE at h₁
        unfold HAL_SIZE at h₂ ⊢
        unfold TASK_HAL_DATA_SIZE at hhi
        omega
      rw [wp_bind, wp_get, wp_bind, wp_change, wp_bind, wp_change]
      have h₃ := (h₁.setData (s₁.hal_shmem_base + off.toNat + MAX_VELOCITY) 1000).setData
        (s₁.hal_shmem_base + off.toNat + MAX_ACCEL) 500
      set s₃ := (s₁.setData (s₁.hal_shmem_base + off.toNat + MAX_VELOCITY) 1000).setData
        (s₁.hal_shmem_base + off.toNat + MAX_ACCEL) 500 with hs₃
      have hf₃ : (view s₃.shm L).findComp comp_id = some (c, comp) := by
        rw [h₃.events]
        exact hf
      have hfirst : FirstPin s.shm s.shm.arena ↔ ¬ s₃.shm.lock &&& HAL_LOCK_LOAD ≠ 0 ∧
          (∀ p, s₃.shm.Listed .pin p → (s₃.shm.pin p).name ≠ enable_in_name) ∧
          ¬ s₃.shm.arena.Full .pin := by
        have hpins : (∀ p, s₃.shm.Listed .pin p → (s₃.shm.pin p).name ≠ enable_in_name) ↔
            ∀ p, s.shm.Listed .pin p → (s.shm.pin p).name ≠ enable_in_name := by
          rw [← h₃.inv.good.shape.pins_free, h₃.events, Registry.applyAll_nil,
            h.good.shape.pins_free]
        have harena : s₃.shm.arena = { s.shm.arena with
            brk := (shmalloc_up s.shm.arena.brk TASK_HAL_DATA_SIZE).2 } := by
          rw [hs₃, hs₁]
          rfl
        rw [hpins, harena, h₃.lock]
        exact ⟨fun hp => ⟨hp.unlocked, hp.free, hp.room⟩, fun hp =>
          ⟨fun e => Option.some_ne_none off (hb.trans e), hp.1, hp.2.1, hp.2.2⟩⟩
      rw [hfirst]
      show Wp _ s₃ _ _
      unfold hal_pins pin_new
      rw [wp_bind, wp_bind]
      refine (first_pin_found h₃.inv hf₃ hr hpos.1 hpos.2).to_wp.mono (fun r s₄ hout => ?_)
        fun _ _ => id
      rcases hout with ⟨hr0, hrt, ⟨L', hm⟩, hno⟩ | ⟨rfl, ⟨L', hi, hlt⟩, hall⟩
      · rw [if_pos hr0]
        exact .inl ⟨hno, hneg, hrt.trans hrt₁, L', h₃.trans hm⟩
      -- nothing that comes now takes the pin off the list
      rw [h₃.events] at hlt
      rw [← wp_bind]
      refine Wp.mono (Enrolling.pinned ?_ hi hlt) (fun _ _ hp => .inr ⟨hall, hp⟩) fun _ _ => id
      exact .bind (.ite .pure (pin_new_enrolling _ _)) fun _ => .ite .pure <|
        .bind (initial_values_enrolling _) fun _ => .bind (.hal_param_s32_new _ _ _ _ _) fun _ =>
        .ite .pure <| .bind (.hal_param_s32_new _ _ _ _ _) fun _ => .ite .pure .pure

/-- `init_hal_param` keeps what the operations keep. -/
theorem init_hal_param_along {V : Segment → Segment → Prop} {T : State σ → State σ → Prop}
    [Std.Refl T] [IsTrans (State σ) T] (h : Keeps R V T) (comp_id : Int) :
    Along T (init_hal_param comp_id : Prog σ Int) := by
  have hpins : ∀ taskHalData ps, Along T (pin_new taskHalData comp_id ps) := by
    intro taskHalData ps
    induction ps with
    | nil => exact .pure
    | cons p ps ih => exact .bind (h.hal_pin_newf _ _ _ _) fun _ => .ite .pure ih
  have hvalues : ∀ off, Along T (initial_values off) := fun off =>
    .bind h.storeThrough fun _ => .bind h.storeThrough fun _ => .bind h.storeThrough fun _ =>
    .bind h.storeThrough fun _ => .bind h.storeThrough fun _ => .bind h.storeThrough fun _ =>
    h.storeThrough
  refine .bind (h.hal_malloc _) fun block => ?_
  cases block with
  | none => exact .pure
  | some off =>
      exact .bind .get fun _ => .bind (h.set fun _ => ⟨rfl, rfl, rfl⟩) fun _ =>
        .bind (h.set fun _ => ⟨rfl, rfl, rfl⟩) fun _ => .bind (hpins _ _) fun _ => .ite .pure <|
        .bind (hvalues _) fun _ => .bind (h.hal_param_new _ _ _ _ _) fun _ => .ite .pure <|
        .bind (h.hal_param_new _ _ _ _ _) fun _ => .ite .pure .pure

end

end RTS.ExampleTask

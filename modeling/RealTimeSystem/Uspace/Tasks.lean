import RealTimeSystem.Uspace.Shmem

/-!
# RTAPI — tasks

The functions of `uspace_rtapi_app.cpp` on the task table.  Each runs as one step: the placeholder
that `allocate_task_id` leaves in a slot until the task is there is not seen, and a task thread
that runs beside them is not part of the state.

A theorem for each function says what it leaves of the table.
-/

namespace RTS.Uspace

open RTS.Support

/-! ### The functions -/

/-- Store a task in its slot. -/
def Process.setTask (s : Process) (n : Nat) (t : Option Task) : Process :=
  { s with task_array := Function.update s.task_array n t }

@[simp] theorem Process.setTask_self (s : Process) (n : Nat) (t : Option Task) :
    (s.setTask n t).task_array n = t := Function.update_self ..

theorem Process.setTask_of_ne (s : Process) {n i : Nat} (h : i ≠ n) (t : Option Task) :
    (s.setTask n t).task_array i = s.task_array i := Function.update_of_ne h _ _

/-- `allocate_task_id`: the first free slot; `none` is `-ENOSPC`. -/
def allocate_task_id (s : Process) : Option Nat :=
  (List.range MAX_TASKS).find? fun n => (s.task_array n).isNone

/-- The least stack of a task. -/
def MIN_STACK : Nat := 1024 * 1024

/-- The task is for `taskcode`, which is not recorded: HAL has only one. -/
def rtapi_task_new (arg : Addr) (prio owner : Int) (stacksize : Nat) (uses_fp : Int) : Sys Int := do
  let highest : Int ← ask Call.sched_get_priority_max
  if prio > highest then
    return -EINVAL
  let lowest : Int ← ask Call.sched_get_priority_min
  if prio < lowest then
    return -EINVAL
  let s ← get
  match allocate_task_id s with
  | none => return -ENOSPC
  | some n =>
      let pid : Int ← ask Call.getpid
      modify fun s => s.setTask n (some
        { magic := TASK_MAGIC, id := n, owner := owner, uses_fp := uses_fp
          stacksize := max stacksize MIN_STACK, prio := prio, arg := arg, state := .allocated
          owner_pid := pid, error_code := 0 })
      return n

/-- The slot of a task handle, and the task. -/
def get_task (s : Process) (task_id : Int) : Option (Nat × Task) :=
  if task_id < 0 ∨ task_id ≥ MAX_TASKS then none
  else
    match s.task_array task_id.toNat with
    | none => none
    | some t => if t.magic = TASK_MAGIC then some (task_id.toNat, t) else none

/-- The attributes of the new thread, one after the other; the first error. -/
def set_attrs : List Attr → Sys (Option Errno)
  | [] => return none
  | a :: as => do
      let r : Option Errno ← ask (Call.pthread_attr a)
      match r with
      | some e => return some e
      | none => set_attrs as

/-- The calls between the state gate of `task_start` and `pthread_create`. -/
def start_attrs : Sys (Option Errno) := do
  let r ← set_attrs [.init, .setstacksize, .setschedpolicy, .setschedparam, .setinheritsched]
  match r with
  | some e => return some e
  | none =>
      let cpu : Bool ← ask Call.rt_cpu
      if cpu then
        set_attrs [.setaffinity]
      else
        return none

/-- The task gets its period and its thread; where the thread is not made the slot stays allocated. -/
def rtapi_task_start (task_id period_nsec : Int) : Sys Int := do
  let s ← get
  match get_task s task_id with
  | none => return -EINVAL
  | some (n, t) =>
      if t.state = .running then
        return -EALREADY
      if t.state ≠ .allocated then
        return -EINVAL
      let t := { t with
        -- the division is that of the unsigned argument
        period := period_nsec, pll_correction_limit := period_nsec % 2 ^ 64 / 100
        pll_correction := 0 }
      modify fun s => s.setTask n (some t)
      let r ← start_attrs
      match r with
      | some e =>
          modify fun s => s.setTask n (some { t with error_code := e.val })
          return -e.val
      | none =>
          modify fun s => s.setTask n (some { t with state := .running })
          let r : Option Errno ← ask (Call.pthread_create n)
          match r with
          | some e =>
              modify fun s => s.setTask n (some { t with state := .allocated, error_code := e.val })
              return -e.val
          | none => return 0

/-- A task that is not running is refused. -/
def rtapi_task_pause (task_id : Int) : Sys Int := do
  let s ← get
  match get_task s task_id with
  | none => return -EINVAL
  | some (n, t) =>
      if t.state ≠ .running then
        return -EINVAL
      modify fun s => s.setTask n (some { t with state := .paused, pause_sem := t.pause_sem + 1 })
      return 0

/-- A task that is not paused is refused. -/
def rtapi_task_resume (task_id : Int) : Sys Int := do
  let s ← get
  match get_task s task_id with
  | none => return -EINVAL
  | some (n, t) =>
      if t.state ≠ .paused then
        return -EINVAL
      modify fun s => s.setTask n (some { t with resume_sem := t.resume_sem + 1 })
      return 0

/-- The thread is cancelled and joined, and the slot is free. -/
def rtapi_task_delete (id : Int) : Sys Int := do
  let s ← get
  match get_task s id with
  | none => return -EINVAL
  | some (n, t) =>
      if t.state = .deleted then
        return -EALREADY
      if t.state = .empty ∨ t.state = .init then
        return -EINVAL
      if t.state = .paused then
        modify fun s => s.setTask n (some { t with resume_sem := t.resume_sem + 1 })
      let _ ← ask (Call.pthread_cancel n)
      let _ ← ask (Call.pthread_join n)
      modify fun s => s.setTask n none
      return 0

/-- The period is set once. -/
def rtapi_clock_set_period (nsecs : Int) : Sys Int := do
  let s ← get
  if nsecs = 0 then
    return s.period
  if s.period ≠ 0 then
    return -EINVAL
  modify fun s => { s with period := nsecs }
  return nsecs

/-! ### What they leave of the table -/

variable {s : Process} {l : List (Asked Process Call Call.Answer)}

/-- Only the task table and the clock may have changed. -/
structure Tabled (s s' : Process) : Prop where
  shmem : s'.shmem_array = s.shmem_array
  mem_id : s'.uuid_mem_id = s.uuid_mem_id
  data : s'.uuid_data = s.uuid_data
  uuid : s'.uuid = s.uuid

theorem Tabled.setTask (s : Process) (n : Nat) (t : Option Task) : Tabled s (s.setTask n t) :=
  ⟨rfl, rfl, rfl, rfl⟩

theorem Tabled.refl (s : Process) : Tabled s s := ⟨rfl, rfl, rfl, rfl⟩

theorem Tabled.trans {s s' s'' : Process} (h : Tabled s s') (h' : Tabled s' s'') :
    Tabled s s'' :=
  ⟨h'.shmem.trans h.shmem, h'.mem_id.trans h.mem_id, h'.data.trans h.data, h'.uuid.trans h.uuid⟩

/-- A new task is in a slot that was free, or there is none. -/
theorem rtapi_task_new_spec (arg : Addr) (prio owner : Int) (stacksize : Nat) (uses_fp : Int) :
    Every (rtapi_task_new arg prio owner stacksize uses_fp) s l fun _ r s' =>
      (r < 0 ∧ s' = s) ∨
      ∃ (n : Nat) (t : Task), r = (n : Int) ∧ n < MAX_TASKS ∧ s.task_array n = none ∧
        t.arg = arg ∧ t.state = .allocated ∧ t.magic = TASK_MAGIC ∧ s' = s.setTask n (some t) := by
  unfold rtapi_task_new
  simp only [every_bind, every_ask]
  intro highest
  refine .ite (fun _ => .inl ⟨by decide, rfl⟩) fun _ => ?_
  rw [every_bind, every_ask]
  intro lowest
  refine .ite (fun _ => .inl ⟨by decide, rfl⟩) fun _ => ?_
  rw [every_bind, every_get]
  rcases hn : allocate_task_id s with _ | n
  · exact .inl ⟨by decide, rfl⟩
  · intro pid
    have hfree := List.find?_some hn
    have hlt := List.mem_range.mp (List.mem_of_find?_eq_some hn)
    exact .inr ⟨n, _, rfl, hlt, by simpa using hfree, rfl, rfl, rfl, rfl⟩

/-- A task that is found is in the slot of its id, with its magic. -/
theorem get_task_some {id : Int} {n : Nat} {t : Task} (h : get_task s id = some (n, t)) :
    id = (n : Int) ∧ n < MAX_TASKS ∧ s.task_array n = some t ∧ t.magic = TASK_MAGIC := by
  unfold get_task at h
  split_ifs at h with hr
  rcases ht : s.task_array id.toNat with _ | u <;> rw [ht] at h <;> simp only at h
  · cases h
  · split_ifs at h with hm
    obtain ⟨rfl, rfl⟩ := Prod.mk.inj (Option.some.inj h)
    exact ⟨by omega, by omega, ht, hm⟩

/-- The table changes at most at one task, whose argument stays. -/
structure Touched (s : Process) (id : Int) (s' : Process) : Prop extends Tabled s s' where
  period : s'.period = s.period
  others : ∀ n : Nat, (n : Int) ≠ id → s'.task_array n = s.task_array n

theorem Touched.refl (s : Process) (id : Int) : Touched s id s := ⟨.refl s, rfl, fun _ _ => rfl⟩

/-- A store in the slot of the id. -/
theorem Touched.setTask {s' : Process} {id : Int} {n : Nat} (h : Touched s id s') (hn : id = n)
    (t : Option Task) : Touched s id (s'.setTask n t) where
  toTabled := h.toTabled.trans (.setTask s' n t)
  period := h.period
  others i hi := (s'.setTask_of_ne (fun e => hi (by rw [e, hn])) t).trans (h.others i hi)

/-- The task `id` stays, with its argument. -/
def Stays (s : Process) (id : Int) (s' : Process) : Prop :=
  ∀ (n : Nat) (t : Task), id = (n : Int) → s.task_array n = some t →
    ∃ t', s'.task_array n = some t' ∧ t'.arg = t.arg ∧ t'.magic = t.magic

theorem Stays.refl (s : Process) (id : Int) : Stays s id s := fun _ t _ ht => ⟨t, ht, rfl, rfl⟩

/-- A store that keeps the argument and the magic. -/
theorem Stays.setTask {s' : Process} {id : Int} {n : Nat} {t t' : Task}
    (ht : s.task_array n = some t) (ha : t'.arg = t.arg) (hm : t'.magic = t.magic) (hn : id = n) :
    Stays s id (s'.setTask n (some t')) := by
  intro i u hi hu
  obtain rfl : n = i := by omega
  obtain rfl : t = u := Option.some.inj (ht.symm.trans hu)
  exact ⟨t', s'.setTask_self n _, ha, hm⟩

theorem set_attrs_spec (as : List Attr) : Every (set_attrs as) s l fun _ _ s' => s' = s := by
  induction as generalizing l with
  | nil => rfl
  | cons a as ih =>
      unfold set_attrs
      rw [every_bind, every_ask]
      rintro (_ | e)
      · exact ih
      · rfl

theorem start_attrs_spec : Every start_attrs s l fun _ _ s' => s' = s := by
  unfold start_attrs
  rw [every_bind]
  refine (set_attrs_spec _).mono fun _ r s' hs => ?_
  subst hs
  rcases r with _ | e
  · rw [every_bind, every_ask]
    exact fun cpu => .ite (fun _ => set_attrs_spec _) fun _ => rfl
  · rfl

/-- A start touches its own slot, and the task stays in it. -/
theorem rtapi_task_start_spec (task_id period_nsec : Int) :
    Every (rtapi_task_start task_id period_nsec) s l fun _ _ s' =>
      Touched s task_id s' ∧ Stays s task_id s' := by
  unfold rtapi_task_start
  rw [every_bind, every_get]
  rcases hg : get_task s task_id with _ | ⟨n, t⟩
  · exact ⟨.refl _ _, .refl _ _⟩
  obtain ⟨hn, -, ht, -⟩ := get_task_some hg
  refine .ite (fun _ => ⟨.refl _ _, .refl _ _⟩) fun _ => ?_
  refine .ite (fun _ => ⟨.refl _ _, .refl _ _⟩) fun _ => ?_
  rw [every_bind, every_modify, every_bind]
  refine start_attrs_spec.mono fun _ r s' hs => ?_
  subst hs
  rcases r with _ | e
  · rw [every_bind, every_modify, every_bind, every_ask]
    rintro (_ | e)
    · exact ⟨((Touched.refl _ _).setTask hn _).setTask hn _, .setTask ht rfl rfl hn⟩
    · exact ⟨(((Touched.refl _ _).setTask hn _).setTask hn _).setTask hn _, .setTask ht rfl rfl hn⟩
  · exact ⟨((Touched.refl _ _).setTask hn _).setTask hn _, .setTask ht rfl rfl hn⟩

theorem rtapi_task_pause_spec (id : Int) :
    Every (rtapi_task_pause id) s l fun _ _ s' => Touched s id s' := by
  unfold rtapi_task_pause
  rw [every_bind, every_get]
  rcases hg : get_task s id with _ | ⟨n, t⟩
  · exact .refl _ _
  obtain ⟨hn, -⟩ := get_task_some hg
  exact .ite (fun _ => .refl _ _) fun _ => (Touched.refl _ _).setTask hn _

/-- A deletion touches its own slot. -/
theorem rtapi_task_delete_spec (id : Int) :
    Every (rtapi_task_delete id) s l fun _ _ s' => Touched s id s' := by
  unfold rtapi_task_delete
  rw [every_bind, every_get]
  rcases hg : get_task s id with _ | ⟨n, t⟩
  · exact .refl _ _
  obtain ⟨hn, -⟩ := get_task_some hg
  refine .ite (fun _ => .refl _ _) fun _ => .ite (fun _ => .refl _ _) fun _ => ?_
  refine .ite (fun _ => ?_) fun _ => ?_
  · exact fun _ _ => ((Touched.refl _ _).setTask hn _).setTask hn _
  · exact fun _ _ => (Touched.refl _ _).setTask hn _

/-- The period is none of the tasks. -/
theorem rtapi_clock_set_period_spec (nsecs : Int) :
    Every (rtapi_clock_set_period nsecs) s l fun _ _ s' =>
      Tabled s s' ∧ s'.task_array = s.task_array := by
  unfold rtapi_clock_set_period
  rw [every_bind, every_get]
  refine .ite (fun _ => ⟨.refl _, rfl⟩) fun _ => .ite (fun _ => ⟨.refl _, rfl⟩) fun _ => ?_
  exact ⟨⟨rfl, rfl, rfl, rfl⟩, rfl⟩

/-! ### What leaves the table alone -/

/-- The tasks are as before. -/
def SameTasks (s s' : Process) : Prop := s'.task_array = s.task_array

instance : Std.Refl SameTasks := ⟨fun _ => rfl⟩

instance : IsTrans Process SameTasks := ⟨fun _ _ _ h h' => Eq.trans h' h⟩

namespace SameTasks

theorem onSlot (i : Nat) (f : Handle → Handle) : Throughout SameTasks (onSlot i f) :=
  .modify fun _ => rfl

theorem shmget_again (key size : Int) (n : Nat) :
    Throughout SameTasks (shmget_again key size n) := by
  induction n with
  | zero => exact .ask
  | succ n ih =>
      refine .bind .ask fun r => ?_
      rcases r with e | id
      · exact .ite ih .pure
      · exact .pure

theorem shmem_attach (i : Nat) (key : Int) (size id : Nat) :
    Throughout SameTasks (shmem_attach i key size id) := by
  refine .bind .ask fun r => ?_
  rcases r with e | m
  · exact .bind (onSlot _ _) fun _ => .bind .ask fun _ => .bind (onSlot _ _) fun _ => .pure
  · exact .bind (.modify fun _ => rfl) fun _ => .bind (onSlot _ _) fun _ =>
      .bind (onSlot _ _) fun _ => .pure

theorem shmem_create (i : Nat) (key : Int) (size : Nat) :
    Throughout SameTasks (shmem_create i key size) := by
  refine .bind .ask fun _ => .bind (onSlot _ _) fun _ => .bind (shmget_again _ _ _) fun r => ?_
  rcases r with e | id
  · exact .bind (onSlot _ _) fun _ => .pure
  · exact .bind (onSlot _ _) fun _ => .bind .ask fun _ => .bind .ask fun _ =>
      .ite (.bind .ask fun _ => shmem_attach _ _ _ _) (shmem_attach _ _ _ _)

theorem rtapi_shmem_new (key module_id : Int) (size : Nat) :
    Throughout SameTasks (rtapi_shmem_new key module_id size) := by
  refine .ite .pure <| .ite .pure <| .bind .get fun s => ?_
  rcases scan s.shmem_array key MAX_SHM 0 none with i | _ | i
  · exact .bind (onSlot _ _) fun _ => .pure
  · exact .pure
  · exact shmem_create _ _ _

theorem rtapi_shmem_getptr (handle : Int) : Throughout SameTasks (rtapi_shmem_getptr handle) :=
  .ite .pure <| .bind .get fun _ => .ite .pure <| .ite .pure .pure

theorem rtapi_shmem_delete (handle module_id : Int) :
    Throughout SameTasks (rtapi_shmem_delete handle module_id) := by
  refine .ite .pure <| .bind .get fun _ => .ite .pure <| .bind (onSlot _ _) fun _ =>
    .ite .pure <| .bind (.bind .get fun _ => .ite (.bind .ask fun r => ?_) .pure) fun _ =>
    .bind (.bind .get fun _ => .bind .ask fun d => ?_) fun _ =>
    .bind (onSlot _ _) fun _ => .ite .pure .pure
  · rcases r with e | _ <;> exact .bind (onSlot _ _) fun _ => .pure
  · rcases d with e | nattch
    · exact .bind (onSlot _ _) fun _ => .pure
    · refine .ite (.bind .ask fun r => ?_) .pure
      rcases r with e | _ <;> exact .bind (onSlot _ _) fun _ => .pure

theorem rtapi_exit (module_id : Int) : Throughout SameTasks (rtapi_exit module_id) :=
  .bind .get fun _ => .bind (rtapi_shmem_delete _ _) fun _ => .pure

theorem rtapi_init (modname : CStr) : Throughout SameTasks (rtapi_init modname) :=
  .bind (rtapi_shmem_new _ _ _) fun _ => .bind (.modify fun _ => rfl) fun _ =>
    .ite (.bind (rtapi_exit _) fun _ => .pure) <| .bind (rtapi_shmem_getptr _) fun _ =>
    .ite (.bind (rtapi_exit _) fun _ => .pure) <|
    .bind (.modify fun s => by
      by_cases h : s.uuid_data = 0 <;> simp only [h, if_true, if_false] <;> rfl)
    fun _ => .bind (.modify fun _ => rfl) fun _ => .bind .get fun _ => .pure

end SameTasks

/-- A task of `rtapi_task_new`. -/
def aTask : Task :=
  { magic := TASK_MAGIC, id := 0, owner := 1, uses_fp := 0, stacksize := MIN_STACK, prio := 50
    arg := 0, state := .allocated, owner_pid := 7, error_code := 0 }

end RTS.Uspace

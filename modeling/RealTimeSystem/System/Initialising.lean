import RealTimeSystem.System.Boot

/-!
# System — HAL is initialised again

A second process attaches to the HAL segment of a first one and initialises it, by `hal_app_main` or
inside its first `hal_init`.  `init_hal_data` never asks whether that is needed.

**`untouched_iff`**: the segment of the first process is as it was if and only if nothing was
registered in it.
-/

namespace RTS.Hal

open RTS.Support RTS.Uspace

variable {σ : Type} {R : Rtapi σ} {m m' : Segment} {s p p' : State σ}

/-! ### What initialising does to a segment -/

/-- The segment after `init_hal_data`. -/
def Segment.initialised (m : Segment) (pid : Int) : Segment :=
  let pool : Kind → Pool := fun k =>
    match k with
    | .pin => m.arena.pool .pin
    | .oldname => { m.arena.pool .oldname with free_ptr := 0 }
    | k => { m.arena.pool k with list_ptr := 0, free_ptr := 0 }
  { m with
    arena :=
      { m.arena with pool := pool, brk := m.arena.brk.init }.list_init_entry FUNCT_ENTRY_FREE
    base_period := 0, threads_running := 0, pending_constructor := 0, constructor_prefix := []
    exact_base_period := 0, lock := HAL_LOCK_NONE, state := .active, init_pid := pid
    error_code := 0, mutex := false }

theorem init_hal_data_run (R : Rtapi σ) (s : State σ) :
    Wp (init_hal_data R) s (fun r s' => r = 0 ∧ ∃ pid, s'.shm = s.shm.initialised pid)
      fun _ _ => True := by
  unfold init_hal_data rtapi_mutex_get
  simp only [wp_bind, wp_get]
  refine .ite (fun _ => trivial) fun _ => ?_
  rw [wp_bind, wp_modify]
  refine .ite (fun _ => trivial) fun _ => ?_
  exact ⟨rfl, (R.getpid s.rt).1, rfl⟩

/-- A call that initialises the segment, or fails before it gets to it. -/
def Initialises (R : Rtapi σ) (p : State σ) (r : Int) (p' : State σ) : Prop :=
  hal_app_main R p = .ok r p' ∨ hal_init_lib R p = .ok r p'

theorem initialises_shm {r : Int} (h : Initialises R p r p') :
    (r = 0 ∧ ∃ pid, p'.shm = p.shm.initialised pid) ∨ (r ≠ 0 ∧ p'.shm = p.shm) := by
  have hneg : -EINVAL ≠ 0 := by decide
  rcases h with h | h
  · have hmain : Wp (hal_app_main R) p (fun r p' => (r = 0 ∧ ∃ pid, p'.shm = p.shm.initialised pid) ∨
        (r ≠ 0 ∧ p'.shm = p.shm)) fun _ _ => True := by
      unfold hal_app_main
      simp only [wp_bind, wp_call, wp_modify]
      refine .ite (fun _ => .inr ⟨hneg, rfl⟩) fun _ => ?_
      refine .ite (fun _ => .inr ⟨hneg, rfl⟩) fun _ => ?_
      refine .ite (fun _ => .inr ⟨hneg, rfl⟩) fun _ => ?_
      rw [wp_bind, wp_modify, wp_bind, wp_change, wp_bind]
      refine (init_hal_data_run R _).mono (fun r s hpost => ?_) fun _ _ => id
      obtain ⟨hr, hs⟩ := hpost
      refine .ite (fun hne => absurd hr hne) fun _ => .inl ⟨rfl, hs⟩
    exact hmain.of_ok h
  · have hlib : Wp (hal_init_lib R) p (fun r p' => (r = 0 ∧ ∃ pid, p'.shm = p.shm.initialised pid) ∨
        (r ≠ 0 ∧ p'.shm = p.shm)) fun _ _ => True := by
      unfold hal_init_lib
      simp only [wp_bind, wp_get]
      refine .ite (fun _ => .inr ⟨hneg, rfl⟩) fun _ => ?_
      refine .ite (fun _ => .inr ⟨hneg, rfl⟩) fun _ => ?_
      refine .ite (fun _ => .inr ⟨hneg, rfl⟩) fun _ => ?_
      refine .ite (fun _ => .inr ⟨hneg, rfl⟩) fun _ => ?_
      rw [wp_bind, wp_modify, wp_bind]
      refine (init_hal_data_run R _).mono (fun r s hpost => ?_) fun _ _ => id
      obtain ⟨hr, hs⟩ := hpost
      refine .ite (fun hne => absurd hr hne) fun _ => .inl ⟨rfl, hs⟩
    exact hlib.of_ok h

/-! ### What it takes from the first process -/

/-- What is registered, scheduled and handed out is the same in both segments, and the threads
still run if they did. -/
structure Untouched (m m' : Segment) : Prop where
  lists : ∀ k ∈ [Kind.comp, .funct, .param, .pin, .thread], ∀ xs,
    Chain (m'.arena.pool k).next_ptr (m'.arena.pool k).list_ptr xs ↔
      Chain (m.arena.pool k).next_ptr (m.arena.pool k).list_ptr xs
  comp : ∀ x, m.Listed .comp x → m'.comp x = m.comp x
  funct : ∀ x, m.Listed .funct x → m'.funct x = m.funct x
  param : ∀ x, m.Listed .param x → m'.param x = m.param x
  pin : ∀ x, m.Listed .pin x → m'.pin x = m.pin x
  thread : ∀ x, m.Listed .thread x → m'.thread x = m.thread x
  mounted : ∀ t, m.Listed .thread t → ∀ es,
    (Ring m'.arena.links (t + THREAD_FUNCT_LIST) es ↔
      Ring m.arena.links (t + THREAD_FUNCT_LIST) es) ∧
    (Ring m.arena.links (t + THREAD_FUNCT_LIST) es → ∀ e ∈ es, m'.entry e = m.entry e)
  shmem_bot : m'.arena.brk.shmem_bot = m.arena.brk.shmem_bot
  shmem_top : m'.arena.brk.shmem_top = m.arena.brk.shmem_top
  threads_running : m'.threads_running = m.threads_running

/-- Nothing is registered but pins, nothing is handed out, and no thread runs. -/
structure Segment.Vacant (m : Segment) : Prop where
  comp : (m.arena.pool .comp).list_ptr = 0
  funct : (m.arena.pool .funct).list_ptr = 0
  param : (m.arena.pool .param).list_ptr = 0
  thread : (m.arena.pool .thread).list_ptr = 0
  shmem_bot : m.arena.brk.shmem_bot = HAL_DATA_SIZE
  shmem_top : m.arena.brk.shmem_top = HAL_SIZE
  threads_running : m.threads_running = 0

theorem Untouched.refl (m : Segment) : Untouched m m :=
  ⟨fun _ _ _ => .rfl, fun _ _ => rfl, fun _ _ => rfl, fun _ _ => rfl, fun _ _ => rfl, fun _ _ => rfl,
    fun _ _ _ => ⟨.rfl, fun _ _ _ => rfl⟩, rfl, rfl, rfl⟩

/-- A list that initialising empties was empty. -/
theorem Untouched.list_nil {k : Kind} (h : Untouched m m')
    (hk : k ∈ [Kind.comp, .funct, .param, .pin, .thread]) (h0 : (m'.arena.pool k).list_ptr = 0) :
    (m.arena.pool k).list_ptr = 0 :=
  (h.lists k hk []).mp h0

theorem untouched_initialised (pid : Int) : Untouched m (m.initialised pid) ↔ m.Vacant := by
  constructor
  · intro h
    exact
      { comp := h.list_nil (by decide) rfl
        funct := h.list_nil (by decide) rfl
        param := h.list_nil (by decide) rfl
        thread := h.list_nil (by decide) rfl
        shmem_bot := h.shmem_bot.symm
        shmem_top := h.shmem_top.symm
        threads_running := h.threads_running.symm }
  · intro h
    have hnone : ∀ t, ¬ m.Listed .thread t := fun _ => Segment.not_listed h.thread
    refine
      { lists := ?_
        comp := fun _ _ => rfl
        funct := fun _ _ => rfl
        param := fun _ _ => rfl
        pin := fun _ _ => rfl
        thread := fun _ _ => rfl
        mounted := fun t ht => absurd ht (hnone t)
        shmem_bot := h.shmem_bot.symm
        shmem_top := h.shmem_top.symm
        threads_running := h.threads_running.symm }
    intro k hk xs
    have hlist : ((m.initialised pid).arena.pool k).list_ptr = (m.arena.pool k).list_ptr := by
      cases k with
      | comp => exact h.comp.symm
      | funct => exact h.funct.symm
      | param => exact h.param.symm
      | thread => exact h.thread.symm
      | pin => rfl
      | oldname => simp at hk
      | entry => simp at hk
    have hnext : ((m.initialised pid).arena.pool k).next_ptr = (m.arena.pool k).next_ptr := by
      cases k <;> rfl
    rw [hlist, hnext]

/-- **A second initialisation harms nothing if and only if there is nothing.** -/
theorem untouched_iff (hp : p.shm = s.shm) (hrun : Initialises R p 0 p') :
    Untouched s.shm p'.shm ↔ s.shm.Vacant := by
  obtain ⟨-, pid, hs⟩ | ⟨hr, -⟩ := initialises_shm hrun
  · rw [hs, hp]
    exact untouched_initialised pid
  · exact absurd rfl hr

/-- A process that fails to attach leaves the segment alone. -/
theorem untouched_of_failed {r : Int} (hp : p.shm = s.shm) (hr : r ≠ 0)
    (hrun : Initialises R p r p') : Untouched s.shm p'.shm := by
  obtain ⟨h0, -⟩ | ⟨-, hs⟩ := initialises_shm hrun
  · exact absurd h0 hr
  · rw [hs, hp]
    exact .refl _

/-- A second process, before it initialises the segment of the first one. -/
def beside (s : State Machine) : State Machine := { fresh with shm := s.shm }

theorem beside_shm (s : State Machine) : (beside s).shm = s.shm := rfl

/-- The second process after `hal_app_main`. -/
def taken (s : State Machine) : State Machine := after (hal_app_main (rtapi serving)) (beside s)

theorem started_untouched : Untouched started.shm (taken started).shm := by
  have hrun : Initialises (rtapi serving) (beside started) 0 (taken started) :=
    .inl (result_eq (by decide +kernel))
  refine (untouched_iff (beside_shm _) hrun).mpr ?_
  constructor <;> decide +kernel

/-- The component, the function, the parameter and the thread of the first process are gone. -/
theorem scheduled_touched : ¬ ∀ s p p' : State Machine, Reachable (rtapi serving) s →
    s.shm.state = .active ∨ s.shm.state = .running → p.shm = s.shm →
    Initialises (rtapi serving) p 0 p' → Untouched s.shm p'.shm := by
  intro h
  have hrun : Initialises (rtapi serving) (beside scheduled) 0 (taken scheduled) :=
    .inl (result_eq (by decide +kernel))
  have hvacant := (untouched_iff (beside_shm _) hrun).mp
    (h scheduled _ _ scheduled_reachable (.inl (by decide +kernel)) (beside_shm _) hrun)
  exact absurd hvacant.comp (by decide +kernel)

end RTS.Hal

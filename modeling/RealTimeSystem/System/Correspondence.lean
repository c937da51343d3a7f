import RealTimeSystem.System.References

/-!
# System — threads and tasks

Every listed thread has a task of its own, whose argument is that thread, and no task is paused or
deleted while its thread is listed.  The half-built thread of a `hal_create_thread` that fails has
the task 0 until it gets its own: when there is no task for it, the rollback pauses and deletes
task 0, and that is the task of the first thread.
-/

namespace RTS.Uspace

open RTS.Support RTS.Hal

variable {K : Kernel} {s s' s₁ : State Machine} {m : Machine} {L L' : Lists} {op : Op}

/-! ### The table while a thread is made -/

/-- The tables differ at most at `n`. -/
def SameBut (n : Nat) (p p' : Process) : Prop := ∀ i, i ≠ n → p'.task_array i = p.task_array i

theorem SameBut.trans {n : Nat} {p p' p'' : Process} (h : SameBut n p p') (h' : SameBut n p' p'') :
    SameBut n p p'' := fun i hi => (h' i hi).trans (h i hi)

theorem Touched.sameBut {p p' : Process} {n : Nat} (h : Touched p n p') : SameBut n p p' :=
  fun i hi => h.others i (by omega)

theorem unmake_sameBut (n : Nat) : SameBut n m.process (unmake (rtapi K) n m).process :=
  (task_pause_result _).sameBut.trans (task_delete_result _).sameBut

/-- The three ways the task of a new thread turns out: there is none, and task 0 is struck; it does
not start, and it is struck itself; or it is there. -/
theorem make_task_result (base : Addr) (module : Int) (new : Nat) {th : Thread}
    (hz : th.task_id = 0) {p : Making Machine}
    (hp : p = make_task (rtapi K) base module new th m) :
    (((rtapi K).task_new (base + new) th.priority module HAL_STACKSIZE th.uses_fp m).1 < 0 ∧
        (∃ e, p.made = .error e) ∧ p.struck = [0, 0] ∧ SameBut 0 m.process p.rt.process) ∨
      ∃ n : Nat, m.process.task_array n = none ∧ n < MAX_TASKS ∧ SameBut n m.process p.rt.process ∧
        (((∃ e, p.made = .error e) ∧ p.struck = [(n : Int), n, n]) ∨
          (p.made = .ok { th with task_id := n } ∧ p.struck = [] ∧
            ∃ t, p.rt.process.task_array n = some t ∧ t.arg = base + new ∧
              t.magic = TASK_MAGIC)) := by
  subst hp
  simp only [make_task]
  rcases task_new_result (K := K) (m := m) (base + new) th.priority module HAL_STACKSIZE
    th.uses_fp with ⟨hneg, hs⟩ | ⟨n, t, hr, hfree, ha, hm, hn, hs⟩
  · rw [if_pos hneg, hz]
    refine .inl ⟨hneg, ⟨_, rfl⟩, rfl, ?_⟩
    have := unmake_sameBut (K := K) (m := ((rtapi K).task_new (base + new) th.priority module
      HAL_STACKSIZE th.uses_fp m).2) 0
    rwa [SameBut, hs] at this
  · have hnew : SameBut n m.process ((rtapi K).task_new (base + new) th.priority module
        HAL_STACKSIZE th.uses_fp m).2.process := fun i hi => by
      rw [hs]
      exact Process.setTask_of_ne _ hi _
    rw [if_neg (by rw [hr]; omega), hr]
    set m₁ := ((rtapi K).task_new (base + new) th.priority module HAL_STACKSIZE th.uses_fp m).2
    obtain ⟨htouch, hstays⟩ := task_start_result (K := K) (m := m₁) n th.period
    refine .inr ⟨n, hfree, hn, ?_⟩
    split
    · exact ⟨hnew.trans (htouch.sameBut.trans ((task_delete_result _).sameBut.trans
        (unmake_sameBut n))), .inl ⟨⟨_, rfl⟩, rfl⟩⟩
    · obtain ⟨t', ht', ha', hm'⟩ := hstays n t rfl (by rw [hs]; exact Process.setTask_self ..)
      exact ⟨hnew.trans htouch.sameBut, .inr ⟨rfl, rfl, t', ht', ha'.trans ha, hm'.trans hm⟩⟩

/-! ### The correspondence -/

/-- The thread `t` has a live task, whose argument it is. -/
def HasTask (s : State Machine) (t : Nat) : Prop :=
  ∃ n task, get_task s.rt.process (s.shm.thread t).task_id = some (n, task) ∧
    task.arg = s.hal_shmem_base + t

/-- The task belongs to no listed thread. -/
def Free (m : Segment) (L : Lists) (id : Int) : Prop := ∀ t ∈ L.act .thread, (m.thread t).task_id ≠ id

/-- Every listed thread has its task, and no task was struck while its thread was listed. -/
structure Tied (s : State Machine) (L : Lists) : Prop where
  tasks : ∀ t ∈ L.act .thread, HasTask s t
  spared : ∀ k ∈ s.strikes, ∀ t, k.shm.Listed .thread t → (k.shm.thread t).task_id ≠ k.task_id

theorem hasTask_iff {t : Nat} : HasTask s t ↔ ∃ (n : Nat) (task : Task),
    (s.shm.thread t).task_id = n ∧ n < MAX_TASKS ∧ s.rt.process.task_array n = some task ∧
      task.magic = TASK_MAGIC ∧ task.arg = s.hal_shmem_base + t := by
  constructor
  · rintro ⟨n, task, hg, ha⟩
    obtain ⟨hid, hn, ht, hm⟩ := get_task_some hg
    exact ⟨n, task, hid, hn, ht, hm, ha⟩
  · rintro ⟨n, task, hid, hn, ht, hm, ha⟩
    refine ⟨n, task, ?_, ha⟩
    unfold get_task
    rw [hid, if_neg (by omega)]
    simp [ht, hm]

theorem mem_heads {m : Segment} {t : Nat} {th : Thread} :
    (t, th) ∈ (view m L).heads ↔ t ∈ L.act .thread ∧ m.thread t = th := by
  rw [heads_view, List.mem_map]
  constructor
  · rintro ⟨u, hu, e⟩
    obtain ⟨rfl, rfl⟩ := Prod.mk.inj e
    exact ⟨hu, rfl⟩
  · rintro ⟨ht, rfl⟩
    exact ⟨t, ht, rfl⟩

/-- The threads have the tasks they had, and the tasks are as before. -/
theorem Tied.same (h : Tied s L)
    (hheads : ∀ t th, (t, th) ∈ (view s'.shm L').heads →
      ∃ th₀, (t, th₀) ∈ (view s.shm L).heads ∧ th.task_id = th₀.task_id)
    (htasks : s'.rt.process.task_array = s.rt.process.task_array)
    (hbase : s'.hal_shmem_base = s.hal_shmem_base) (hstrikes : s'.strikes = s.strikes) :
    Tied s' L' where
  tasks t ht := by
    obtain ⟨th₀, hmem, hrec⟩ := hheads t _ (mem_heads.mpr ⟨ht, rfl⟩)
    obtain ⟨hu, rfl⟩ := mem_heads.mp hmem
    obtain ⟨n, task, hid, hn, htab, hm, ha⟩ := hasTask_iff.mp (h.tasks t hu)
    exact hasTask_iff.mpr ⟨n, task, by rw [hrec, hid], hn, by rw [htasks, htab], hm, by rw [hbase, ha]⟩
  spared := by rw [hstrikes]; exact h.spared

variable (K) in
/-- `hal_create_thread` passes its checks and gets a structure, and RTAPI has no task for it. -/
def Untasked (s : State Machine) : Op → Prop
  | .hal_create_thread name period_nsec uses_fp priority =>
      Admits s name period_nsec ∧ s.shm.halpr_find_thread_by_name name = some 0 ∧
        ¬ s.shm.arena.Full .thread ∧ (s.shm.arena.pool .thread).list_ptr ≠ 0 ∧
        ((rtapi K).task_new (s.hal_shmem_base + (s.shm.arena.alloc .thread).1) priority
          s.lib_module_id HAL_STACKSIZE uses_fp s.rt).1 < 0
  | _ => False

variable (K) in
/-- No thread is deleted, and no thread without a task is made while task 0 is that of a listed
thread. -/
def Careful (s : State Machine) (op : Op) : Prop :=
  ¬ op.Deletes ∧ ¬ (Untasked K s op ∧ ∃ t, s.shm.Listed .thread t ∧ (s.shm.thread t).task_id = 0)

/-! ### One operation -/

theorem Tied.free_of_none (h : Tied s L) {n : Nat} (hn : s.rt.process.task_array n = none) :
    Free s.shm L n := fun t ht e => by
  obtain ⟨i, task, hid, -, htab, -⟩ := hasTask_iff.mp (h.tasks t ht)
  obtain rfl : i = n := by omega
  rw [hn] at htab
  cases htab

/-- What making a thread does to the tasks: only one of no listed thread changes, only that one is
struck, and it is the task of the new thread. -/
structure Handled (s : State Machine) (L : Lists) (new : Nat) (p : Making Machine) (n : Nat) :
    Prop where
  others : SameBut n s.rt.process p.rt.process
  free : Free s.shm L n
  struck : ∀ k ∈ p.struck, k = (n : Int)
  made : ∀ th, p.made = .ok th → th.task_id = n ∧ n < MAX_TASKS ∧
    ∃ t, p.rt.process.task_array n = some t ∧ t.arg = s.hal_shmem_base + new ∧ t.magic = TASK_MAGIC

/-- Nothing happened. -/
theorem Tied.handled (h : Tied s L) {new : Nat} {p : Making Machine} {e : Int}
    (hrt : p.rt = s.rt) (hstruck : p.struck = []) (hmade : p.made = .error e) :
    Handled s L new p MAX_TASKS where
  others := by rw [hrt]; exact fun _ _ => rfl
  free t ht e := by
    obtain ⟨n, task, hid, hn, -⟩ := hasTask_iff.mp (h.tasks t ht)
    omega
  struck := by rw [hstruck]; exact fun _ hk => absurd hk List.not_mem_nil
  made th hth := by rw [hmade] at hth; cases hth

/-- The task of a new thread, made by RTAPI in the state `m`. -/
theorem Tied.make_task (h : Tied s L) {new : Nat} {th : Thread} (hz : th.task_id = 0)
    (htasks : m.process.task_array = s.rt.process.task_array)
    (h₀ : ((rtapi K).task_new (s.hal_shmem_base + new) th.priority s.lib_module_id HAL_STACKSIZE
      th.uses_fp m).1 < 0 → Free s.shm L 0) :
    ∃ n, Handled s L new (Hal.make_task (rtapi K) s.hal_shmem_base s.lib_module_id new th m) n := by
  have hsame : ∀ {n p}, SameBut n m.process p → SameBut n s.rt.process p := fun hb i hi => by
    rw [hb i hi, htasks]
  rcases make_task_result (K := K) (m := m) s.hal_shmem_base s.lib_module_id new hz rfl with
    ⟨hneg, ⟨e, he⟩, hstruck, hb⟩ | ⟨n, hnone, hn, hb, ⟨⟨e, he⟩, hstruck⟩ | ⟨hok, hstruck, ht⟩⟩
  · refine ⟨0, hsame hb, h₀ hneg, fun k hk => ?_, fun th' hth => by rw [he] at hth; cases hth⟩
    rw [hstruck] at hk
    simpa using hk
  · refine ⟨n, hsame hb, h.free_of_none (by rw [← htasks, hnone]), fun k hk => ?_,
      fun th' hth => by rw [he] at hth; cases hth⟩
    rw [hstruck] at hk
    simpa using hk
  · refine ⟨n, hsame hb, h.free_of_none (by rw [← htasks, hnone]), fun k hk => ?_, fun th' hth => ?_⟩
    · rw [hstruck] at hk
      exact absurd hk List.not_mem_nil
    · rw [hok] at hth
      cases hth
      exact ⟨rfl, hn, ht⟩

theorem clock_fits_tasks (period_nsec : Nat) :
    (clock_fits (rtapi K) period_nsec m).2.process.task_array = m.process.task_array := by
  have h₁ := (clock_set_period_result (K := K) (m := m) 0).2
  have h₂ := (clock_set_period_result (K := K) (m := ((rtapi K).clock_set_period 0 m).2)
    (toInt64 period_nsec)).2
  simp only [clock_fits]
  split
  · split <;> exact h₂.trans h₁
  · exact h₁

theorem Tied.making (h : Tied s L) (hinv : Inv s L) {name : CStr} {period_nsec : Nat}
    {uses_fp priority : Int} (hadm : Admits s name period_nsec)
    (hc : Careful K s (.hal_create_thread name period_nsec uses_fp priority)) :
    ∃ n, Handled s L (s.shm.arena.alloc .thread).1
      (Hal.making (rtapi K) s L name period_nsec uses_fp priority) n := by
  simp only [Hal.making, make_thread]
  split
  · exact ⟨_, h.handled rfl rfl rfl⟩
  rename_i hdup
  split
  · exact ⟨_, h.handled rfl rfl rfl⟩
  rename_i hnew
  split
  · -- the first thread: no task is that of a listed thread
    rename_i hnil
    have hact : L.act .thread = [] := List.map_eq_nil_iff.mp hnil
    have hfree : ∀ n, Free s.shm L n := fun n t ht => by
      rw [hact] at ht
      exact absurd ht List.not_mem_nil
    split
    · exact h.make_task rfl (clock_fits_tasks period_nsec) fun _ => hfree 0
    · refine ⟨0, fun i hi => ?_, hfree 0, fun k hk => by simpa using hk, fun th hth => by cases hth⟩
      exact (unmake_sameBut (K := K) (m := (clock_fits (rtapi K) period_nsec s.rt).2) 0 i hi).trans
        (congrFun (clock_fits_tasks period_nsec) i)
  · rename_i hnil
    refine h.make_task rfl rfl fun hneg t ht h0 => hc.2 ⟨⟨hadm, ?_, ?_, ?_, hneg⟩, t, ?_, h0⟩
    · rcases find_thread_cases hinv.good.shape name with ⟨hf, -⟩ | ⟨x, hx, -, -, -, hname⟩
      · exact hf
      · exact absurd ⟨slot s.shm L x, List.mem_map_of_mem hx, hname⟩ hdup
    · exact fun hf => hnew (by rw [Shape.alloc_full hf])
    · exact fun e => hnil ((threads_nil_iff hinv.good.shape).mpr e)
    · exact hinv.good.shape.listed.mpr ht

/-- What is struck on the way is not the task of a listed thread. -/
theorem Handled.spared {new n : Nat} {p : Making Machine} {k : Strike} (hh : Handled s L new p n)
    (hk : k.task_id ∈ p.struck) (hsees : k.Sees s.shm L) (t : Nat)
    (ht : k.shm.Listed .thread t) : (k.shm.thread t).task_id ≠ k.task_id := by
  obtain ⟨L', hshape, hact, hthreads⟩ := hsees
  have hmem : t ∈ L.act .thread := hact ▸ hshape.listed.mp ht
  rw [hthreads t hmem, hh.struck _ hk]
  exact hh.free t hmem

/-- The threads that were listed keep their tasks while another is made. -/
theorem Tied.tasked (h : Tied s L) {new n : Nat} {p : Making Machine} (hh : Handled s L new p n)
    (ht : Tasked s L p.rt p.struck s') (hbase : s'.hal_shmem_base = s.hal_shmem_base) :
    (∀ t ∈ L.act .thread, s'.shm.thread t = s.shm.thread t → HasTask s' t) ∧
      ∀ k ∈ s'.strikes, ∀ t, k.shm.Listed .thread t → (k.shm.thread t).task_id ≠ k.task_id := by
  refine ⟨fun t htl hrec => ?_, fun k hk t htl => ?_⟩
  · obtain ⟨i, task, hid, hi, htab, hm, ha⟩ := hasTask_iff.mp (h.tasks t htl)
    have hne : i ≠ n := fun e => hh.free t htl (by rw [hid, e])
    refine hasTask_iff.mpr ⟨i, task, by rw [hrec, hid], hi, ?_, hm, by rw [hbase, ha]⟩
    rw [ht.rt, hh.others i hne, htab]
  · obtain ⟨ks, hks, hmap, hsees⟩ := ht.strikes
    rw [hks] at hk
    rcases List.mem_append.mp hk with hk | hk
    · exact hh.spared (hmap ▸ List.mem_map_of_mem hk) (hsees k hk) t htl
    · exact h.spared k hk t htl

/-- The tasks after a `hal_init`. -/
theorem init_rt_tasks (name : CStr) (evs : List Event) :
    (init_rt (rtapi K) name evs m).process.task_array = m.process.task_array := by
  have hinit := perform_of_every (K := K) (m := m) (SameTasks.rtapi_init (rtapi_name name) _ [])
  simp only [init_rt]
  split
  · rfl
  split
  · have hexit := perform_of_every (K := K) (m := ((rtapi K).init (rtapi_name name) m).2)
      (SameTasks.rtapi_exit ((rtapi K).init (rtapi_name name) m).1 _ [])
    exact hexit.trans hinit
  · exact hinit

theorem Tied.created (h : Tied s L) (hinv : Inv s L) {name : CStr} {period_nsec : Nat}
    {uses_fp priority : Int} (hc : Careful K s (.hal_create_thread name period_nsec uses_fp priority))
    (hcr : Created (rtapi K) s L name period_nsec uses_fp priority s' L') : Tied s' L' := by
  cases hcr with
  | refused _ => exact h
  | undone hadm _ hm ht =>
      obtain ⟨n, hh⟩ := h.making hinv hadm hc
      obtain ⟨htasks, hspared⟩ := h.tasked hh ht hm.base
      have hheads : (view s'.shm L').heads = (view s.shm L).heads := congrArg Registry.heads hm.events
      refine ⟨fun t htl => ?_, hspared⟩
      have hmem : (t, s'.shm.thread t) ∈ (view s'.shm L').heads := mem_heads.mpr ⟨htl, rfl⟩
      rw [hheads] at hmem
      obtain ⟨htl₀, hrec⟩ := mem_heads.mp hmem
      exact htasks t htl₀ hrec.symm
  | @done th s₁ _ L₁ _ hadm hmade _ hm ht ho =>
      obtain ⟨n, hh⟩ := h.making hinv hadm hc
      obtain ⟨htasks, hspared⟩ := h.tasked hh ht hm.base
      have hheads : (view s₁.shm L₁).heads =
          ((s.shm.arena.alloc .thread).1, th) :: (view s.shm L).heads := by
        rw [hm.events]
        rfl
      have h₁ : Tied s₁ L₁ := by
        refine ⟨fun t htl => ?_, hspared⟩
        have hmem : (t, s₁.shm.thread t) ∈ (view s₁.shm L₁).heads := mem_heads.mpr ⟨htl, rfl⟩
        rw [hheads] at hmem
        rcases List.mem_cons.mp hmem with e | hmem
        · -- the new thread
          obtain ⟨rfl, hrec⟩ := Prod.mk.inj e
          obtain ⟨hid, hn, task, htab, ha, hmg⟩ := hh.made th hmade
          exact hasTask_iff.mpr ⟨n, task, by rw [hrec, hid], hn, by rw [ht.rt, htab], hmg,
            by rw [ha, hm.base]⟩
        · obtain ⟨htl₀, hrec⟩ := mem_heads.mp hmem
          exact htasks t htl₀ hrec.symm
      obtain ⟨evs, hmoved⟩ := ho.moved
      refine h₁.same (fun t th' hmem => ?_) (by rw [ho.rt, init_rt_tasks]) hmoved.base
        ho.quiet.strikes
      rw [Registry.heads, ho.threads] at hmem
      simp only [Registry.apply, List.map_map, List.mem_map, Function.comp] at hmem
      obtain ⟨u, hu, e⟩ := hmem
      obtain ⟨x, hx, rfl⟩ := List.mem_map.mp hu
      refine ⟨s₁.shm.thread x, ?_⟩
      split at e
      · -- only the component of the new thread changed
        rename_i hnew
        obtain ⟨rfl, rfl⟩ := Prod.mk.inj e
        rw [slot_off] at hnew
        exact ⟨mem_heads.mpr ⟨hx, rfl⟩, by rw [hnew]⟩
      · obtain ⟨rfl, rfl⟩ := Prod.mk.inj e
        exact ⟨mem_heads.mpr ⟨hx, rfl⟩, rfl⟩

theorem Tied.effect (h : Tied s L) (hinv : Inv s L) (hop : Careful K s op)
    (he : Effect (rtapi K) s L op s' L') : Tied s' L' := by
  have hexact : (view s'.shm L').heads = (view s.shm L).heads →
      ∀ t th, (t, th) ∈ (view s'.shm L').heads →
        ∃ th₀, (t, th₀) ∈ (view s.shm L).heads ∧ th.task_id = th₀.task_id :=
    fun e t th hmem => ⟨th, e ▸ hmem, rfl⟩
  cases he with
  | calm hc => exact h.same (hexact hc.heads) (by rw [hc.rt]) hc.base hc.strikes
  | init hm hq hrt =>
      refine h.same (hexact ?_) (by rw [hrt, init_rt_tasks]) hm.base hq.strikes
      rw [hm.events]
      exact congrArg (List.map _) Registry.init_threads
  | exit hm hq hrt =>
      rename_i comp_id
      refine h.same (hexact ?_) ?_ hm.base hq.strikes
      · rw [hm.events]
        exact heads_exit ..
      · rw [hrt]
        split
        · exact perform_of_every (K := K) (m := s.rt) (SameTasks.rtapi_exit comp_id _ [])
        · rfl
  | create hc => exact h.created hinv hop hc

/-! ### Runs -/

/-- Threads and tasks correspond: every listed thread has a live task with itself as its argument,
two threads never share one, and no task was paused or deleted while its thread was listed. -/
structure Corresponds (s : State Machine) : Prop where
  tasks : ∀ t, s.shm.Listed .thread t → HasTask s t
  distinct : ∀ t u, s.shm.Listed .thread t → s.shm.Listed .thread u →
    (s.shm.thread t).task_id = (s.shm.thread u).task_id → t = u
  spared : ∀ k ∈ s.strikes, ∀ t, k.shm.Listed .thread t → (k.shm.thread t).task_id ≠ k.task_id

theorem Tied.corresponds (h : Tied s L) (hinv : Inv s L) : Corresponds s where
  tasks t ht := h.tasks t (hinv.good.shape.listed.mp ht)
  distinct t u ht hu hid := by
    obtain ⟨n, task, hg, ha⟩ := h.tasks t (hinv.good.shape.listed.mp ht)
    obtain ⟨n', task', hg', ha'⟩ := h.tasks u (hinv.good.shape.listed.mp hu)
    rw [hid, hg'] at hg
    obtain ⟨rfl, rfl⟩ := Prod.mk.inj (Option.some.inj hg)
    exact Nat.add_left_cancel (ha.symm.trans ha')
  spared := h.spared

theorem Runs.tied (hr : Runs (rtapi K) (Careful K) s₁ s) (h : Inv s₁ .empty) (ht : Tied s₁ .empty) :
    ∃ L, Inv s L ∧ Tied s L := by
  induction hr with
  | start => exact ⟨_, h, ht⟩
  | op op _ hsane hop hrun ih =>
      obtain ⟨L, hinv, ht⟩ := ih
      obtain ⟨L', he⟩ := (op.effect hinv hsane hop.1).of_ok hrun
      exact ⟨L', he.inv hinv, ht.effect hinv hop he⟩
  | @cycle s s' code t _ htl hrun ih =>
      obtain ⟨L, hinv, ht⟩ := ih
      have hproc : s'.rt.process = s.rt.process :=
        thread_task_cycle_rt (P := fun rt => rt.process = s.rt.process) (fun _ h => h) code t rfl hrun
      obtain ⟨cs, data, rt, rfl⟩ := cycle_ran hinv (hinv.good.shape.listed.mp htl) hrun
      exact ⟨L, hinv.ran cs data rt,
        ht.same (fun t th hmem => ⟨th, hmem, rfl⟩) (by rw [hproc]) rfl rfl⟩

/-- **Threads and tasks correspond** in a run in which no thread without a task is made while a
listed thread has task 0. -/
theorem tasks_correspond (h : Starts K s₁) (hr : Runs (rtapi K) (Careful K) s₁ s) :
    Corresponds s := by
  have hstrikes : s₁.strikes = [] := by
    obtain ⟨m, hs⟩ := h.up.eq
    rw [hs]
    rfl
  have ht : Tied s₁ .empty :=
    ⟨fun t ht => absurd ht List.not_mem_nil,
      by rw [hstrikes]; exact fun _ hk => absurd hk List.not_mem_nil⟩
  obtain ⟨L, hinv, ht⟩ := Runs.tied hr h.inv ht
  exact ht.corresponds hinv

theorem tasks_correspond_sample :
    Corresponds (played (rtapi serving) [.hal_create_thread (lit ['t']) 1000000 0 50,
      .hal_create_thread (lit ['u']) 1000000 0 49] started) :=
  tasks_correspond started_starts (Playable.runs ⟨trivial,
    ⟨id, fun h => absurd h.1.2.2.2.1 (by decide +kernel)⟩, by decide +kernel, trivial,
    ⟨id, fun h => absurd h.1.2.2.2.2 (by decide +kernel)⟩, by decide +kernel, trivial⟩ .start)

/-- A thread, and a second one with too high a priority. -/
def orphaned : State Machine :=
  played (rtapi serving) [.hal_create_thread (lit ['t']) 1000000 0 50,
    .hal_create_thread (lit ['u']) 1000000 0 200] started

/-- The second call fails, and the task of the first thread is gone. -/
theorem orphaned_uncorresponding : Runs (rtapi serving) (fun _ _ => True) started orphaned ∧
    ¬ Corresponds orphaned ∧ (orphaned.rt.process.task_array 0).isNone := by
  refine ⟨Playable.runs ⟨trivial, trivial, by decide +kernel, trivial, trivial, by decide +kernel,
    trivial⟩ .start, fun h => ?_, by decide +kernel⟩
  set t := (orphaned.shm.arena.pool .thread).list_ptr with ht
  have hlisted : orphaned.shm.Listed .thread t :=
    ⟨[t], ⟨rfl, by decide +kernel, show _ = 0 by decide +kernel⟩, by simp⟩
  obtain ⟨n, task, hg, -⟩ := h.tasks t hlisted
  have hnone : (get_task orphaned.rt.process (orphaned.shm.thread t).task_id).isNone := by
    decide +kernel
  rw [hg] at hnone
  cases hnone

end RTS.Uspace

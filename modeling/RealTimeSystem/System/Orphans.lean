import RealTimeSystem.System.Undoing

/-!
# System — no task without its thread

The other half of the correspondence of threads and tasks.  A listed thread may lose its task, to the
roll-back of another one; but in every state that HAL reaches in a new process, a task that is alive
is that of a listed thread.  `hal_create_thread` lists the thread of a task or deletes the task, and
a thread that goes takes its task along.
-/

namespace RTS.Uspace

open RTS.Support RTS.Hal

variable {K : Kernel} {s s' s₁ : State Machine} {m : Machine} {L L' : Lists} {g g' : Registry}
  {p p' : Process} {name : CStr} {period_nsec : Nat} {uses_fp priority : Int}

/-- Every live task is that of a listed thread. -/
def NoOrphan (g : Registry) (p : Process) : Prop :=
  ∀ n : Nat, p.Alive n → ∃ h ∈ g.heads, h.2.task_id = n

namespace NoOrphan

/-- Threads that keep their tasks, and no new task. -/
theorem keep (h : NoOrphan g p) (hh : g'.heads = g.heads) (hp : ∀ i, p'.Alive i → p.Alive i) :
    NoOrphan g' p' := fun n hn => by
  rw [hh]
  exact h n (hp n hn)

/-- The same threads but for one, which keeps its task. -/
theorem setThread (h : NoOrphan g p) {t : Nat} {th : Thread}
    (hth : ∀ u ∈ g.heads, u.1 = t → th.task_id = u.2.task_id) :
    NoOrphan (g.apply (.setThread t th)) p := fun n hn => by
  obtain ⟨u, hu, e⟩ := h n hn
  obtain ⟨v, hv, rfl⟩ := List.mem_map.mp hu
  by_cases hvt : v.off = t
  · refine ⟨(v.off, th), List.mem_map.mpr ⟨{ v with thread := th }, ?_, rfl⟩, ?_⟩
    · exact List.mem_map.mpr ⟨v, hv, if_pos hvt⟩
    · exact (hth _ hu hvt).trans e
  · exact ⟨_, List.mem_map.mpr ⟨v, List.mem_map.mpr ⟨v, hv, if_neg hvt⟩, rfl⟩, e⟩

end NoOrphan

/-- Without threads there are no tasks. -/
theorem NoOrphan.none (h : NoOrphan g p) (hg : g.threads = []) (n : Nat) : ¬ p.Alive n := fun hn => by
  obtain ⟨u, hu, -⟩ := h n hn
  rw [Registry.heads, hg] at hu
  exact absurd hu List.not_mem_nil

theorem alive_of_tasks (h : p'.task_array = p.task_array) (n : Nat) : p'.Alive n ↔ p.Alive n := by
  unfold Process.Alive
  rw [h]

/-! ### Threads come -/

variable (K uses_fp priority) in
/-- What making a thread does to the tasks. -/
theorem making_alive (h : Inv s L) (ha : Admits s name period_nsec) :
    (∀ e, (making (rtapi K) s L name period_nsec uses_fp priority).made = .error e →
      ∀ i, (making (rtapi K) s L name period_nsec uses_fp priority).rt.process.Alive i →
        s.rt.process.Alive i) ∧
    ∀ th, (making (rtapi K) s L name period_nsec uses_fp priority).made = .ok th →
      ∀ i : Nat, (making (rtapi K) s L name period_nsec uses_fp priority).rt.process.Alive i →
        s.rt.process.Alive i ∨ th.task_id = i := by
  rcases making_cases (rtapi K) uses_fp priority h ha with
    ⟨-, hrt, e, -, hmk⟩ | ⟨-, -, hrt, e, -, hmk⟩ | ⟨-, hemp, hrt, th, -, hid, hmk⟩
  · refine ⟨fun _ _ i hi => by rwa [hrt] at hi, fun th hth => ?_⟩
    rw [hmk] at hth
    cases hth
  · refine ⟨fun _ _ i hi => ?_, fun th hth => ?_⟩
    · obtain ⟨-, hlive, hdead⟩ := undone_alive K s period_nsec uses_fp priority
      rw [hrt] at hi
      by_cases heng : Engages (rtapi K) s period_nsec uses_fp priority
      · exact (hlive heng i).mp hi
      · exact ((hdead heng i).mp hi).1
    · rw [hmk] at hth
      cases hth
  · refine ⟨fun e he => ?_, fun th' hth i hi => ?_⟩
    · rw [hmk] at he
      cases he
    · rw [hmk] at hth
      cases hth
      obtain ⟨n, hn, -, -, hnew⟩ := launched_alive (K := K) (s := s) hemp.1
      rw [hrt, hnew] at hi
      exact hi.imp id fun e => by rw [hid, hn, e]

/-- A thread that was added with its task. -/
theorem NoOrphan.add (h : NoOrphan g p) {t : Nat} {th : Thread}
    (hp : ∀ i : Nat, p'.Alive i → p.Alive i ∨ th.task_id = i) :
    NoOrphan (g.apply (.addThread t th)) p' := fun n hn => by
  rcases hp n hn with ha | e
  · obtain ⟨u, hu, hid⟩ := h n ha
    exact ⟨u, List.mem_cons_of_mem _ hu, hid⟩
  · exact ⟨(t, th), List.mem_cons_self, e⟩

variable (uses_fp priority) in
/-- The part of `hal_create_thread` under the mutex: a thread more, which has a running task, or
none. -/
theorem create_thread_task_noOrphan (h : Inv s L) (ha : Admits s name period_nsec)
    (ho : NoOrphan (view s.shm L) s.rt.process) :
    Returns (create_thread_task (rtapi K) name period_nsec uses_fp priority) s fun _ s' =>
      ∃ evs L', Moved s L evs s' L' ∧ NoOrphan (view s'.shm L') s'.rt.process ∧
        (¬ (Makes s name period_nsec ∧ Employs (rtapi K) s period_nsec uses_fp priority) →
          evs = []) := by
  refine (create_thread_task_spec (rtapi K) h ha.2.1 period_nsec uses_fp priority rfl).mono
    fun made s' ⟨_, ⟨L', hm⟩, ht⟩ => ?_
  change Moved s L ((making (rtapi K) s L name period_nsec uses_fp priority).events _) s' L' at hm
  have hrt : s'.rt = (making (rtapi K) s L name period_nsec uses_fp priority).rt := ht.rt
  obtain ⟨herr, hok⟩ := making_alive K uses_fp priority h ha
  refine ⟨_, L', hm, ?_, fun hno => ?_⟩
  · rw [hm.events, hrt, Making.events]
    rcases hmk : (making (rtapi K) s L name period_nsec uses_fp priority).made with e | th
    · exact ho.keep rfl (herr e hmk)
    · exact ho.add (hok th hmk)
  · rcases making_cases (rtapi K) uses_fp priority h ha with
      ⟨-, -, e, -, hmk⟩ | ⟨-, -, -, e, -, hmk⟩ | ⟨hmakes, hemp, -⟩
    · rw [Making.events, hmk]
    · rw [Making.events, hmk]
    · exact absurd ⟨hmakes, hemp⟩ hno

theorem NoOrphan.created (h : Inv s L) (ho : NoOrphan (view s.shm L) s.rt.process)
    (hc : Created (rtapi K) s L name period_nsec uses_fp priority s' L') :
    NoOrphan (view s'.shm L') s'.rt.process := by
  cases hc with
  | refused _ => exact ho
  | undone ha hmk hm ht =>
      rw [hm.events, ht.rt]
      exact ho.keep rfl ((making_alive K uses_fp priority h ha).1 _ hmk)
  | @done th s₁ _ L₁ _ ha hmk _ hm ht hout =>
      have h₁ : NoOrphan (view s₁.shm L₁) s₁.rt.process := by
        rw [hm.events, ht.rt]
        exact ho.add ((making_alive K uses_fp priority h ha).2 _ hmk)
      have h₂ : NoOrphan ((view s₁.shm L₁).apply (.setThread (s.shm.arena.alloc .thread).1
          { s₁.shm.thread (s.shm.arena.alloc .thread).1 with
            comp_id := (inits (rtapi K) s₁ L₁ (thread_comp_name th.name)).1 })) s₁.rt.process := by
        refine h₁.setThread fun u hu hut => ?_
        obtain ⟨-, hrec⟩ := mem_heads.mp hu
        rw [← hut, hrec]
      refine h₂.keep ?_ fun i hi => ?_
      · rw [Registry.heads, hout.threads, Registry.heads]
      · rw [hout.rt] at hi
        exact (alive_of_tasks (init_rt_tasks _ _) i).mp hi

/-! ### Threads go -/

/-- A thread that goes with its task. -/
theorem NoOrphan.drop (h : NoOrphan g p) {t : Nat} {th : Thread} (ht : (t, th) ∈ g.heads)
    (hnd : (g.threads.map Slot.off).Nodup) (he : Ends p th.task_id p') :
    NoOrphan (g.apply (.dropThread t)) p' := fun n hn => by
  obtain ⟨ha, hne⟩ := (he.alive n).mp hn
  obtain ⟨u, hu, hid⟩ := h n ha
  obtain ⟨v, hv, rfl⟩ := List.mem_map.mp hu
  refine ⟨_, List.mem_map.mpr ⟨v, List.mem_filter.mpr ⟨hv, ?_⟩, rfl⟩, hid⟩
  -- the thread that goes is another
  refine decide_eq_true fun e => hne (hid.symm.trans ?_)
  obtain ⟨w, hw, hwt⟩ := List.mem_map.mp ht
  obtain ⟨rfl, rfl⟩ := Prod.mk.inj hwt
  obtain rfl := List.inj_on_of_nodup_map hnd hv hw e
  rfl

/-- The tasks of all the threads are deleted. -/
theorem unmake_threads_alive (ts : List Slot) (i : Nat) :
    (unmake_threads (rtapi K) ts m).process.Alive i →
      m.process.Alive i ∧ ∀ t ∈ ts, t.thread.task_id ≠ i := by
  induction ts generalizing m with
  | nil => exact fun h => ⟨h, fun _ ht => absurd ht List.not_mem_nil⟩
  | cons t ts ih =>
      intro h
      obtain ⟨ha, hrest⟩ := ih h
      obtain ⟨ha, hne⟩ := ((unmake_alive (K := K) t.thread.task_id).alive i).mp ha
      refine ⟨ha, fun u hu => ?_⟩
      rcases List.mem_cons.mp hu with rfl | hu
      · exact fun e => hne e.symm
      · exact hrest u hu

theorem NoOrphan.unmade (h : NoOrphan g p) (hp : m.process = p) (n : Nat) :
    ¬ (unmake_threads (rtapi K) g.threads m).process.Alive n := fun hn => by
  obtain ⟨ha, hne⟩ := unmake_threads_alive _ n hn
  obtain ⟨u, hu, hid⟩ := h n (hp ▸ ha)
  obtain ⟨v, hv, rfl⟩ := List.mem_map.mp hu
  exact hne v hv hid

theorem hal_thread_delete_noOrphan (h : Inv s L) (ho : NoOrphan (view s.shm L) s.rt.process) {r : Int}
    (hrun : hal_thread_delete (rtapi K) name s = .ok r s') :
    ∃ L', Inv s' L' ∧ NoOrphan (view s'.shm L') s'.rt.process := by
  obtain ⟨spec, -, -, L', hm, hgone⟩ := (hal_thread_delete_unmakes (rtapi K) h name).of_ok hrun
  refine ⟨L', hm.inv, ?_⟩
  rw [hm.events]
  rcases hgone with ⟨hevs, hrt⟩ | ⟨t, ht, hevs, hrt⟩
  · rw [hevs, hrt]
    exact ho
  · rw [hevs, hrt]
    refine ho.drop (mem_heads.mpr ⟨ht, rfl⟩) ?_ (unmake_alive _)
    simpa [view, Function.comp_def] using (h.good.shape.rep .thread).used.nodup

/-! ### Runs -/

theorem NoOrphan.effect {op : Op} (h : Inv s L) (ho : NoOrphan (view s.shm L) s.rt.process)
    (he : Effect (rtapi K) s L op s' L') : NoOrphan (view s'.shm L') s'.rt.process := by
  cases he with
  | calm hc => exact ho.keep hc.heads fun i => by rw [hc.rt]; exact id
  | init hm _ hrt =>
      refine ho.keep ?_ fun i hi => ?_
      · rw [hm.events]
        exact congrArg (List.map _) Registry.init_threads
      · rw [hrt] at hi
        exact (alive_of_tasks (init_rt_tasks _ _) i).mp hi
  | @exit comp_id _ _ hm _ hrt =>
      refine ho.keep ?_ fun i hi => ?_
      · rw [hm.events]
        exact heads_exit ..
      · have hexit := perform_of_every (K := K) (m := s.rt) (SameTasks.rtapi_exit comp_id _ [])
        rw [hrt] at hi
        split at hi
        · exact (alive_of_tasks hexit i).mp hi
        · exact hi
  | create hc => exact ho.created h hc

theorem Op.noOrphan {op : Op} (h : Inv s L) (hsane : op.Sane)
    (ho : NoOrphan (view s.shm L) s.rt.process) (hrun : op.run (rtapi K) s = .ok () s') :
    ∃ L', Inv s' L' ∧ NoOrphan (view s'.shm L') s'.rt.process := by
  by_cases hd : op.Deletes
  · cases op with
    | hal_thread_delete name =>
        obtain ⟨r, hr⟩ := ok_of_ignored hrun
        exact hal_thread_delete_noOrphan h ho hr
    | teardown =>
        obtain ⟨L', hm, -, hrt⟩ := (hal_app_teardown_moved (rtapi K) h).of_ok hrun
        refine ⟨L', hm.inv, fun n hn => absurd hn ?_⟩
        rw [hrt]
        exact ho.unmade rfl n
    | _ => exact hd.elim
  · obtain ⟨L', he⟩ := (op.effect h hsane hd).of_ok hrun
    exact ⟨L', he.inv h, ho.effect h he⟩

theorem Runs.noOrphan {allowed : State Machine → Op → Prop} (hr : Runs (rtapi K) allowed s₁ s)
    (h : ∃ L, Inv s₁ L ∧ NoOrphan (view s₁.shm L) s₁.rt.process) :
    ∃ L, Inv s L ∧ NoOrphan (view s.shm L) s.rt.process := by
  induction hr with
  | start => exact h
  | op op _ hsane _ hrun ih =>
      obtain ⟨L, hinv, ho⟩ := ih
      exact Op.noOrphan hinv hsane ho hrun
  | @cycle s s' code t _ ht hrun ih =>
      obtain ⟨L, hinv, ho⟩ := ih
      have hproc : s'.rt.process = s.rt.process :=
        thread_task_cycle_rt (P := fun rt => rt.process = s.rt.process) (fun _ h => h) code t rfl hrun
      obtain ⟨cs, data, rt, rfl⟩ := cycle_ran hinv (hinv.good.shape.listed.mp ht) hrun
      exact ⟨L, hinv.ran cs data rt, ho.keep rfl fun i => by rw [hproc]; exact id⟩

/-! ### HAL comes up without tasks -/

/-- What the calls of `hal_app_main` on RTAPI leave of the tasks. -/
theorem attach_tasks (s : State Machine) (name : CStr) (rt : Machine) :
    (attach (rtapi K) s name rt).rt.process.task_array = rt.process.task_array := by
  have hnew (key id : Int) (size : Nat) (m : Machine) :
      (perform K (rtapi_shmem_new key id size) m).2.process.task_array = m.process.task_array :=
    perform_of_every (K := K) (m := m) (SameTasks.rtapi_shmem_new key id size _ [])
  have hptr (id : Int) (m : Machine) :
      (perform K (rtapi_shmem_getptr id) m).2.process.task_array = m.process.task_array :=
    perform_of_every (K := K) (m := m) (SameTasks.rtapi_shmem_getptr id _ [])
  have hinit : ((rtapi K).init name rt).2.process.task_array = rt.process.task_array :=
    perform_of_every (K := K) (m := rt) (SameTasks.rtapi_init name _ [])
  exact (hptr _ _).trans ((hnew _ _ _ _).trans hinit)

theorem boots_tasks (h : Boots (rtapi K) fresh s₁) (n : Nat) : ¬ s₁.rt.process.Alive n := by
  have hup : ∃ name rt, Up (rtapi K) fresh name rt s₁ ∧ rt.process = fresh.rt.process := by
    rcases h.up with hup | hup
    · exact ⟨_, _, (hal_app_main_spec _ h.zero).of_ok hup rfl, rfl⟩
    · exact ⟨_, _, (hal_init_lib_spec _ h.zero).of_ok hup rfl, rfl⟩
  obtain ⟨name, rt, hup, hrt⟩ := hup
  obtain ⟨m, rfl⟩ := hup.eq
  rw [show (closed _ m).rt = (attach (rtapi K) fresh name rt).rt from rfl,
    alive_of_tasks (attach_tasks fresh name rt), hrt]
  exact Process.not_alive rfl

/-- **No task is an orphan**, whatever was done. -/
theorem no_orphans {allowed : State Machine → Op → Prop} (h : Boots (rtapi K) fresh s₁)
    (hr : Runs (rtapi K) allowed s₁ s) :
    ∃ L, Inv s L ∧ NoOrphan (view s.shm L) s.rt.process :=
  Runs.noOrphan hr ⟨.empty, h.inv, fun n hn => absurd hn (boots_tasks h n)⟩

end RTS.Uspace

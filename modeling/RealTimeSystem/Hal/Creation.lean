import RealTimeSystem.Hal.Tasks

/-!
# HAL — `hal_create_thread`

`make_thread` is what the part of `hal_create_thread` under the mutex comes to: the new thread or
an error, the state of RTAPI, and the tasks it paused or deleted on the way.  Its three ways to
roll back all end in `free_thread_struct`, which acts on the `task_id` of the thread it is given;
before the task is made that is `0`, the id of a task that may belong to another thread.

The part without the mutex is `hal_init`, a parameter, a pin and `hal_ready`, on the listed thread.
-/

namespace RTS.Hal

open RTS.Support

variable {σ : Type}

/-! ### What making a thread comes to -/

/-- The thread or an error, RTAPI afterwards, and the tasks paused or deleted, newest first. -/
structure Making (σ : Type) where
  made : Except Int Thread
  rt : σ
  struck : List Int

/-- What happens to the registry, the new thread being at `new`. -/
def Making.events (p : Making σ) (new : Nat) : List Event :=
  match p.made with
  | .error _ => []
  | .ok th => [.addThread new th]

section
variable (R : Rtapi σ)

/-- The RTAPI calls of `free_thread_struct`. -/
def unmake (id : Int) (rt : σ) : σ := (R.task_delete id (R.task_pause id rt).2).2

/-- Whether the clock runs fast enough for the first thread. -/
def clock_fits (period_nsec : Nat) (rt : σ) : Bool × σ :=
  let limit := toInt64 (period_nsec + period_nsec / 100 : Nat)
  let c := R.clock_set_period 0 rt
  if c.1 = 0 then
    let c := R.clock_set_period (toInt64 period_nsec) c.2
    if c.1 < 0 then (false, c.2) else (¬ c.1 > limit, c.2)
  else (¬ c.1 > limit, c.2)

/-- The task of the new thread. -/
def make_task (base : Addr) (module : Int) (new : Nat) (th : Thread) (rt : σ) : Making σ :=
  let task := R.task_new (base + new) th.priority module HAL_STACKSIZE th.uses_fp rt
  if task.1 < 0 then ⟨.error (-EINVAL), unmake R th.task_id task.2, [th.task_id, th.task_id]⟩
  else
    let start := R.task_start task.1 th.period task.2
    if start.1 < 0 then
      ⟨.error (-EINVAL), unmake R task.1 (R.task_delete task.1 start.2).2,
        [task.1, task.1, task.1]⟩
    else ⟨.ok { th with task_id := task.1 }, start.2, []⟩

/-- `old` is what the structure `new` still holds. -/
def make_thread (g : Registry) (base : Addr) (module : Int) (new : Nat) (old : Thread) (name : CStr)
    (period_nsec : Nat) (uses_fp priority : Int) (rt : σ) : Making σ :=
  if ∃ s ∈ g.threads, s.thread.name = name then ⟨.error (-EINVAL), rt, []⟩
  else if new = 0 then ⟨.error (-ENOMEM), rt, []⟩
  else
    let th : Thread := { old with
      uses_fp := uses_fp, period := toInt64 period_nsec, priority := priority, task_id := 0
      name := rt_snprintf (HAL_NAME_LEN + 1) name }
    if g.threads = [] then
      let clock := clock_fits R period_nsec rt
      if clock.1 then make_task R base module new th clock.2
      else ⟨.error (-EINVAL), unmake R 0 clock.2, [0, 0]⟩
    else make_task R base module new th rt

end

/-- At the strike the threads were those of the segment `m`. -/
def Strike.Sees (k : Strike) (m : Segment) (L : Lists) : Prop :=
  ∃ L', Shape k.shm.arena L' ∧ L'.act .thread = L.act .thread ∧
    ∀ t ∈ L.act .thread, k.shm.thread t = m.thread t

/-- RTAPI went to `rt`, and the tasks `struck` were paused or deleted on the way. -/
structure Tasked (s : State σ) (L : Lists) (rt : σ) (struck : List Int) (s' : State σ) : Prop where
  grown : Grown s.shm.arena s'.shm.arena
  calls : s'.calls = s.calls
  rt : s'.rt = rt
  strikes : ∃ ks, s'.strikes = ks ++ s.strikes ∧ ks.map Strike.task_id = struck ∧
    ∀ k ∈ ks, k.Sees s.shm L

/-! ### The part under the mutex -/

theorem wp_create_thread_clock (R : Rtapi σ) {s : State σ} {period_nsec : Nat}
    {Q : Bool → State σ → Prop} {E : Stop → State σ → Prop} :
    Wp (create_thread_clock R period_nsec) s Q E ↔
      Q (clock_fits R period_nsec s.rt).1 { s with rt := (clock_fits R period_nsec s.rt).2 } := by
  unfold create_thread_clock clock_fits
  simp only [wp_bind, wp_call]
  by_cases h : (R.clock_set_period 0 s.rt).1 = 0
  · simp only [if_pos h, wp_bind, wp_call]
    by_cases hneg : (R.clock_set_period (toInt64 period_nsec) (R.clock_set_period 0 s.rt).2).1 < 0
    · simp only [if_pos hneg, wp_pure]
    · simp only [if_neg hneg, wp_pure]
  · simp only [if_neg h, wp_pure]

section
variable (R : Rtapi σ) {s : State σ} {L : Lists} {m : Segment} {t : Nat} {th : Thread}

theorem Hatching.sees (h : Hatching { s.shm with mutex := true } L t th m) {k : Strike}
    (ha : k.shm.arena = m.arena) (ht : k.shm.thread = m.thread) : k.Sees s.shm L := by
  refine ⟨L.hatch t, by rw [ha]; exact h.shape, rfl, fun u hu => ?_⟩
  rw [ht, h.eq]
  exact Function.update_of_ne (ne_of_mem_of_not_mem hu h.fresh) _ _

theorem Hatching.wp_set {m₀ : Segment} (h : Hatching m₀ L t th m) (f : Thread → Thread)
    {Q : Unit → State σ → Prop} {E : Stop → State σ → Prop} :
    Wp (change fun m => m.setThread t (f (m.thread t))) (opened s m) Q E ↔
      Q () (opened s (m.setThread t (f th))) := by
  rw [wp_change_opened, h.record]

/-- `free_thread_struct` on the thread in hand, and the end of the operation: nothing is registered,
and its task is struck after those struck before. -/
theorem Hatching.wp_rollback (hinv : Inv s L) (h : Hatching { s.shm with mutex := true } L t th m)
    {rt : σ} (ks : List Strike) (struck : List Int) (hks : ks.map Strike.task_id = struck)
    (hsees : ∀ k ∈ ks, k.Sees s.shm L) {Q : State σ → Prop} {E : Stop → State σ → Prop}
    (hQ : ∀ s', (∃ L', Moved s L [] s' L') →
      Tasked s L (unmake R th.task_id rt) (th.task_id :: th.task_id :: struck) s' → Q s') :
    Wp (free_thread_struct R t) (opened { s with rt := rt, strikes := ks ++ s.strikes } m)
      (fun _ s' => Wp rtapi_mutex_give s' (fun _ s'' => Q s'') E) E := by
  obtain ⟨m', L', hclear, hg', hi', -, hv, hgr, hmx, hl, hst⟩ := h.rollback hinv.locked hinv.idle
  rw [wp_free_thread R hclear, wp_close hmx]
  have hmoved : Moved s L [] (closed s m') L' := .closed hinv hg' hi' hv hl hst
  refine hQ _ ⟨L', hmoved.outside _ s.ref_cnt _⟩ ⟨hgr, rfl, ?_, ?_⟩
  · show (R.task_delete _ (R.task_pause _ rt).2).2 = _
    rw [h.record, unmake]
  · refine ⟨_ :: _ :: ks, rfl, ?_, fun k hk => ?_⟩
    · simp only [List.map_cons, hks, h.record]
    · rcases List.mem_cons.mp hk with rfl | hk
      · exact h.sees rfl rfl
      · rcases List.mem_cons.mp hk with rfl | hk
        · exact h.sees rfl rfl
        · exact hsees k hk

/-- From the task of the new thread to its insertion. -/
theorem create_thread_insert_spec (hinv : Inv s L)
    (h : Hatching { s.shm with mutex := true } L t th m) {rt : σ} {period_nsec : Nat}
    {priority : Int}
    (hname : th.name ∉ (view s.shm L).threads.map fun s => s.thread.name) {p : Making σ}
    (hp : p = make_task R s.hal_shmem_base s.lib_module_id t
      { th with period := toInt64 period_nsec, priority := priority } rt) :
    Returns (create_thread_insert R t period_nsec th.uses_fp priority)
      (opened { s with rt := rt } m) fun listed s' =>
        listed = (p.made.toOption.map fun _ => t) ∧ (∃ L', Moved s L (p.events t) s' L') ∧
        Tasked s L p.rt p.struck s' := by
  unfold create_thread_insert Returns
  rw [wp_bind, wp_get, wp_bind]
  set th' : Thread := { th with period := toInt64 period_nsec, priority := priority } with hth'
  have h' := h.set th'
  refine (h.wp_set fun th => { th with period := toInt64 period_nsec, priority := priority }).mpr ?_
  rw [← hth', wp_bind, wp_call_opened]
  simp only [opened_base, opened_module]
  rw [make_task] at hp
  set new := R.task_new (s.hal_shmem_base + t) th'.priority s.lib_module_id HAL_STACKSIZE
    th'.uses_fp rt with hnew
  refine .ite (fun hneg : new.1 < 0 => ?_) fun hneg : ¬ new.1 < 0 => ?_
  · simp only [if_pos hneg] at hp
    simp only [wp_bind, wp_pure]
    refine h'.wp_rollback R hinv [] [] rfl (by simp) fun s' hm ht => ?_
    rw [hp]
    exact ⟨rfl, hm, ht⟩
  simp only [if_neg hneg] at hp
  rw [wp_bind]
  set th'' : Thread := { th' with task_id := new.1 } with hth''
  have h'' := h'.set th''
  refine (h'.wp_set fun th => { th with task_id := new.1 }).mpr ?_
  rw [← hth'', wp_bind, wp_call_opened]
  set start := R.task_start new.1 th'.period new.2 with hstart
  refine .ite (fun hneg : start.1 < 0 => ?_) fun hneg : ¬ start.1 < 0 => ?_
  · simp only [if_pos hneg] at hp
    unfold rtapi_task_delete
    simp only [wp_bind, wp_modify, wp_call, wp_pure]
    refine h''.wp_rollback R hinv [⟨new.1, ((m.setThread t th').setThread t th'')⟩] [new.1] rfl ?_
      fun s' hm ht => ?_
    · intro k hk
      obtain rfl := List.mem_singleton.mp hk
      exact h''.sees rfl rfl
    · rw [hp]
      exact ⟨rfl, hm, ht⟩
  · simp only [if_neg hneg] at hp
    obtain ⟨L', hg', hi', hv'⟩ := h''.insert hinv.locked hinv.idle hname
    obtain ⟨hmx, hl, hst⟩ := h''.fields
    set m' := ((m.setThread t th').setThread t th'').insert_head .thread t with hm'
    have hmx' : m'.mutex = true := hmx
    have hmoved : Moved s L [.addThread t th''] (closed s m') L' := .closed hinv hg' hi' hv' hl hst
    rw [wp_bind, wp_change_opened, wp_bind, wp_close hmx', wp_pure, hp]
    exact ⟨rfl, ⟨L', hmoved.outside _ s.ref_cnt s.strikes⟩,
      ⟨h''.grown.trans (.of_eq rfl rfl), rfl, rfl, [], rfl, rfl, by simp⟩⟩

/-- Every rollback answers the same. -/
theorem make_task_error {base : Addr} {module : Int} {rt : σ} {e : Int}
    (h : (make_task R base module t th rt).made = .error e) : e = -EINVAL := by
  simp only [make_task] at h
  split_ifs at h
  · exact (Except.error.inj h).symm
  · exact (Except.error.inj h).symm

/-- **The part of `hal_create_thread` under the mutex.** -/
theorem create_thread_task_spec (h : Inv s L) {name : CStr} (hn : ¬ name.length > HAL_NAME_LEN)
    (period_nsec : Nat) (uses_fp priority : Int) {p : Making σ}
    (hp : p = make_thread R (view s.shm L) s.hal_shmem_base s.lib_module_id
      (s.shm.arena.alloc .thread).1 (s.shm.thread (s.shm.arena.alloc .thread).1) name period_nsec
      uses_fp priority s.rt) :
    Returns (create_thread_task R name period_nsec uses_fp priority) s fun made s' =>
      made = (p.made.map fun _ => (s.shm.arena.alloc .thread).1) ∧
      (∃ L', Moved s L (p.events (s.shm.arena.alloc .thread).1) s' L') ∧
      Tasked s L p.rt p.struck s' := by
  unfold create_thread_task Returns
  rw [make_thread] at hp
  have hg := h.locked
  -- refused with the mutex
  have refuse : ∀ e : Int, p = ⟨.error e, s.rt, []⟩ →
      (Except.error e : Except Int Nat) = (p.made.map fun _ => (s.shm.arena.alloc .thread).1) ∧
      (∃ L', Moved s L (p.events (s.shm.arena.alloc .thread).1)
        (closed s { s.shm with mutex := true }) L') ∧
      Tasked s L p.rt p.struck (closed s { s.shm with mutex := true }) := fun e he => by
    rw [he]
    exact ⟨rfl, ⟨L, .closed h hg h.idle rfl rfl rfl⟩, ⟨.refl _, rfl, rfl, [], rfl, rfl, by simp⟩⟩
  rw [wp_bind, wp_open h.attached h.unlocked, wp_bind]
  rcases find_thread_cases hg.shape name with ⟨hf, hv⟩ | ⟨x, hx, hx0, hf, hv, hxn⟩
  swap
  · have hdup : ∃ u ∈ (view s.shm L).threads, u.thread.name = name :=
      ⟨slot s.shm L x, List.mem_map_of_mem hx, hxn⟩
    rw [if_pos hdup] at hp
    rw [wp_walk_opened hf, if_pos hx0, wp_bind, wp_close rfl]
    exact refuse _ hp
  have hnone : ∀ u ∈ (view s.shm L).threads, u.thread.name ≠ name := fun u hu => by
    simpa using List.find?_eq_none.mp hv u hu
  rw [if_neg fun hdup => hdup.elim fun u hu => hnone u hu.1 hu.2] at hp
  rw [wp_walk_opened hf, if_neg (by decide), wp_bind, wp_take_opened]
  rcases alloc_thread_cases hg.shape with ⟨hx, ha⟩ | ⟨t, m, hx, h0, ha, hhatch⟩
  · have hx' : (s.shm.arena.alloc .thread).1 = 0 := hx
    rw [if_pos hx'] at hp
    rw [ha, if_pos rfl, wp_bind, wp_close rfl]
    exact refuse _ hp
  have hx' : (s.shm.arena.alloc .thread).1 = t := hx
  rw [hx', if_neg h0] at hp
  rw [hx', ha, if_neg h0, wp_bind]
  set th : Thread := { s.shm.thread t with
    uses_fp := uses_fp, period := 0, priority := 0, task_id := 0
    name := rt_snprintf (HAL_NAME_LEN + 1) name } with hth
  refine (hhatch.wp_set fun th => { th with
    uses_fp := uses_fp, name := rt_snprintf (HAL_NAME_LEN + 1) name }).mpr ?_
  have h₁ := hhatch.set th
  have hfit : rt_snprintf (HAL_NAME_LEN + 1) name = name := rt_snprintf_short hn
  have hname : th.name ∉ (view s.shm L).threads.map fun u => u.thread.name := fun hm => by
    obtain ⟨u, hu, e⟩ := List.mem_map.mp hm
    exact hnone u hu (e.trans hfit)
  have hfirst : (m.arena.pool .thread).list_ptr = 0 ↔ (view s.shm L).threads = [] := by
    have hc := (h₁.shape.rep .thread).used
    have hhead : (m.arena.pool .thread).list_ptr = (L.act .thread).headD 0 := hc.head
    rw [hhead]
    rcases hl : L.act .thread with _ | ⟨y, ys⟩
    · simp [view, hl]
    · have := h.good.shape.act_ne_zero (k := .thread) (x := y) (by simp [hl])
      simpa [view, hl] using this
  -- the two ways that end in the making of the task
  have hinsert : ∀ rt : σ, p = make_task R s.hal_shmem_base s.lib_module_id t
      { th with period := toInt64 period_nsec, priority := priority } rt →
      Wp (do let listed ← create_thread_insert R t period_nsec uses_fp priority
             return listed.elim (.error (-EINVAL)) .ok : Prog σ (Except Int Nat))
        (opened { s with rt := rt } (m.setThread t th)) (fun made s' =>
          made = (p.made.map fun _ => t) ∧ (∃ L', Moved s L (p.events t) s' L') ∧
          Tasked s L p.rt p.struck s') fun _ _ => False := fun rt hrt => by
    rw [wp_bind]
    refine (create_thread_insert_spec R h h₁ hname hrt).mono fun listed s' hpost => ?_
    obtain ⟨hl, hm, ht⟩ := hpost
    refine ⟨?_, hm, ht⟩
    rcases hmade : p.made with e | th'
    · have he : e = -EINVAL := make_task_error R (by rw [← hrt]; exact hmade)
      rw [hl, hmade, he]
      rfl
    · rw [hl, hmade]
      rfl
  rw [wp_bind, wp_look_opened]
  refine .ite (fun hz => ?_) fun hz => ?_
  · rw [if_pos (hfirst.mp hz)] at hp
    rw [wp_bind, wp_create_thread_clock]
    set clock := clock_fits R period_nsec s.rt with hclock
    refine .ite (fun hfits : clock.1 = true => ?_) fun hfits : ¬ clock.1 = true => ?_
    · exact hinsert clock.2 (by simpa only [← hclock, if_pos hfits] using hp)
    · simp only [if_neg hfits] at hp
      simp only [wp_bind, wp_pure]
      refine h₁.wp_rollback R h [] [] rfl (by simp) fun s' hm ht => ?_
      rw [hp]
      exact ⟨rfl, hm, ht⟩
  · rw [if_neg fun e => hz (hfirst.mpr e)] at hp
    exact hinsert s.rt hp

end

/-! ### The part without the mutex -/

/-- What tells the components apart. -/
def Registry.labels (g : Registry) : List (Int × CStr) :=
  g.comps.map fun p => (p.2.comp_id, p.2.name)

/-- Changing one field of a component keeps the labels. -/
theorem Registry.labels_set {g : Registry} (hg : (keys g.comps).Nodup) {comp_id : Int}
    {f : Comp → Option Comp}
    (hf : ∀ c c', f c = some c' → c'.comp_id = c.comp_id ∧ c'.name = c.name) :
    (g.applyAll (g.set comp_id f).2).labels = g.labels := by
  unfold Registry.set
  rcases hfind : g.findComp comp_id with _ | ⟨x, c⟩
  · rfl
  rcases hc : f c with _ | c'
  · simp only [hc, Option.elim_none, applyAll_nil]
  simp only [hc, Option.elim_some, applyAll_cons, applyAll_nil, apply, labels, List.map_map]
  refine List.map_congr_left fun p hp => ?_
  by_cases hx : p.1 = x
  · -- the component that was found
    obtain rfl : p = (x, c) :=
      List.inj_on_of_nodup_map hg hp (List.mem_of_find?_eq_some hfind) hx
    obtain ⟨h₁, h₂⟩ := hf c c' hc
    simp [h₁, h₂]
  · simp [hx]

/-- Things were registered, but no component or thread came, went or changed its name. -/
structure Kept (s : State σ) (L : Lists) (s' : State σ) (L' : Lists) : Prop where
  moved : ∃ evs, Moved s L evs s' L'
  still : Still s s'
  labels : (view s'.shm L').labels = (view s.shm L).labels
  threads : (view s'.shm L').threads = (view s.shm L).threads

namespace Kept

variable {s s' s'' : State σ} {L L' L'' : Lists} {comp_id : Int} {evs : List Event}

theorem trans (h : Kept s L s' L') (h' : Kept s' L' s'' L'') : Kept s L s'' L'' where
  moved := by
    obtain ⟨evs, hm⟩ := h.moved
    obtain ⟨evs', hm'⟩ := h'.moved
    exact ⟨_, hm.trans hm'⟩
  still := h.still.trans h'.still
  labels := h'.labels.trans h.labels
  threads := h'.threads.trans h.threads

theorem of_enrolled (h : Enrolled s L comp_id evs s' L') : Kept s L s' L' := by
  obtain ⟨hc, ht⟩ := Registry.applyAll_for (g := view s.shm L) fun ev hev =>
    (h.held ev hev).imp fun c hc => hc.choose_spec.2
  refine ⟨⟨evs, h.moved⟩, h.still, ?_, ?_⟩
  · rw [h.moved.events, Registry.labels, hc, Registry.labels]
  · rw [h.moved.events, ht]

theorem inv (h : Kept s L s' L') : Inv s' L' := h.moved.choose_spec.inv

/-- A change of one field of a component. -/
theorem of_set {f : Comp → Option Comp} {r : Int} (h : Inv s L)
    (hf : ∀ c c', f c = some c' → c'.comp_id = c.comp_id ∧ c'.name = c.name)
    (hr : Refines s L ((view s.shm L).set comp_id f) r s') : ∃ L', Kept s L s' L' := by
  obtain ⟨-, L', hm, hs⟩ := hr
  refine ⟨L', ⟨_, hm⟩, hs, ?_, ?_⟩
  · rw [hm.events]
    exact Registry.labels_set h.good.sound.comps_keys hf
  · rw [hm.events]
    unfold Registry.set
    rcases (view s.shm L).findComp comp_id with _ | ⟨x, c⟩
    · rfl
    · rcases hc : f c with _ | c' <;> simp only [hc] <;> rfl

end Kept

/-- The record of a thread changes, but not its name. -/
theorem Good.setThread {m : Segment} {L : Lists} (h : Good m L) (t : Nat) {th : Thread}
    (hn : th.name = (m.thread t).name) :
    Good (m.setThread t th) L ∧ view (m.setThread t th) L = (view m L).apply (.setThread t th) := by
  have hv : view (m.setThread t th) L = (view m L).apply (.setThread t th) := by
    unfold view Registry.apply
    congr 1
    rw [List.map_map]
    refine List.map_congr_left fun u _ => ?_
    by_cases hu : u = t
    · subst hu; simp [slot, Segment.setThread]
    · simp [slot, Segment.setThread, hu]
  refine ⟨⟨h.shape, ?_, h.plain⟩, hv⟩
  rw [hv]
  refine h.sound.setThread fun u hu hut => ?_
  obtain ⟨y, -, rfl⟩ := List.mem_map.mp hu
  rw [slot_off] at hut
  rw [hn, slot_thread, hut]

/-- The name of the component of a thread. -/
def thread_comp_name (name : CStr) : CStr :=
  rt_snprintf (HAL_NAME_LEN + 1) (lit ['_', '_'] ++ name)

/-- Registries with the same threads hold the same records of them. -/
theorem thread_of_view {m m' : Segment} {L L' : Lists} {t : Nat}
    (h : (view m' L').threads = (view m L).threads) (ht : t ∈ L.act .thread) :
    t ∈ L'.act .thread ∧ m'.thread t = m.thread t := by
  have hm : slot m L t ∈ (view m' L').threads := by
    rw [h]
    exact List.mem_map_of_mem ht
  obtain ⟨u, hu, e⟩ := List.mem_map.mp hm
  obtain rfl : u = t := congrArg Slot.off e
  exact ⟨hu, congrArg Slot.thread e⟩

theorem Registry.init_threads {g : Registry} {base : Addr} {new : Nat} {old : Comp} {id : Int}
    {name : CStr} : (g.applyAll (g.init base new old id name).2).threads = g.threads := by
  unfold Registry.init
  split_ifs <;> rfl

/-- The listed thread `new` got a component `name`, and what that component registers. -/
structure Outfitted (R : Rtapi σ) (s : State σ) (L : Lists) (new : Nat) (name : CStr) (s' : State σ)
    (L' : Lists) : Prop where
  moved : ∃ evs, Moved s L evs s' L'
  quiet : Quiet s s'
  rt : s'.rt = init_rt R name (inits R s L name).2 s.rt
  labels : (view s'.shm L').labels = ((view s.shm L).applyAll (inits R s L name).2).labels
  threads : (view s'.shm L').threads = ((view s.shm L).apply (.setThread new
    { s.shm.thread new with comp_id := (inits R s L name).1 })).threads

/-- **The part of `hal_create_thread` without the mutex.**  A `hal_init`, the id of its component
in the thread, and what that component registers. -/
theorem create_thread_comp_spec (R : Rtapi σ) {s : State σ} {L : Lists} (h : Inv s L) {new : Nat}
    (ht : new ∈ L.act .thread) {name : CStr}
    (hname : name = thread_comp_name (s.shm.thread new).name) :
    Returns (create_thread_comp R new) s fun _ s' => ∃ L', Outfitted R s L new name s' L' := by
  unfold create_thread_comp
  simp only [returns_bind, returns_get]
  rw [show rt_snprintf (HAL_NAME_LEN + 1) (lit ['_', '_'] ++ (s.shm.thread new).name) = name from
    hname.symm]
  refine (hal_init_spec R h name).mono fun comp_id s₁ hpost => ?_
  obtain ⟨hr, ⟨L₁, h₁⟩, hq, hrt⟩ := hpost
  have hthreads : (view s₁.shm L₁).threads = (view s.shm L).threads := by
    rw [h₁.events]
    exact Registry.init_threads
  obtain ⟨-, hsame⟩ := thread_of_view hthreads ht
  set th : Thread := { s.shm.thread new with comp_id := comp_id } with hth
  set s₂ : State σ := { s₁ with shm := s₁.shm.setThread new th } with hs₂
  obtain ⟨hg₂, hv₂⟩ := h₁.inv.good.setThread new
    (show th.name = (s₁.shm.thread new).name by rw [hsame])
  have h₂ : Moved s₁ L₁ [.setThread new th] s₂ L₁ :=
    ⟨{ h₁.inv with good := hg₂ }, hv₂, rfl, rfl, rfl, rfl⟩
  -- what is registered from here on keeps the labels and the threads
  have finish : ∀ s', (∃ L', Kept s₂ L₁ s' L') → ∃ L', Outfitted R s L new name s' L' :=
      fun s' hafter => by
    obtain ⟨L', hk⟩ := hafter
    obtain ⟨evs, hm⟩ := hk.moved
    have hq' : Quiet s₁ s₂ := ⟨.of_eq rfl rfl, rfl, rfl⟩
    refine ⟨L', ⟨_, (h₁.trans h₂).trans hm⟩, (hq.trans hq').trans hk.still.toQuiet,
      hk.still.rt.trans hrt, ?_, ?_⟩
    · rw [hk.labels, ← h₁.events]
      exact (congrArg Registry.labels hv₂).trans rfl
    · rw [hk.threads, ← hr]
      refine (congrArg Registry.threads hv₂).trans ?_
      simp only [Registry.apply, hthreads, hth]
  have hchange : ∀ {Q : Unit → State σ → Prop}, Q () s₂ → Returns (change fun m => m.setThread new
      { m.thread new with comp_id := comp_id } : Prog σ Unit) s₁ Q := fun {Q} hQ => by
    show Q () { s₁ with shm := s₁.shm.setThread new { s₁.shm.thread new with comp_id := comp_id } }
    rwa [hsame]
  refine hchange ?_
  have e₂ : Enrolled s₂ L₁ comp_id [] s₂ L₁ := .refl h₂.inv
  refine .ite (fun _ => finish _ ⟨L₁, .of_enrolled e₂⟩) fun _ => ?_
  simp only [returns_bind]
  rw [returns_setData]
  have e₃ := e₂.setData (s.hal_shmem_base + (new + THREAD_MAXTIME)) 0
  refine (hal_param_new_refines e₃.moved.inv _ _ _ _ _).mono fun r₄ s₄ hr₄ => ?_
  obtain ⟨L₄, e₄⟩ := hr₄.enrolled comp_id fun ev hev => Registry.param_new_for hev
  have e₄ := e₃.trans e₄
  refine .ite (fun _ => finish _ ⟨L₄, .of_enrolled e₄⟩) fun _ => ?_
  simp only [returns_bind]
  have hbase : s₄.hal_shmem_base = s.hal_shmem_base := e₄.moved.base.trans h₁.base
  have hread : s₄.Reads (s.hal_shmem_base + (new + THREAD_RUNTIME)) := by
    rw [← hbase]
    exact .inl (h.good.shape.shmchk (by decide) ht (by decide) _)
  refine (hal_pin_newf_refines e₄.moved.inv _ hread _ _).mono fun r₅ s₅ hpost => ?_
  obtain ⟨hr₅, hcell⟩ := hpost
  obtain ⟨L₅, e₅⟩ := hr₅.enrolled comp_id fun ev hev => Registry.pin_newf_for hev
  have e₅ := e₄.trans e₅
  refine .ite (fun _ => finish _ ⟨L₅, .of_enrolled e₅⟩) fun hr0 => ?_
  simp only [returns_bind]
  have hcell' : s₅.shm.cell (new + THREAD_RUNTIME) ≠ 0 := by
    have := hcell (Decidable.not_not.mp hr0)
    rwa [hbase, Nat.add_sub_cancel_left] at this
  rw [returns_storeThrough hcell']
  have e₆ := e₅.setData (s₅.shm.cell (new + THREAD_RUNTIME)) 0
  refine (hal_ready_refines e₆.moved.inv comp_id).mono fun r₇ s₇ hr₇ => ?_
  obtain ⟨L₇, h₇⟩ := Kept.of_set e₆.moved.inv (fun c c' hc => by
    split_ifs at hc
    obtain rfl := Option.some.inj hc
    exact ⟨rfl, rfl⟩) hr₇
  exact finish _ ⟨L₇, (Kept.of_enrolled e₆).trans h₇⟩

/-- The thread that was added is on the list, with its record. -/
theorem Moved.added {s s' : State σ} {L L' : Lists} {t : Nat} {th : Thread}
    (h : Moved s L [.addThread t th] s' L') : t ∈ L'.act .thread ∧ s'.shm.thread t = th := by
  have hthreads : (view s'.shm L').threads = ⟨t, th, []⟩ :: (view s.shm L).threads := by
    rw [h.events]
    rfl
  have hmem : (⟨t, th, []⟩ : Slot) ∈ (view s'.shm L').threads := by
    rw [hthreads]
    exact List.mem_cons_self
  obtain ⟨u, hu, e⟩ := List.mem_map.mp hmem
  obtain rfl : u = t := congrArg Slot.off e
  exact ⟨hu, congrArg Slot.thread e⟩

/-! ### The whole -/

section
variable (R : Rtapi σ) (s : State σ) (L : Lists) (name : CStr) (period_nsec : Nat)
  (uses_fp priority : Int)

/-- The checks `hal_create_thread` makes without the mutex. -/
def Admits : Prop :=
  period_nsec ≠ 0 ∧ ¬ name.length > HAL_NAME_LEN ∧ ¬ s.shm.lock &&& HAL_LOCK_CONFIG ≠ 0

/-- What making a thread comes to in the state `s`. -/
def making : Making σ :=
  make_thread R (view s.shm L) s.hal_shmem_base s.lib_module_id (s.shm.arena.alloc .thread).1
    (s.shm.thread (s.shm.arena.alloc .thread).1) name period_nsec uses_fp priority s.rt

/-- The outcomes of `hal_create_thread`. -/
inductive Created : State σ → Lists → Prop
  | refused : ¬ Admits s name period_nsec → Created s L
  | undone {e : Int} {s' : State σ} {L' : Lists} : Admits s name period_nsec →
      (making R s L name period_nsec uses_fp priority).made = .error e → Moved s L [] s' L' →
      Tasked s L (making R s L name period_nsec uses_fp priority).rt
        (making R s L name period_nsec uses_fp priority).struck s' →
      Created s' L'
  | done {th : Thread} {s₁ s' : State σ} {L₁ L' : Lists} : Admits s name period_nsec →
      (making R s L name period_nsec uses_fp priority).made = .ok th →
      create_thread_task R name period_nsec uses_fp priority s =
        .ok (.ok (s.shm.arena.alloc .thread).1) s₁ →
      Moved s L [.addThread (s.shm.arena.alloc .thread).1 th] s₁ L₁ →
      Tasked s L (making R s L name period_nsec uses_fp priority).rt
        (making R s L name period_nsec uses_fp priority).struck s₁ →
      Outfitted R s₁ L₁ (s.shm.arena.alloc .thread).1 (thread_comp_name th.name) s' L' →
      Created s' L'

variable {s L}

/-- **`hal_create_thread`.** -/
theorem hal_create_thread_spec (h : Inv s L) :
    Returns (hal_create_thread R name period_nsec uses_fp priority) s fun _ s' =>
      ∃ L', Created R s L name period_nsec uses_fp priority s' L' := by
  unfold hal_create_thread
  simp only [returns_bind, returns_get]
  refine .ite (fun h₀ => absurd h₀ h.attached) fun _ => ?_
  refine .ite (fun hp => ⟨L, .refused fun ha => ha.1 hp⟩) fun hp => ?_
  refine .ite (fun hn => ⟨L, .refused fun ha => ha.2.1 hn⟩) fun hn => ?_
  refine .ite (fun hl => ⟨L, .refused fun ha => ha.2.2 hl⟩) fun hl => ?_
  have hadm : Admits s name period_nsec := ⟨hp, hn, hl⟩
  rw [returns_bind]
  refine (create_thread_task_spec R h hn period_nsec uses_fp priority rfl).with_eq.mono
    fun made s₁ hpost => ?_
  obtain ⟨hrun, hmade, ⟨L₁, hm⟩, ht⟩ := hpost
  rcases hmk : (making R s L name period_nsec uses_fp priority).made with e | th
  · have hmk' := hmk
    rw [making] at hmk'
    rw [hmade, hmk']
    refine ⟨L₁, .undone hadm hmk ?_ ht⟩
    simpa only [Making.events, hmk'] using hm
  · have hmk' := hmk
    rw [making] at hmk'
    rw [hmade, hmk'] at hrun
    rw [hmade, hmk']
    have hm' : Moved s L [.addThread (s.shm.arena.alloc .thread).1 th] s₁ L₁ := by
      simpa only [Making.events, hmk'] using hm
    obtain ⟨hu, hth⟩ := hm'.added
    refine (create_thread_comp_spec R hm'.inv hu
      (congrArg (fun t => thread_comp_name t.name) hth.symm)).mono fun _ s' hpost => ?_
    obtain ⟨L', ho⟩ := hpost
    exact ⟨L', .done hadm hmk hrun hm' ht ho⟩

variable {name period_nsec uses_fp priority}

theorem Created.inv {s' : State σ} {L' : Lists}
    (hc : Created R s L name period_nsec uses_fp priority s' L') (h : Inv s L) : Inv s' L' := by
  cases hc with
  | refused _ => exact h
  | undone _ _ hm _ => exact hm.inv
  | done _ _ _ _ _ ho => exact ho.moved.choose_spec.inv

end

end RTS.Hal

import RealTimeSystem.Hal.Runs

/-!
# HAL — what an operation does to components, threads and RTAPI

Most operations are `Calm`: no component and no thread comes, goes or changes, and RTAPI is not
called.  The others are `hal_init`, `hal_exit` and `hal_create_thread`, with their effects
(`Effect`), and the two that delete threads.
-/

namespace RTS.Hal

open RTS.Support

variable {σ : Type} {R : Rtapi σ} {s s' s'' : State σ} {L L' L'' : Lists}

/-- The listed threads, without what they call. -/
def Registry.heads (g : Registry) : List (Nat × Thread) := g.threads.map fun t => (t.off, t.thread)

theorem heads_view {m : Segment} {L : Lists} :
    (view m L).heads = (L.act .thread).map fun t => (t, m.thread t) := by
  simp [Registry.heads, view, Function.comp_def]

/-- Components and threads keep what they are known by, and RTAPI was not called. -/
structure Calm (s : State σ) (L : Lists) (s' : State σ) (L' : Lists) : Prop where
  inv : Inv s' L'
  labels : (view s'.shm L').labels = (view s.shm L).labels
  heads : (view s'.shm L').heads = (view s.shm L).heads
  rt : s'.rt = s.rt
  strikes : s'.strikes = s.strikes
  base : s'.hal_shmem_base = s.hal_shmem_base
  module : s'.lib_module_id = s.lib_module_id

namespace Calm

theorem refl (h : Inv s L) : Calm s L s L := ⟨h, rfl, rfl, rfl, rfl, rfl, rfl⟩

theorem of_moved {evs : List Event} (hm : Moved s L evs s' L') (hs : Still s s')
    (hl : ((view s.shm L).applyAll evs).labels = (view s.shm L).labels)
    (hh : ((view s.shm L).applyAll evs).heads = (view s.shm L).heads) : Calm s L s' L' where
  inv := hm.inv
  labels := by rw [hm.events, hl]
  heads := by rw [hm.events, hh]
  rt := hs.rt
  strikes := hs.strikes
  base := hm.base
  module := hm.module

theorem of_kept (h : Kept s L s' L') : Calm s L s' L' := by
  obtain ⟨evs, hm⟩ := h.moved
  exact ⟨hm.inv, h.labels, congrArg (List.map _) h.threads, h.still.rt, h.still.strikes, hm.base,
    hm.module⟩

/-- Operations that register something of a component. -/
theorem of_refines {r comp_id : Int} {spec : Int × List Event} (hr : Refines s L spec r s')
    (hspec : ∀ ev ∈ spec.2, (view s.shm L).Holder comp_id ev) : ∃ L', Calm s L s' L' :=
  (hr.enrolled comp_id hspec).imp fun _ he => .of_kept (.of_enrolled he)

end Calm

/-- Changing the functions of a thread keeps the threads. -/
theorem heads_reschedule (t : Nat) (f : List (Nat × Entry) → List (Nat × Entry)) (ss : List Slot) :
    (reschedule t f ss).map (fun t => (t.off, t.thread)) = ss.map fun t => (t.off, t.thread) := by
  unfold reschedule
  rw [List.map_map]
  refine List.map_congr_left fun u _ => ?_
  by_cases hu : u.off = t <;> simp [hu]

theorem heads_schedule (g : Registry) (t i e : Nat) (r : Entry) :
    (g.applyAll [.schedule t i e r]).heads = g.heads :=
  heads_reschedule t (fun es => es.take i ++ (e, r) :: es.drop i) g.threads

theorem heads_unschedule (g : Registry) (t e f : Nat) :
    (g.applyAll [.unschedule t e f]).heads = g.heads :=
  heads_reschedule t (fun es => es.filter fun y => y.1 ≠ e) g.threads

theorem calm_add_funct (funct_name thread_name : Option CStr) (p r : Int)
    (hr : Refines s L ((view s.shm L).add_funct s.shm.lock
      ((s.shm.arena.alloc_entry.map Prod.fst).getD 0) funct_name thread_name p) r s') :
    ∃ L', Calm s L s' L' := by
  obtain ⟨-, L', hm, hs⟩ := hr
  unfold Registry.add_funct at hm
  split_ifs at hm
  · exact ⟨L', .of_moved hm hs rfl rfl⟩
  split at hm
  swap
  · exact ⟨L', .of_moved hm hs rfl rfl⟩
  split_ifs at hm
  · exact ⟨L', .of_moved hm hs rfl rfl⟩
  · exact ⟨L', .of_moved hm hs rfl rfl⟩
  split at hm
  · exact ⟨L', .of_moved hm hs rfl rfl⟩
  · exact ⟨L', .of_moved hm hs rfl (heads_schedule ..)⟩

theorem calm_del_funct (funct_name thread_name : Option CStr) (r : Int)
    (hr : Refines s L ((view s.shm L).del_funct s.shm.lock funct_name thread_name) r s') :
    ∃ L', Calm s L s' L' := by
  obtain ⟨-, L', hm, hs⟩ := hr
  unfold Registry.del_funct at hm
  split_ifs at hm
  · exact ⟨L', .of_moved hm hs rfl rfl⟩
  split at hm
  swap
  · exact ⟨L', .of_moved hm hs rfl rfl⟩
  split at hm
  · exact ⟨L', .of_moved hm hs rfl rfl⟩
  · exact ⟨L', .of_moved hm hs rfl (heads_unschedule ..)⟩

theorem Calm.of_set {r comp_id : Int} {f : Comp → Option Comp} (h : Inv s L)
    (hf : ∀ c c', f c = some c' → c'.comp_id = c.comp_id ∧ c'.name = c.name)
    (hr : Refines s L ((view s.shm L).set comp_id f) r s') : ∃ L', Calm s L s' L' :=
  (Kept.of_set h hf hr).imp fun _ => .of_kept

/-- Taking the mutex and giving it. -/
theorem calm_looked (h : Inv s L) : Calm s L (closed s { s.shm with mutex := true }) L :=
  ⟨h.looked, rfl, rfl, rfl, rfl, rfl, rfl⟩

/-- The lock, the state and the flag of the threads change. -/
theorem calm_flags (h : Inv s L) (lock : UInt8) (state : HalState) (running : Int) :
    Calm s L { s with shm :=
      { s.shm with lock := lock, state := state, threads_running := running } } L :=
  ⟨h.flags lock state running, rfl, rfl, rfl, rfl, rfl, rfl⟩

/-! ### The exit of a component -/

/-- The events of `leave` come from its functions, its parameters and itself. -/
theorem leave_cases {g : Registry} {x : Nat} {ev : Event} (h : ev ∈ g.leave x) :
    (∃ y, ev = .dropFunct y) ∨ (∃ y, ev = .dropParam y) ∨ ev = .dropComp x := by
  rcases List.mem_append.mp h with h | h
  · rcases List.mem_append.mp h with h | h
    · obtain ⟨p, -, rfl⟩ := List.mem_map.mp h
      exact .inl ⟨p.1, rfl⟩
    · obtain ⟨p, -, rfl⟩ := List.mem_map.mp h
      exact .inr (.inl ⟨p.1, rfl⟩)
  · exact .inr (.inr (List.mem_singleton.mp h))

theorem heads_leave (g : Registry) (x : Nat) : (g.applyAll (g.leave x)).heads = g.heads :=
  Registry.applyAll_keeps fun ev hev g => by
    rcases leave_cases hev with ⟨y, rfl⟩ | ⟨y, rfl⟩ | rfl
    · simp [Registry.heads, Registry.apply, Function.comp_def]
    · rfl
    · rfl

theorem comps_leave (g : Registry) (x : Nat) :
    (g.applyAll (g.leave x)).comps = g.comps.filter fun p => p.1 ≠ x := by
  unfold Registry.leave
  rw [Registry.applyAll_append]
  have hrest : (g.applyAll ((g.functs.filter fun p => p.2.owner_ptr = x).map
      (fun p => Event.dropFunct p.1) ++ (g.params.filter fun p => p.2.owner_ptr = x).map
      fun p => Event.dropParam p.1)).comps = g.comps :=
    Registry.applyAll_keeps (f := Registry.comps) fun ev hev g => by
      rcases List.mem_append.mp hev with h | h
      · obtain ⟨p, -, rfl⟩ := List.mem_map.mp h
        rfl
      · obtain ⟨p, -, rfl⟩ := List.mem_map.mp h
        rfl
  rw [← hrest]
  rfl

theorem heads_exit (g : Registry) (state : HalState) (comp_id : Int) :
    (g.applyAll (g.exit state comp_id).2).heads = g.heads := by
  unfold Registry.exit
  split_ifs
  · rfl
  rcases g.findComp comp_id with _ | ⟨x, c⟩
  · rfl
  · exact heads_leave g x

/-- A component leaves, or none does. -/
theorem comps_exit {g : Registry} (hg : (keys g.comps).Nodup) (state : HalState) (comp_id : Int) :
    ((g.exit state comp_id).1 ≠ 0 ∧ (g.exit state comp_id).2 = []) ∨
      ((g.exit state comp_id).1 = 0 ∧
        (g.applyAll (g.exit state comp_id).2).comps.length + 1 = g.comps.length) := by
  unfold Registry.exit
  split_ifs
  · exact .inl ⟨show -EALREADY ≠ 0 by decide, rfl⟩
  rcases hf : g.findComp comp_id with _ | ⟨x, c⟩
  · exact .inl ⟨show -EINVAL ≠ 0 by decide, rfl⟩
  · refine .inr ⟨rfl, ?_⟩
    have hx : x ∈ keys g.comps := List.mem_map_of_mem (List.mem_of_find?_eq_some hf)
    have hlen : (g.comps.filter fun p => p.1 ≠ x).length = ((keys g.comps).erase x).length := by
      rw [hg.erase_eq_filter, keys, List.filter_map, List.length_map]
      congr 2
      funext p
      by_cases hp : p.1 = x <;> simp [hp]
    have hpos := List.length_pos_of_mem hx
    rw [comps_leave, hlen, List.length_erase_of_mem hx, List.length_map] at *
    omega

/-! ### One operation -/

/-- The operations that delete threads. -/
def Op.Deletes : Op → Prop
  | .hal_thread_delete _ => True
  | .teardown => True
  | _ => False

variable (R s L)

/-- The effects of an operation that deletes no thread. -/
inductive Effect : Op → State σ → Lists → Prop
  | calm {op : Op} {s' : State σ} {L' : Lists} : Calm s L s' L' → Effect op s' L'
  | init {name : CStr} {s' : State σ} {L' : Lists} : Moved s L (inits R s L name).2 s' L' →
      Quiet s s' → s'.rt = init_rt R name (inits R s L name).2 s.rt →
      Effect (.hal_init (some name)) s' L'
  | exit {comp_id : Int} {s' : State σ} {L' : Lists} :
      Moved s L ((view s.shm L).exit s.shm.state comp_id).2 s' L' → Quiet s s' →
      (s'.rt = if ((view s.shm L).exit s.shm.state comp_id).1 = 0 then (R.exit comp_id s.rt).2
        else s.rt) → Effect (.hal_exit comp_id) s' L'
  | create {name : CStr} {period_nsec : Nat} {uses_fp priority : Int} {s' : State σ} {L' : Lists} :
      Created R s L name period_nsec uses_fp priority s' L' →
      Effect (.hal_create_thread name period_nsec uses_fp priority) s' L'

variable {R s L}

theorem Effect.inv {op : Op} (he : Effect R s L op s' L') (h : Inv s L) : Inv s' L' := by
  cases he with
  | calm hc => exact hc.inv
  | init hm _ _ => exact hm.inv
  | exit hm _ _ => exact hm.inv
  | create hc => exact hc.inv R h

theorem hal_set_lock_calm (h : Inv s L) (lock_type : UInt8) :
    Returns (hal_set_lock lock_type) s fun _ s' => ∃ L', Calm s L s' L' := by
  unfold hal_set_lock
  simp only [returns_bind, returns_get]
  exact .ite (fun _ => ⟨L, .refl h⟩) fun _ =>
    ⟨L, calm_flags h lock_type s.shm.state s.shm.threads_running⟩

theorem hal_start_threads_calm (h : Inv s L) :
    Returns hal_start_threads s fun _ s' => ∃ L', Calm s L s' L' := by
  unfold hal_start_threads
  simp only [returns_bind, returns_get]
  refine .ite (fun _ => ⟨L, .refl h⟩) fun _ => .ite (fun _ => ⟨L, .refl h⟩) fun _ =>
    .ite (fun _ => ⟨L, .refl h⟩) fun _ => .ite (fun _ => ⟨L, .refl h⟩) fun _ => ?_
  exact ⟨L, calm_flags h s.shm.lock .running 1⟩

theorem hal_stop_threads_calm (h : Inv s L) :
    Returns hal_stop_threads s fun _ s' => ∃ L', Calm s L s' L' := by
  unfold hal_stop_threads
  simp only [returns_bind, returns_get]
  refine .ite (fun _ => ⟨L, .refl h⟩) fun _ => .ite (fun _ => ⟨L, .refl h⟩) fun _ =>
    .ite (fun _ => ⟨L, .refl h⟩) fun _ => .ite (fun _ => ⟨L, .refl h⟩) fun _ => ?_
  exact ⟨L, calm_flags h s.shm.lock .active 0⟩

theorem hal_get_lock_calm (h : Inv s L) :
    Returns hal_get_lock s fun _ s' => ∃ L', Calm s L s' L' := by
  unfold hal_get_lock
  simp only [returns_bind, returns_get]
  exact .ite (fun _ => ⟨L, .refl h⟩) fun _ => ⟨L, .refl h⟩

theorem hal_get_state_calm (h : Inv s L) :
    Returns hal_get_state s fun _ s' => ∃ L', Calm s L s' L' := by
  unfold hal_get_state
  simp only [returns_bind, returns_get]
  exact .ite (fun _ => ⟨L, .refl h⟩) fun _ => ⟨L, .refl h⟩

theorem hal_malloc_calm (h : Inv s L) {size : Int} (h₀ : 0 ≤ size) :
    Returns (hal_malloc size) s fun _ s' => ∃ L', Calm s L s' L' := by
  refine (hal_malloc_spec h size).mono fun _ s' ⟨_, hs⟩ => ?_
  obtain rfl := hs
  exact ⟨L, (Moved.grow h (serve_span (r := .up size) h.good.shape.mem.span h₀)).inv, rfl, rfl, rfl,
    rfl, rfl, rfl⟩

/-- The effect of an operation whose result is ignored. -/
theorem Effect.of_calm {α : Type} {x : Prog σ α} {op : Op}
    (h : Returns x s fun _ s' => ∃ L', Calm s L s' L') :
    Wp (do let _ ← x) s (fun _ s' => ∃ L', Effect R s L op s' L') fun _ _ => True :=
  wp_bind.mpr (h.to_wp.mono (fun _ _ ⟨L', hc⟩ => ⟨L', .calm hc⟩) fun _ _ => id)

/-- **The effect of one operation** that returns and deletes no thread. -/
theorem Op.effect (h : Inv s L) (op : Op) (hsane : op.Sane) (hd : ¬ op.Deletes) :
    Wp (op.run R) s (fun _ s' => ∃ L', Effect R s L op s' L') fun _ _ => True := by
  cases op with
  | hal_init name =>
      rcases name with _ | name
      · exact Effect.of_calm ((hal_init_none R s).mpr ⟨L, .refl h⟩)
      · exact wp_bind.mpr ((hal_init_spec R h name).to_wp.mono
          (fun _ _ ⟨_, ⟨L', hm⟩, hq, hrt⟩ => ⟨L', .init hm hq hrt⟩) fun _ _ => id)
  | hal_exit comp_id =>
      refine wp_bind.mpr ((hal_exit_spec R h comp_id).to_wp.mono
        (fun r s' ⟨hr, ⟨L', hm⟩, hq, hrt⟩ => ?_) fun _ _ => id)
      subst hr
      exact ⟨L', .exit hm hq hrt⟩
  | hal_malloc size => exact Effect.of_calm (hal_malloc_calm h hsane)
  | hal_set_constructor comp_id make =>
      exact Effect.of_calm ((hal_set_constructor_refines h comp_id make).mono fun _ _ hr =>
        Calm.of_set h (fun c c' hc => by cases hc; exact ⟨rfl, rfl⟩) hr)
  | hal_ready comp_id =>
      exact Effect.of_calm ((hal_ready_refines h comp_id).mono fun _ _ hr =>
        Calm.of_set h (fun c c' hc => by split_ifs at hc; cases hc; exact ⟨rfl, rfl⟩) hr)
  | hal_unready comp_id =>
      exact Effect.of_calm ((hal_unready_refines h comp_id).mono fun _ _ hr =>
        Calm.of_set h (fun c c' hc => by split_ifs at hc; cases hc; exact ⟨rfl, rfl⟩) hr)
  | hal_set_unready comp_id =>
      exact Effect.of_calm ((hal_set_unready_refines h comp_id).mono fun _ _ hr =>
        Calm.of_set h (fun c c' hc => by cases hc; exact ⟨rfl, rfl⟩) hr)
  | hal_comp_name comp_id =>
      exact Effect.of_calm ((hal_comp_name_spec h comp_id).mono fun _ _ ⟨_, hs⟩ =>
        ⟨L, hs ▸ calm_looked h⟩)
  | hal_export_funct name funct arg uses_fp reentrant comp_id =>
      exact Effect.of_calm ((hal_export_funct_enrolled h name funct arg uses_fp reentrant
        comp_id).mono fun _ _ ⟨_, L', he⟩ => ⟨L', .of_kept (.of_enrolled he)⟩)
  | hal_create_thread name period_nsec uses_fp priority =>
      exact wp_bind.mpr ((hal_create_thread_spec R name period_nsec uses_fp priority h).to_wp.mono
        (fun _ _ ⟨L', hc⟩ => ⟨L', .create hc⟩) fun _ _ => id)
  | hal_thread_delete name => exact absurd trivial hd
  | hal_add_funct_to_thread funct_name thread_name position =>
      refine wp_bind.mpr ((hal_add_funct_spec h funct_name thread_name position rfl).mono
        (fun r s' ⟨_, hr⟩ => ?_) fun _ _ _ => trivial)
      obtain ⟨L', hc⟩ := calm_add_funct funct_name thread_name position r hr
      exact ⟨L', .calm hc⟩
  | hal_del_funct_from_thread funct_name thread_name =>
      exact Effect.of_calm ((hal_del_funct_refines h funct_name thread_name).mono fun r _ hr =>
        calm_del_funct funct_name thread_name r hr)
  | hal_param_new name type dir data_addr comp_id =>
      exact Effect.of_calm ((hal_param_new_refines h name type dir data_addr comp_id).mono
        fun _ _ hr => Calm.of_refines hr fun _ hev => Registry.param_new_for hev)
  | hal_pin_new name type data_ptr_addr comp_id =>
      refine wp_bind.mpr ((hal_pin_new_spec h name type data_ptr_addr comp_id).mono
        (fun _ _ ⟨_, hr, _⟩ => ?_) fun _ _ _ => trivial)
      obtain ⟨L', hc⟩ := Calm.of_refines hr fun _ hev => Registry.pin_new_for hev
      exact ⟨L', .calm hc⟩
  | hal_get_stats stats =>
      refine Effect.of_calm ((hal_get_stats_spec h stats).mono fun _ s' hs => ?_)
      rcases hs with ⟨-, -, rfl⟩ | ⟨-, rfl, -⟩
      · exact ⟨L, .refl h⟩
      · exact ⟨L, calm_looked h⟩
  | hal_set_lock lock_type => exact Effect.of_calm (hal_set_lock_calm h lock_type)
  | hal_get_lock => exact Effect.of_calm (hal_get_lock_calm h)
  | hal_start_threads => exact Effect.of_calm (hal_start_threads_calm h)
  | hal_stop_threads => exact Effect.of_calm (hal_stop_threads_calm h)
  | hal_get_state => exact Effect.of_calm (hal_get_state_calm h)
  | teardown => exact absurd trivial hd

/-! ### The cycle of a thread -/

/-- A cycle only asks RTAPI for the time. -/
theorem thread_task_cycle_rt {P : σ → Prop} (hP : ∀ rt, P rt → P (R.get_clocks rt).2)
    (code : Addr → Addr → Int → (Addr → Int) → (Addr → Int)) (t : Nat) (h : P s.rt)
    (hrun : thread_task_cycle R code t s = .ok () s') : P s'.rt := by
  let T : State σ → State σ → Prop := fun s s' => P s.rt → P s'.rt
  have : Std.Refl T := ⟨fun _ => id⟩
  have : IsTrans (State σ) T := ⟨fun _ _ _ h h' => h' ∘ h⟩
  have hclock : Along T (call R.get_clocks) := .modifyGet fun s => hP s.rt
  have hlook : ∀ {α : Type} (f : Segment → α), Along T (look f) := fun f => .bind .get fun _ => .pure
  have hchange : ∀ f, Along T (change f) := fun f => .modify fun _ => id
  have hfuncts : ∀ fuel e end_time, Along T (run_functs R code t fuel e end_time) := by
    intro fuel
    induction fuel with
    | zero => exact fun _ _ => .throw
    | succ n ih =>
        intro e end_time
        refine .ite .pure <| .bind .get fun _ => .bind (.ite .throw .pure) fun _ =>
          .bind (.modify fun _ => id) fun _ =>
          .bind hclock fun _ => .ite .pure <| .bind (hlook _) fun _ => .ite ?_ ?_
        · exact .bind (hchange _) fun _ => .bind (hlook _) fun _ => ih _ _
        · exact .bind (hlook _) fun _ => ih _ _
  have hcycle : Along T (thread_task_cycle R code t) :=
    .bind .get fun _ => .ite (.bind (hlook _) fun _ => .ite (.bind hclock fun _ =>
      .bind (hfuncts _ _ _) fun _ => .bind (hlook _) fun _ =>
      .bind (.ite .throw (hchange _)) fun _ => hchange _) .pure) .pure
  exact Along.of_ok hcycle hrun h

/-! ### A component that is accepted -/

theorem Shape.act_nil_iff {a : Arena} {k : Kind} (h : Shape a L) :
    L.act k = [] ↔ (a.pool k).list_ptr = 0 := by
  have hused := (h.rep k).used
  rcases ha : L.act k with _ | ⟨x, xs⟩ <;> rw [ha] at hused
  · exact ⟨fun _ => hused, fun _ => rfl⟩
  · refine ⟨(fun e => nomatch e), fun e => ?_⟩
    exact absurd e (hused.1 ▸ h.act_ne_zero (k := k) (by simp [ha]))

section
variable (R : Rtapi σ) (s : State σ)

/-- `hal_init` passes its checks, gets an id from RTAPI, and a structure. -/
def Accepts (name : CStr) : Prop :=
  ¬ name.length > HAL_NAME_LEN ∧ ¬ (R.init (rtapi_name name) s.rt).1 < 0 ∧
    s.shm.halpr_find_comp_by_name (rt_snprintf (HAL_NAME_LEN + 1) name) = some 0 ∧
    ¬ s.shm.arena.Full .comp

/-- The operation calls `hal_init` with the name, when the state is `s₁`. -/
def Op.Inits (s₁ : State σ) (name : CStr) : Op → Prop
  | .hal_init (some n) => name = n ∧ s₁ = s
  | .hal_create_thread n period_nsec uses_fp priority =>
      Admits s n period_nsec ∧ ∃ new, name = thread_comp_name (s₁.shm.thread new).name ∧
        create_thread_task R n period_nsec uses_fp priority s = .ok (.ok new) s₁
  | _ => False

end

/-- `hal_init` adds a component when it accepts, and else fails and adds nothing. -/
theorem inits_cases (h : Inv s L) (name : CStr) :
    (¬ Accepts R s name ∧ (inits R s L name).1 < 0 ∧ (inits R s L name).2 = []) ∨
      (Accepts R s name ∧ (inits R s L name).1 = (R.init (rtapi_name name) s.rt).1 ∧
        ∃ x c, (inits R s L name).2 = [.addComp x c] ∧
          c.comp_id = (R.init (rtapi_name name) s.rt).1 ∧ c.name = []) := by
  unfold inits Registry.init Accepts
  by_cases hn : name.length > HAL_NAME_LEN
  · rw [if_pos hn]
    exact .inl ⟨fun ha => ha.1 hn, show -EINVAL < 0 by decide, rfl⟩
  rw [if_neg hn]
  by_cases hid : (R.init (rtapi_name name) s.rt).1 < 0
  · rw [if_pos hid]
    exact .inl ⟨fun ha => ha.2.1 hid, show -EINVAL < 0 by decide, rfl⟩
  rw [if_neg hid]
  rcases find_comp_name_cases h.good.shape (rt_snprintf (HAL_NAME_LEN + 1) name) with
    ⟨hf, hnone⟩ | ⟨x, hx, hx0, hxn, hf⟩
  swap
  · rw [if_pos ⟨(x, s.shm.comp x), mem_tab.mpr ⟨hx, rfl⟩, hxn⟩]
    refine .inl ⟨fun ha => hx0 ?_, show -EINVAL < 0 by decide, rfl⟩
    exact Option.some.inj (hf.symm.trans ha.2.2.1)
  rw [if_neg fun ⟨p, hp, e⟩ => hnone p hp e]
  by_cases hfull : s.shm.arena.Full .comp
  · rw [if_pos (by rw [Shape.alloc_full hfull])]
    exact .inl ⟨fun ha => ha.2.2.2 hfull, show -ENOMEM < 0 by decide, rfl⟩
  · rw [if_neg (h.good.shape.alloc (by decide) (by decide) hfull).1]
    exact .inr ⟨⟨hn, hid, hf, hfull⟩, rfl, _, _, rfl, rfl, rfl⟩

/-! ### A thread that is rolled back -/

section
variable (R : Rtapi σ) (s : State σ)

/-- RTAPI gives the new thread no task, or does not start it. -/
def TaskFails (period_nsec : Nat) (uses_fp priority : Int) (rt : σ) : Prop :=
  let task := R.task_new (s.hal_shmem_base + (s.shm.arena.alloc .thread).1) priority
    s.lib_module_id HAL_STACKSIZE uses_fp rt
  task.1 < 0 ∨ (R.task_start task.1 (toInt64 period_nsec) task.2).1 < 0

/-- `hal_create_thread` passes its checks and gets a structure, and then the clock does not fit or
the task fails. -/
def Undoes (name : CStr) (period_nsec : Nat) (uses_fp priority : Int) : Prop :=
  Admits s name period_nsec ∧ s.shm.halpr_find_thread_by_name name = some 0 ∧
    ¬ s.shm.arena.Full .thread ∧
    if (s.shm.arena.pool .thread).list_ptr = 0 then
      (clock_fits R period_nsec s.rt).1 = true →
        TaskFails R s period_nsec uses_fp priority (clock_fits R period_nsec s.rt).2
    else TaskFails R s period_nsec uses_fp priority s.rt

/-- The operation makes a thread and rolls it back. -/
def Op.Undone : Op → Prop
  | .hal_create_thread name period_nsec uses_fp priority =>
      Undoes R s name period_nsec uses_fp priority
  | _ => False

end

theorem threads_nil_iff {m : Segment} (h : Shape m.arena L) :
    (view m L).threads = [] ↔ (m.arena.pool .thread).list_ptr = 0 :=
  List.map_eq_nil_iff.trans h.act_nil_iff

theorem make_task_struck {base : Addr} {module : Int} {new : Nat} {th : Thread} {rt : σ}
    (h : (make_task R base module new th rt).struck ≠ []) :
    (R.task_new (base + new) th.priority module HAL_STACKSIZE th.uses_fp rt).1 < 0 ∨
      (R.task_start (R.task_new (base + new) th.priority module HAL_STACKSIZE th.uses_fp rt).1
        th.period (R.task_new (base + new) th.priority module HAL_STACKSIZE th.uses_fp rt).2).1 <
        0 := by
  unfold make_task at h
  by_cases h₁ : (R.task_new (base + new) th.priority module HAL_STACKSIZE th.uses_fp rt).1 < 0
  · exact .inl h₁
  · refine .inr (Decidable.by_contra fun h₂ => h ?_)
    simp only [if_neg h₁, if_neg h₂]

/-- A task was paused or deleted: the thread was rolled back. -/
theorem making_struck (h : Inv s L) {name : CStr} {period_nsec : Nat} {uses_fp priority : Int}
    (ha : Admits s name period_nsec)
    (hs : (making R s L name period_nsec uses_fp priority).struck ≠ []) :
    Undoes R s name period_nsec uses_fp priority := by
  unfold making make_thread at hs
  split at hs
  · exact absurd rfl hs
  rename_i hdup
  split at hs
  · exact absurd rfl hs
  rename_i hnew
  have hfind : s.shm.halpr_find_thread_by_name name = some 0 := by
    rcases find_thread_cases h.good.shape name with ⟨hf, -⟩ | ⟨x, hx, -, -, -, hname⟩
    · exact hf
    · exact absurd ⟨slot s.shm L x, List.mem_map_of_mem hx, hname⟩ hdup
  have hfull : ¬ s.shm.arena.Full .thread := fun hf => hnew (by rw [Shape.alloc_full hf])
  refine ⟨ha, hfind, hfull, ?_⟩
  simp only [threads_nil_iff h.good.shape] at hs
  split at hs <;> rename_i hz
  · rw [if_pos hz]
    intro hfits
    rw [if_pos hfits] at hs
    simpa only [TaskFails] using make_task_struck hs
  · rw [if_neg hz]
    simpa only [TaskFails] using make_task_struck hs

end RTS.Hal

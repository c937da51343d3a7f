import RealTimeSystem.System.Formatting
import RealTimeSystem.System.Holding
import RealTimeSystem.System.Reloading
import RealTimeSystem.System.Retrying
import RealTimeSystem.System.Startup
import RealTimeSystem.Uspace.Unwinding

/-!
# System — the example task when its start fails

Every failure of `task_thread_main` after `hal_init` is followed by `hal_exit` and nothing else.
That takes the component back, and the reference to the UUID segment; the pins, the thread with its
task and the application segment stay.

**`task_thread_main_cleans_up`**: a start that fails leaves things as they were just when it fails
`Early`, before the first pin is on the list.
-/

namespace RTS.ExampleTask

open RTS.Support RTS.Hal RTS.Uspace

section
variable {σ : Type} {R : Rtapi σ} {cfg : Config} {s s' s₁ : State σ} {L L' L₁ : Lists}

/-! ### HAL is up -/

/-- What `task_thread_main` registers stays: the component, which `hal_exit` does not take out of a
HAL that is destroyed, or the first pin. -/
structure Stays (R : Rtapi σ) (cfg : Config) (s : State σ) : Prop where
  accepts : Accepts R s task1
  kept : s.shm.state = .destroyed ∨ ¬ (cfg.num_axis < 1 ∨ cfg.num_axis > MAX_AXES) ∧
    FirstPin s.shm (s.shm.arena.alloc .comp).2

theorem not_same (h : Inv s L) (h' : Inv s' L') (hne : view s'.shm L' ≠ view s.shm L) :
    ¬ SameRegistries s.shm s'.shm := fun hsame =>
  hne (h'.good.shape.holds.unique ((hsame _).mp h.good.shape.holds)).symm

theorem pinned_not_same (h : Inv s L) (hp : Pinned s L s') : ¬ SameRegistries s.shm s'.shm := by
  obtain ⟨L', hi, hlt⟩ := hp
  refine not_same h hi fun e => ?_
  rw [e] at hlt
  exact absurd hlt (Nat.lt_irrefl _)

/-- A component that came and went. -/
theorem without_added {g : Registry} (hg : g.Sound) {x : Nat} (comp : Comp)
    (hx : x ∉ keys g.comps) : (g.apply (.addComp x comp)).without x = g := by
  obtain ⟨hcomps, hparams, hfuncts⟩ := without_addComp hg comp hx
  have hthreads : ((g.apply (.addComp x comp)).without x).threads = g.threads := by
    -- no function is its own, so that no entry goes
    have hkept : ∀ f, ¬ (g.apply (.addComp x comp)).Owns x f := by
      rintro f ⟨p, hp, -, ho⟩
      exact hx (ho ▸ hg.owned_functs p hp)
    refine (List.map_congr_left fun t _ => ?_).trans (List.map_id _)
    simp only [hkept, not_false_eq_true, decide_true, List.filter_true, id_eq]
  rcases g with ⟨comps, pins, params, functs, threads⟩
  exact (Registry.mk.injEq ..).mpr ⟨hcomps, rfl, hparams, hfuncts, hthreads⟩

/-- **`hal_exit` of a component that has registered nothing.**  A HAL that is destroyed keeps it. -/
theorem hal_exit_added (h : Inv s L) {x : Nat} {c : Comp} (hm : Moved s L [.addComp x c] s₁ L₁) :
    Returns (hal_exit R c.comp_id) s₁ fun _ s' =>
      (s.shm.state ≠ .destroyed ∧ s'.rt = (R.exit c.comp_id s₁.rt).2 ∧
        SameRegistries s.shm s'.shm) ∨
      (s.shm.state = .destroyed ∧ ¬ SameRegistries s.shm s'.shm) := by
  have hf : (view s₁.shm L₁).findComp c.comp_id = some (x, c) :=
    Registry.findComp_head (by rw [hm.events]; rfl)
  have hx : x ∉ keys (view s.shm L).comps := by
    have hkeys := hm.inv.good.sound.comps_keys
    rw [hm.events] at hkeys
    exact (List.nodup_cons.mp hkeys).1
  have hparams : (keys (view s₁.shm L₁).params).Nodup := by
    rw [view, keys_tab]
    exact (hm.inv.good.shape.rep .param).used.nodup
  refine (hal_exit_spec R hm.inv c.comp_id).mono fun r s' hpost => ?_
  obtain ⟨hr, ⟨L', hm'⟩, _, hrt⟩ := hpost
  rw [hm.state] at hr hm'
  by_cases hd : s.shm.state = .destroyed
  · -- the list of the components has one more
    rw [Registry.exit, if_pos hd] at hm'
    refine .inr ⟨hd, not_same h hm'.inv fun e => ?_⟩
    have hlen := congrArg (fun g : Registry => g.comps.length) (hm'.events.symm.trans e)
    rw [hm.events] at hlen
    exact absurd hlen (Nat.succ_ne_self _)
  · rw [Registry.exit, if_neg hd, hf] at hr hm'
    refine .inl ⟨hd, hrt.trans (if_pos hr), .of_view h.good.shape hm'.inv.good.shape ?_⟩
    rw [hm'.events, Registry.applyAll_leave hm.inv.good.sound hparams, hm.events]
    exact without_added h.good.sound c hx

/-- RTAPI after a `hal_init` that is refused. -/
theorem init_rt_refused {name : CStr} (hn : ¬ name.length > HAL_NAME_LEN) (rt : σ) :
    init_rt R name [] rt = taken_back R (rtapi_name name) rt := by
  unfold init_rt taken_back
  rw [if_neg hn]
  by_cases hid : (R.init (rtapi_name name) rt).1 < 0
  · rw [if_pos hid, if_neg fun h => h.2 hid]
  · rw [if_neg hid, if_pos ⟨rfl, hid⟩]

/-- `hal_init`, with RTAPI. -/
theorem hal_init_taken (h : Inv s L) {name : CStr} (hn : ¬ name.length > HAL_NAME_LEN) :
    Returns (hal_init R (some name)) s fun r s' => ∃ L',
      (¬ Accepts R s name ∧ r < 0 ∧ Moved s L [] s' L' ∧
        s'.rt = taken_back R (rtapi_name name) s.rt) ∨
      (Accepts R s name ∧ ¬ r < 0 ∧ Arena.Beside .comp (s.shm.arena.alloc .comp).2 s'.shm.arena ∧
        (R.exit r s'.rt).2 = taken_back R (rtapi_name name) s.rt ∧
        ∃ x c, Moved s L [.addComp x c] s' L' ∧ c.comp_id = r ∧ c.ready = 0) := by
  refine (hal_init_found h name).with_eq.mono fun r s' ⟨hrun, L', hout⟩ => ⟨L', ?_⟩
  obtain ⟨hr, -, -, hrt⟩ := (hal_init_spec R h name).of_ok hrun
  rcases hout with ⟨hno, hneg, hm⟩ | ⟨hacc, hneg, hb, x, c, hm, hc, hready, -⟩
  · rcases inits_cases (R := R) h name with ⟨-, -, hevs⟩ | ⟨hacc, -⟩
    · rw [hevs, init_rt_refused hn] at hrt
      exact .inl ⟨hno, hneg, hm, hrt⟩
    · exact absurd hacc hno
  · rcases inits_cases (R := R) h name with ⟨hno, -⟩ | ⟨-, hid, y, d, hevs, -, -⟩
    · exact absurd hacc hno
    · rw [hevs, init_rt, if_neg hn, if_neg fun h => List.cons_ne_nil _ _ h.1] at hrt
      refine .inr ⟨hacc, hneg, hb, ?_, x, c, hm, hc, hready⟩
      rw [hrt, hr, hid, taken_back, if_neg (hid ▸ hr ▸ hneg)]

/-- The first pin is had beside the component just when it was to be had before. -/
theorem firstPin_added (h : Inv s L) {x : Nat} {c : Comp} (hm : Moved s L [.addComp x c] s₁ L₁)
    (hb : Arena.Beside .comp (s.shm.arena.alloc .comp).2 s₁.shm.arena) :
    FirstPin s₁.shm s₁.shm.arena ↔ FirstPin s.shm (s.shm.arena.alloc .comp).2 := by
  have hfree : (∀ p, s₁.shm.Listed .pin p → (s₁.shm.pin p).name ≠ enable_in_name) ↔
      ∀ p, s.shm.Listed .pin p → (s.shm.pin p).name ≠ enable_in_name := by
    have hpins : (view s₁.shm L₁).pins = (view s.shm L).pins := by
      rw [hm.events]
      rfl
    rw [← hm.inv.good.shape.pins_free, hpins, h.good.shape.pins_free]
  have hroom : Arena.Full { s₁.shm.arena with
        brk := (shmalloc_up s₁.shm.arena.brk TASK_HAL_DATA_SIZE).2 } .pin ↔
      Arena.Full { (s.shm.arena.alloc .comp).2 with
        brk := (shmalloc_up (s.shm.arena.alloc .comp).2.brk TASK_HAL_DATA_SIZE).2 } .pin := by
    rw [Arena.Full, Arena.Full, hb.pool .pin (by decide), hb.brk]
  constructor
  · intro hp
    exact ⟨hb.brk ▸ hp.memory, hm.lock ▸ hp.unlocked, hfree.mp hp.free,
      fun hf => hp.room (hroom.mpr hf)⟩
  · intro hp
    exact ⟨hb.brk.symm ▸ hp.memory, hm.lock.symm ▸ hp.unlocked, hfree.mpr hp.free,
      fun hf => hp.room (hroom.mp hf)⟩

/-- **From a HAL that is up** the start fails and undoes what it did, or what it registered
stays. -/
theorem task_thread_main_up (h : Inv s L) :
    Wp (task_thread_main R cfg) s (fun r s' =>
        (¬ Stays R cfg s ∧ r = -1 ∧ s'.rt = taken_back R (rtapi_name task1) s.rt ∧
          SameRegistries s.shm s'.shm) ∨
        (Stays R cfg s ∧ ¬ SameRegistries s.shm s'.shm)) fun _ _ => True := by
  unfold task_thread_main
  rw [wp_bind]
  refine (hal_init_taken h (by decide)).to_wp.mono (fun comp_id s₁ ⟨L₁, hout⟩ => ?_) fun _ _ => id
  rcases hout with ⟨hno, hneg, hm, hrt⟩ | ⟨hacc, hneg, hb, hback, x, c, hm, rfl, hready⟩
  · rw [if_pos hneg]
    exact .inl ⟨fun hr => hno hr.accepts, rfl, hrt, hm.same_registries h⟩
  rw [if_neg hneg]
  -- the component is all there is when `hal_exit` is called
  have hundone : ∀ {s₂ : State σ} {L₂ : Lists}, Moved s L [.addComp x c] s₂ L₂ → s₂.rt = s₁.rt →
      ¬ (¬ (cfg.num_axis < 1 ∨ cfg.num_axis > MAX_AXES) ∧
        FirstPin s.shm (s.shm.arena.alloc .comp).2) →
      Wp (do let _ ← hal_exit R c.comp_id; return -1 : Prog σ Int) s₂ (fun r s' =>
        (¬ Stays R cfg s ∧ r = -1 ∧ s'.rt = taken_back R (rtapi_name task1) s.rt ∧
          SameRegistries s.shm s'.shm) ∨
        (Stays R cfg s ∧ ¬ SameRegistries s.shm s'.shm)) fun _ _ => True := by
    intro s₂ L₂ hm₂ hrt₂ hno
    rw [wp_bind]
    refine (hal_exit_added h hm₂).to_wp.mono (fun _ s' hout => ?_) fun _ _ => id
    rw [hrt₂] at hout
    rcases hout with ⟨hd, hrt, hsame⟩ | ⟨hd, hne⟩
    · exact .inl ⟨fun hs => hno (hs.kept.resolve_left hd), rfl, hrt.trans hback, hsame⟩
    · exact .inr ⟨⟨hacc, .inl hd⟩, hne⟩
  unfold task_thread_phases
  refine .ite (fun haxes => hundone hm rfl fun hk => hk.1 haxes) fun haxes => ?_
  have hf : (view s₁.shm L₁).findComp c.comp_id = some (x, c) :=
    Registry.findComp_head (by rw [hm.events]; rfl)
  have hfirst := firstPin_added h hm hb
  rw [wp_bind]
  refine (init_hal_param_found hm.inv hf hready).mono (fun r s₂ hout => ?_) fun _ _ => id
  rw [hfirst] at hout
  rcases hout with ⟨hno, hr, hrt, L₂, hm₂⟩ | ⟨hpin, L₂, hi, hlt⟩
  · rw [if_pos hr]
    exact hundone (hm.trans hm₂) hrt fun hk => hno hk.2
  · rw [hm.events] at hlt
    refine Wp.mono (Enrolling.pinned ?_ hi hlt)
      (fun _ _ hp => .inr ⟨⟨hacc, .inr ⟨haxes, hpin⟩⟩, pinned_not_same h hp⟩) fun _ _ => id
    have hexit : Enrolling (do
        let _ ← hal_exit R c.comp_id
        return -1 : Prog σ Int) := .bind (.hal_exit _) fun _ => .pure
    exact .ite hexit <| .bind init_task_comm_buffers_enrolling fun _ => .ite hexit <|
      .bind (init_task_threads_enrolling cfg) fun _ => .ite hexit <|
      .bind (.hal_ready _) fun _ => .pure

end

/-! ### HAL is not up -/

section
variable {K : Kernel} {cfg : Config} {m : Machine} {s s' s₁ : State Machine} {i : Nat}

/-- HAL was destroyed, and the process has not let go of it. -/
def Torn (s : State Machine) : Prop := s.hal_data ≠ 0 ∧ s.shm.state = .destroyed

variable (K) in
/-- `hal_init_lib` is given a module id and the handle of the HAL segment. -/
def Attaches (s : State Machine) : Prop :=
  let pid := (rtapi K).getpid s.rt
  let id := (rtapi K).init (lib_pid_name pid.1) pid.2
  ¬ Torn s ∧ ¬ id.1 < 0 ∧ ¬ ((rtapi K).shmem_new HAL_KEY id.1 HAL_SIZE id.2).1 < 0

/-- HAL has a handle, which it counted once more if it was open. -/
def Attached (s s₁ : State Machine) : Prop :=
  ∃ i, s₁.rt.process.Guards i ∧ ∀ c, s.rt.process.references i = some (HAL_KEY, c) →
    (s₁.rt.process.shmem_array i).count = toInt32 (c + 1)

/-- The calls of RTAPI leave the tasks. -/
theorem init_tasks (name : CStr) :
    ((rtapi K).init name m).2.process.task_array = m.process.task_array :=
  perform_of_every (SameTasks.rtapi_init name m.process [])

theorem exit_tasks (module_id : Int) :
    ((rtapi K).exit module_id m).2.process.task_array = m.process.task_array :=
  perform_of_every (SameTasks.rtapi_exit module_id m.process [])

theorem shmem_new_tasks (key module_id size : Int) :
    ((rtapi K).shmem_new key module_id size m).2.process.task_array = m.process.task_array :=
  perform_of_every (SameTasks.rtapi_shmem_new key module_id size.toNat m.process [])

/-- **`hal_init_lib`.**  Where it fails nothing is registered, and what it took of RTAPI is given
back just when it is `Returnable`. -/
theorem hal_init_lib_found (hs : Separate s.rt.process) :
    Wp (hal_init_lib (rtapi K)) s (fun r s₁ =>
      (¬ Attaches K s ∧ r < 0 ∧ s₁.shm = s.shm ∧
        s₁.rt.process.task_array = s.rt.process.task_array ∧
        (SameReferences s.rt.process s₁.rt.process ↔ Torn s ∨
          Returnable K (lib_pid_name ((rtapi K).getpid s.rt).1) ((rtapi K).getpid s.rt).2)) ∨
      (Attaches K s ∧ r = 0 ∧ Attached s s₁)) fun _ _ => True := by
  have hneg : -EINVAL < 0 := by decide
  unfold hal_init_lib
  simp only [wp_bind, wp_get]
  refine .ite (fun ht => .inl ⟨fun ha => ha.1 ht, hneg, rfl, rfl, iff_of_true (fun _ _ => rfl)
    (.inl ht)⟩) fun ht : ¬ Torn s => ?_
  set pid := (rtapi K).getpid s.rt with hpid
  have hs₁ : Separate pid.2.process := hs
  have hback := taken_back_references (K := K) hs₁ (lib_pid_name pid.1)
  set id := (rtapi K).init (lib_pid_name pid.1) pid.2 with hid
  have htasks : id.2.process.task_array = s.rt.process.task_array := init_tasks _
  refine .ite (fun hi : id.1 < 0 => ?_) fun hi : ¬ id.1 < 0 => ?_
  · rw [taken_back, if_pos hi] at hback
    exact .inl ⟨fun ha => ha.2.1 hi, hneg, rfl, htasks, hback.trans (or_iff_right ht).symm⟩
  have hnew := shmem_new_after_init hs₁ (lib_pid_name pid.1) (show HAL_KEY ≠ UUID_KEY by decide)
    HAL_SIZE hid rfl hi
  set n := (rtapi K).shmem_new HAL_KEY id.1 HAL_SIZE id.2 with hn
  refine .ite (fun hneg' : n.1 < 0 => ?_) fun hpos : ¬ n.1 < 0 => ?_
  · -- the module is given back
    have hcount := (hnew.resolve_right fun hmade => by
      obtain ⟨i, hni, _⟩ := hmade
      omega).2
    refine .inl ⟨fun ha => ha.2.2 hneg', hneg, rfl, ?_, hcount.trans ⟨fun hc => ?_, fun hret => ?_⟩⟩
    · exact (exit_tasks _).trans ((shmem_new_tasks _ _ _).trans htasks)
    · exact .inr ⟨fun hi' => absurd hi' hi, hc⟩
    · exact (hret.resolve_left ht).counted
  obtain ⟨i, hni, hk, hvi, hkey, hcount⟩ := hnew.resolve_left fun h => hpos h.1
  have hp := (getptr_mounted (K := K) hk ⟨hvi, hkey, rfl⟩).1
  rw [← hni] at hp
  refine .ite (fun hneg' : ((rtapi K).shmem_getptr n.1 n.2).1.1 < 0 => ?_) fun _ => ?_
  · rw [hp] at hneg'
    exact absurd hneg' (Int.lt_irrefl 0)
  rw [wp_bind, wp_modify, wp_bind]
  have hkept := (Holds.outer (K := K) (i := i)).init_hal_data
  refine Wp.mono (Wp.with_eq (hkept _)) (fun r s₁ hpost => ?_) fun _ _ _ => trivial
  obtain ⟨hrun, hh⟩ := hpost
  refine .ite (fun hne => absurd ((init_hal_data_returns _ _).of_ok hrun) hne) fun _ => ?_
  refine .inr ⟨⟨ht, hi, hpos⟩, rfl, i, ?_⟩
  have hg : ((rtapi K).shmem_getptr n.1 n.2).2.process.Guards i := by
    rw [getptr_process]
    exact .of_keyed hk hvi hkey
  obtain ⟨hg', hslot⟩ := hh hg
  refine ⟨hg', fun c hc => ?_⟩
  rw [hslot]
  show (((rtapi K).shmem_getptr n.1 n.2).2.process.shmem_array i).count = _
  rw [getptr_process]
  exact hcount c hc

/-! ### The handle of HAL -/

/-- What comes after `hal_init` counts the handle of HAL once more at most. -/
theorem task_thread_phases_recounts (comp_id : Int) :
    Along (Recounts i) (task_thread_phases (rtapi K) cfg comp_id) := by
  have hk := (Holds.outer (K := K) (i := i)).keeps
  have hexit : Along (Holds i) (do
      let _ ← hal_exit (rtapi K) comp_id
      return -1 : Prog Machine Int) := .bind (hk.hal_exit _) fun _ => .pure
  have hbuffers : Along (Holds i) (init_task_comm_buffers (rtapi K) comp_id) :=
    .bind (Holds.shmem_new (by decide) _ _) fun _ => .ite .pure <|
      .bind (Holds.shmem_getptr _) fun _ => .ite .pure .pure
  have hthreads : Along (Recounts i) (init_task_threads (rtapi K) cfg comp_id) :=
    Recounts.before (Recounts.hal_create_thread _ _ _ _) fun _ => .ite .pure <|
      .bind (hk.hal_export_funct _ _ _ _ _ _) fun _ => .ite .pure <|
      .bind (hk.hal_export_funct _ _ _ _ _ _) fun _ => .ite .pure <|
      .bind (hk.hal_add_funct_to_thread _ _ _) fun _ =>
      .bind (hk.hal_add_funct_to_thread _ _ _) fun _ => .pure
  exact .ite (Holds.along hexit) <| Recounts.after (init_hal_param_along hk comp_id) fun _ =>
    .ite (Holds.along hexit) <| Recounts.after hbuffers fun _ => .ite (Holds.along hexit) <|
    Recounts.before hthreads fun _ => .ite hexit <| .bind (hk.hal_ready _) fun _ => .pure

/-- A handle that was counted is not as it was. -/
theorem Attached.not_same (h : Attached s s₁) (hr : ∀ i, Recounts i s₁ s') :
    ¬ SameReferences s.rt.process s'.rt.process := by
  obtain ⟨i, hg, hc⟩ := h
  obtain ⟨hg', hcount⟩ := hr i hg
  intro hsame
  have he := hsame i (hg'.separate.low i hg'.valid)
  rw [hg'.references] at he
  have hc := hc _ he.symm
  rcases hcount with h | h
  · rw [h] at hc
    exact toInt32_succ_ne _ hc.symm
  · have htwice : toInt32 (toInt32 ((s'.rt.process.shmem_array i).count + 1) + 1) =
        toInt32 ((s'.rt.process.shmem_array i).count + 2) := by
      have : toInt32 (toInt32 ((s'.rt.process.shmem_array i).count + 1) + 1) =
          toInt32 ((s'.rt.process.shmem_array i).count + 1 + 1) := Int.bmod_add_bmod
      rw [this, Int.add_assoc]
      rfl
    rw [hc, htwice] at h
    exact toInt32_add_ne _ (by decide) (by decide) h.symm

/-! ### The whole -/

/-- The open handles are mapped and have different keys, and a HAL that is attached is in order. -/
structure Starting (s : State Machine) : Prop where
  separate : Separate s.rt.process
  up : s.lib_mem_id ≠ 0 → s.hal_data ≠ 0 → ∃ L, Inv s L

/-- The handles stay mapped, and keep different keys. -/
def Separating (s s' : State Machine) : Prop := Separate s.rt.process → Separate s'.rt.process

instance : Std.Refl Separating where
  refl _ := id

instance : IsTrans (State Machine) Separating where
  trans _ _ _ h h' hs := h' (h hs)

namespace Separating

theorem outer : Outer (rtapi K) Separating where
  inside _ _ _ _ _ := id
  step _ _ hs h := h.step hs

theorem shmem_new (key module_id size : Int) :
    Along Separating (call ((rtapi K).shmem_new key module_id size)) :=
  .modifyGet fun s h =>
    (perform_of_every (K := K) (m := s.rt) (h.shmem_new (l := []) key module_id size.toNat)).1

theorem shmem_getptr (handle : Int) : Along Separating (call ((rtapi K).shmem_getptr handle)) :=
  .modifyGet fun s h => by
    show Separate ((rtapi K).shmem_getptr handle s.rt).2.process
    rwa [getptr_process]

theorem shmem_delete (handle module_id : Int) :
    Along Separating (call ((rtapi K).shmem_delete handle module_id)) :=
  .modifyGet fun s h =>
    perform_of_every (K := K) (m := s.rt) (h.shmem_delete (l := []) handle module_id)

theorem hal_init_lib : Along Separating (hal_init_lib (rtapi K)) :=
  have ho := outer (K := K)
  .bind .get fun _ => .ite .pure <| .bind (ho.call fun _ => .getpid) fun _ =>
    .bind (ho.call fun _ => .init _) fun _ => .bind (.modify fun _ => id) fun _ => .ite .pure <|
    .bind (shmem_new _ _ _) fun _ => .bind (.modify fun _ => id) fun _ =>
    .ite (.bind (ho.call fun _ => .exit _) fun _ => .pure) <| .bind (shmem_getptr _) fun _ =>
    .ite (.bind (ho.call fun _ => .exit _) fun _ => .pure) <| .bind (.modify fun _ => id) fun _ =>
    .bind ho.init_hal_data fun _ => .ite (.bind (ho.call fun _ => .exit _) fun _ => .pure) .pure

theorem hal_app_main : Along Separating (hal_app_main (rtapi K)) :=
  have ho := outer (K := K)
  have hfail : ∀ mem_id id, Along Separating (do
      let _ ← call ((rtapi K).shmem_delete mem_id id)
      let _ ← call ((rtapi K).exit id)
      return -EINVAL : Prog Machine Int) := fun _ _ =>
    .bind (shmem_delete _ _) fun _ => .bind (ho.call fun _ => .exit _) fun _ => .pure
  .bind (ho.call fun _ => .init _) fun _ => .bind (.modify fun _ => id) fun _ => .ite .pure <|
    .bind (shmem_new _ _ _) fun _ => .bind (.modify fun _ => id) fun _ =>
    .ite (.bind (ho.call fun _ => .exit _) fun _ => .pure) <| .bind (shmem_getptr _) fun _ =>
    .ite (hfail _ _) <| .bind (.modify fun _ => id) fun _ => .bind ho.change fun _ =>
    .bind ho.init_hal_data fun _ => .ite (hfail _ _) .pure

end Separating

/-- **Every state of a run of HAL is one to start from.** -/
theorem starting_of_run {s₀ : State Machine} {allowed : State Machine → Op → Prop}
    (hb : Boots (rtapi K) s₀ s₁) (hs : Separate s₀.rt.process) (hr : Runs (rtapi K) allowed s₁ s) :
    Starting s := by
  refine ⟨?_, fun _ _ => hr.inv ⟨_, hb.inv⟩⟩
  induction hr with
  | start =>
      rcases hb.up with h | h
      · exact Separating.hal_app_main.of_ok h hs
      · exact Separating.hal_init_lib.of_ok h hs
  | op op _ _ _ hrun ih => exact (Separating.outer.op Separating.hal_init_lib op).of_ok hrun ih
  | @cycle s s' code t _ _ hrun ih =>
      have hproc : s'.rt.process = s.rt.process :=
        thread_task_cycle_rt (P := fun rt => rt.process = s.rt.process) (fun _ h => h) code t rfl hrun
      rw [hproc]
      exact ih

/-- The registries of HAL, the live tasks and the references to the handles are as before. -/
structure CleansUp (s s' : State Machine) : Prop where
  registries : SameRegistries s.shm s'.shm
  tasks : ∀ n, s'.rt.process.Alive n ↔ s.rt.process.Alive n
  references : SameReferences s.rt.process s'.rt.process

variable (K cfg) in
/-- The start fails before anything that it registers stays, and before it attaches to HAL, and what
it took of RTAPI is given back. -/
def Early (s : State Machine) : Prop :=
  if s.lib_mem_id = 0 then
    ¬ Attaches K s ∧ (Torn s ∨
      Returnable K (lib_pid_name ((rtapi K).getpid s.rt).1) ((rtapi K).getpid s.rt).2)
  else ¬ Stays (rtapi K) cfg s ∧ Returnable K (rtapi_name task1) s.rt

theorem cleansUp_iff (hr : SameRegistries s.shm s'.shm)
    (ht : s'.rt.process.task_array = s.rt.process.task_array) :
    CleansUp s s' ↔ SameReferences s.rt.process s'.rt.process := by
  refine ⟨fun h => h.references, fun h => ⟨hr, fun n => ?_, h⟩⟩
  unfold Process.Alive
  rw [ht]

/-- A `hal_init` that goes past a null `hal_data` fails in `rtapi_init`. -/
theorem hal_init_unattached (hid : s.lib_mem_id ≠ 0)
    (hneg : ((rtapi K).init (rtapi_name task1) s.rt).1 < 0) :
    hal_init (rtapi K) (some task1) s =
      .ok (-EINVAL) { s with rt := ((rtapi K).init (rtapi_name task1) s.rt).2 } := by
  have hn : Nameable (some task1) := show _ ≤ _ by decide
  rw [hal_init_nameable _ hn]
  refine bind_eq_ok.mpr ⟨0, s, block_skipped hid, ?_⟩
  refine bind_eq_ok.mpr ⟨_, _, rfl, ?_⟩
  exact congrFun (if_pos hneg) _

/-- **`task_thread_main` cleans up** after a failure just when it is `Early`. -/
theorem task_thread_main_cleans_up (h : Starting s)
    (hrun : task_thread_main (rtapi K) cfg s = .ok (-1) s') : CleansUp s s' ↔ Early K cfg s := by
  have hn : Nameable (some task1) := show _ ≤ _ by decide
  by_cases hid : s.lib_mem_id = 0
  · rw [Early, if_pos hid]
    obtain ⟨comp_id, s₁, hinit, hrest⟩ := bind_eq_ok.mp hrun
    rw [hal_init_nameable _ hn] at hinit
    obtain ⟨retval, s₂, hblock, hcomp⟩ := bind_eq_ok.mp hinit
    have hlib := (block_run hid).symm.trans hblock
    rcases (hal_init_lib_found h.separate).of_ok hlib with ⟨hno, hneg, hshm, ht, hback⟩ | ⟨hatt, rfl, hheld⟩
    · cases (congrFun (if_pos (Int.ne_of_lt hneg)) s₂).symm.trans hcomp
      cases (congrFun (if_pos hneg) s₁).symm.trans hrest
      exact (cleansUp_iff (hshm ▸ .refl _) ht).trans (hback.trans (and_iff_right hno).symm)
    · -- HAL is attached now, and stays so
      refine iff_of_false (fun hc => hheld.not_same (fun i hi => ?_) hc.references) fun he => he.1 hatt
      have hfirst : Holds i s₂ s₁ := ((Holds.outer (K := K)).keeps.hal_init_comp task1).of_ok hcomp
      have hlast : Recounts i s₁ s' := Along.of_ok
        (.ite (Holds.along .pure) (task_thread_phases_recounts comp_id)) hrest
      obtain ⟨hi₁, e⟩ := hfirst hi
      exact e ▸ hlast hi₁
  rw [Early, if_neg hid]
  by_cases hd : s.hal_data = 0
  · -- an earlier attempt has left `lib_mem_id` set
    obtain ⟨comp_id, s₁, hinit, hrest⟩ := bind_eq_ok.mp hrun
    by_cases hneg : ((rtapi K).init (rtapi_name task1) s.rt).1 < 0
    swap
    · exact ((hal_init_null hn hid hd hneg).of_ok hinit).elim
    cases (hal_init_unattached hid hneg).symm.trans hinit
    cases hrest
    have hback := taken_back_references (K := K) h.separate (rtapi_name task1)
    rw [taken_back, if_pos hneg] at hback
    have hno : ¬ Stays (rtapi K) cfg s := fun hs => hs.accepts.2.1 hneg
    refine Iff.trans (cleansUp_iff (.refl _) ?_) (hback.trans (and_iff_right hno).symm)
    exact init_tasks _
  · obtain ⟨L, hL⟩ := h.up hid hd
    rcases (task_thread_main_up hL).of_ok hrun with ⟨hno, -, hrt, hsame⟩ | ⟨hreg, hp⟩
    · rw [cleansUp_iff hsame (hrt ▸ taken_back_tasks _), hrt, taken_back_references h.separate]
      exact (and_iff_right hno).symm
    · exact iff_of_false (fun hc => hp hc.registries) fun he => he.1 hreg

end

/-- The example task with so many axes. -/
def axes (n : Int) : Config := ⟨n, 1000000, 8, 16⟩

theorem fresh_separate : Separate fresh.rt.process :=
  .of_closed fun _ => show ¬ (0 : Int) = SHMEM_MAGIC by decide

theorem started_starting : Starting started :=
  have hruns : Runs (rtapi serving) (fun _ _ => True) started started := .start
  starting_of_run started_starts.boots fresh_separate hruns

/-- There are no axes, and nothing is left. -/
theorem task_thread_main_cleans_up_sample :
    CleansUp started (after (task_thread_main (rtapi serving) (axes 0)) started) := by
  have hrun : task_thread_main (rtapi serving) (axes 0) started = .ok (-1) _ :=
    result_eq (by decide +kernel)
  refine (task_thread_main_cleans_up started_starting hrun).mpr ?_
  rw [Early, if_neg (by decide +kernel)]
  refine ⟨fun hs => ?_, fun hneg => absurd hneg (by decide +kernel), by decide +kernel⟩
  exact hs.kept.elim (fun hd => absurd hd (by decide +kernel)) fun hk => hk.1 (.inl (by decide))

/-- Another component has a function of the example task. -/
def contended : State Machine := played (rtapi serving)
  [.hal_init (some (lit ['c'])), .hal_export_funct controller_name 8 16 0 1 2] started

/-- The last function is refused: the pins, the thread with its task and the application segment
are left. -/
theorem function_refused : ∃ s', Starting contended ∧
    task_thread_main (rtapi serving) (axes 4) contended = .ok (-1) s' ∧ ¬ CleansUp contended s' ∧
      ¬ SameRegistries contended.shm s'.shm ∧
      (∃ n, s'.rt.process.Alive n ∧ ¬ contended.rt.process.Alive n) ∧
      ¬ SameReferences contended.rt.process s'.rt.process := by
  have hrun : task_thread_main (rtapi serving) (axes 4) contended = .ok (-1) _ :=
    result_eq (by decide +kernel)
  have hruns : Runs (rtapi serving) (fun _ _ => True) started contended :=
    Playable.runs ⟨trivial, trivial, by decide +kernel, trivial, trivial, by decide +kernel, trivial⟩
      .start
  have hs : Starting contended :=
    starting_of_run started_starts.boots fresh_separate hruns
  have halive : (after (task_thread_main (rtapi serving) (axes 4)) contended).rt.process.Alive 0 ∧
      ¬ contended.rt.process.Alive 0 := by decide +kernel
  refine ⟨_, hs, hrun, fun hc => halive.2 ((hc.tasks 0).mp halive.1), fun hsame => ?_, ⟨0, halive⟩,
    by decide +kernel⟩
  -- a start that registers nothing that stays leaves the tasks
  obtain ⟨L, hL⟩ := hs.up (by decide +kernel) (by decide +kernel)
  rcases (task_thread_main_up hL).of_ok hrun with ⟨-, -, hrt, -⟩ | ⟨-, hne⟩
  · have htasks := taken_back_tasks (K := serving) (m := contended.rt) (rtapi_name task1)
    rw [← hrt] at htasks
    have halive₀ := halive
    unfold Process.Alive at halive₀
    rw [htasks] at halive₀
    exact halive₀.2 halive₀.1
  · exact hne hsame

end RTS.ExampleTask

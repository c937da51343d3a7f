import RealTimeSystem.System.Exporting
import RealTimeSystem.System.Correspondence

/-!
# System — a thread that cannot be created

`hal_create_thread` starts the task and lists the thread before it makes its component, with the
parameter `.tmax` and the pin `.time`; when one of these is refused it fails and takes nothing back.
`Makes` says that it gets as far as a structure for the thread, `Employs` that the thread gets a
running task, `Equips` that nothing is refused after it.
-/

namespace RTS.Hal

open RTS.Support RTS.Uspace

variable {σ : Type} {R : Rtapi σ} {s s' : State σ} {L L' : Lists}

/-! ### The component of a thread -/

/-- The component of a new thread is not refused: in the segment `m`, with the memory of `a`, and
RTAPI in the state `rt`. -/
structure Founds (R : Rtapi σ) (m : Segment) (a : Arena) (rt : σ) (name : CStr) : Prop where
  id : ¬ (R.init (rtapi_name (thread_comp_name name)) rt).1 < 0
  comp_free : ∀ c, m.Listed .comp c → (m.comp c).name ≠ thread_comp_name name
  comp_room : ¬ a.Full .comp

/-- Nor is what it registers. -/
structure Equips (R : Rtapi σ) (m : Segment) (a : Arena) (rt : σ) (name : CStr) : Prop
    extends Founds R m a rt name where
  unlocked : ¬ m.lock &&& HAL_LOCK_LOAD ≠ 0
  param_free : ¬ m.ParamTaken (rt_snprintf (HAL_NAME_LEN + 1) (name ++ dotTmax))
  param_room : ¬ (a.alloc .comp).2.Full .param
  pin_short : ¬ (name ++ dotTime).length > HAL_NAME_LEN
  pin_free : ∀ p, m.Listed .pin p → (m.pin p).name ≠ name ++ dotTime
  pin_room : ¬ ((a.alloc .comp).2.alloc .param).2.Full .pin

theorem rt_snprintf_length (n : Nat) (name : CStr) :
    ¬ (rt_snprintf (n + 1) name).length > n := by
  rw [rt_snprintf, List.length_take]
  omega

theorem rt_snprintf_twice (name : CStr) :
    rt_snprintf (HAL_NAME_LEN + 1) (rt_snprintf (HAL_NAME_LEN + 1) name) =
      rt_snprintf (HAL_NAME_LEN + 1) name :=
  rt_snprintf_short (rt_snprintf_length HAL_NAME_LEN name)

/-- The component of an id, when one with this id is put at the head. -/
theorem Registry.findComp_head {g : Registry} {x : Nat} {c : Comp} {rest : List (Nat × Comp)}
    (hg : g.comps = (x, c) :: rest) : g.findComp c.comp_id = some (x, c) := by
  rw [findComp, hg, List.find?_cons_of_pos (by simp)]

/-- **`hal_init`, with the memory it leaves.** -/
theorem hal_init_found (h : Inv s L) (name : CStr) :
    Returns (hal_init R (some name)) s fun r s' => ∃ L',
      (¬ Accepts R s name ∧ r < 0 ∧ Moved s L [] s' L') ∨
      (Accepts R s name ∧ ¬ r < 0 ∧ Arena.Beside .comp (s.shm.arena.alloc .comp).2 s'.shm.arena ∧
        ∃ x c, Moved s L [.addComp x c] s' L' ∧
          c.comp_id = r ∧ c.ready = 0 ∧ c.type = .realtime) := by
  refine (hal_init_spec R h name).with_eq.mono fun r s' ⟨hrun, hr, ⟨L', hm⟩, _, _⟩ => ?_
  have hroom := (hal_init_room R h name).of_ok hrun
  refine ⟨L', ?_⟩
  rcases inits_cases (R := R) h name with ⟨hno, hneg, hevs⟩ | ⟨hacc, hid, x, c, hevs, hc, -⟩
  · rw [hevs] at hm
    exact .inl ⟨hno, hr ▸ hneg, hm⟩
  · have hr0 : ¬ r < 0 := by
      rw [hr, hid]
      exact hacc.2.1
    refine .inr ⟨hacc, hr0, hroom hr0, x, c, by rw [← hevs]; exact hm, by rw [hr, hid, hc], ?_⟩
    -- a new component is not ready
    unfold inits Registry.init at hevs
    split_ifs at hevs
    cases hevs
    exact ⟨rfl, rfl⟩

theorem Shape.comp_free {m : Segment} (h : Shape m.arena L) {name : CStr} :
    m.halpr_find_comp_by_name name = some 0 ↔ ∀ c, m.Listed .comp c → (m.comp c).name ≠ name := by
  rcases find_comp_name_cases h name with ⟨hf, hnone⟩ | ⟨x, hx, hx0, hxn, hf⟩
  · refine iff_of_true hf fun c hc => ?_
    exact hnone (c, m.comp c) (mem_tab.mpr ⟨h.listed.mp hc, rfl⟩)
  · refine iff_of_false (fun e => hx0 (Option.some.inj (hf.symm.trans e))) fun hall => ?_
    exact hall x (h.listed.mpr hx) hxn

/-- What holds of all records of a table holds of all that are listed. -/
theorem Shape.all_listed {m : Segment} (h : Shape m.arena L) (k : Kind) {α : Type} (f : Nat → α)
    (P : α → Prop) : (∀ p ∈ tab f (L.act k), P p.2) ↔ ∀ x, m.Listed k x → P (f x) := by
  constructor
  · intro hall x hx
    exact hall (x, f x) (mem_tab.mpr ⟨h.listed.mp hx, rfl⟩)
  · intro hall p hp
    obtain ⟨hx, he⟩ := mem_tab.mp hp
    exact he ▸ hall p.1 (h.listed.mpr hx)

theorem Shape.comps_free {m : Segment} (h : Shape m.arena L) {name : CStr} :
    (∀ p ∈ (view m L).comps, p.2.name ≠ name) ↔ ∀ c, m.Listed .comp c → (m.comp c).name ≠ name :=
  h.all_listed .comp m.comp (·.name ≠ name)

theorem Shape.pins_free {m : Segment} (h : Shape m.arena L) {name : CStr} :
    (∀ p ∈ (view m L).pins, p.2.name ≠ name) ↔ ∀ p, m.Listed .pin p → (m.pin p).name ≠ name :=
  h.all_listed .pin m.pin (·.name ≠ name)

/-- Nothing is registered while HAL is locked against loading. -/
theorem Registry.param_new_locked {g : Registry} {base : Addr} {lock : UInt8} {new : Nat}
    (hl : lock &&& HAL_LOCK_LOAD ≠ 0) (name : CStr) (type : HalType) (dir : ParamDir)
    (data_addr : Addr) (comp_id : Int) :
    (g.param_new base lock new name type dir data_addr comp_id).1 ≠ 0 := by
  unfold param_new
  split_ifs <;> decide

theorem accepts_thread_comp (h : Shape s.shm.arena L) {name : CStr} :
    Accepts R s (thread_comp_name name) ↔ Founds R s.shm s.shm.arena s.rt name := by
  have hcut : rt_snprintf (HAL_NAME_LEN + 1) (thread_comp_name name) = thread_comp_name name :=
    rt_snprintf_twice _
  rw [Accepts, hcut, h.comp_free]
  constructor
  · rintro ⟨-, hid, hfree, hroom⟩
    exact ⟨hid, hfree, hroom⟩
  · rintro ⟨hid, hfree, hroom⟩
    exact ⟨rt_snprintf_length _ _, hid, hfree, hroom⟩

/-- **The part of `hal_create_thread` without the mutex** fails just if something is refused, and
registers nothing when the component is. -/
theorem create_thread_comp_found (h : Inv s L) {new : Nat} (ht : new ∈ L.act .thread) {name : CStr}
    (hname : (s.shm.thread new).name = name) :
    Returns (create_thread_comp R new) s fun r s' =>
      (r < 0 ↔ ¬ Equips R s.shm s.shm.arena s.rt name) ∧
      (¬ Founds R s.shm s.shm.arena s.rt name →
        ∃ L' th, Moved s L [.setThread new th] s' L') := by
  have hE : -EINVAL < 0 := by decide
  have hin : ∀ {off : Nat}, off < Kind.thread.size →
      SHMCHK s.hal_shmem_base (s.hal_shmem_base + (new + off)) = true :=
    fun hoff => h.good.shape.shmchk (by decide) ht hoff _
  unfold create_thread_comp
  simp only [returns_bind, returns_get]
  rw [hname]
  refine (hal_init_found h (thread_comp_name name)).mono fun comp_id s₁ hpost => ?_
  obtain ⟨L₁, hout⟩ := hpost
  rw [accepts_thread_comp h.good.shape] at hout
  set s₂ : State σ := { s₁ with
    shm := s₁.shm.setThread new { s₁.shm.thread new with comp_id := comp_id } } with hs₂
  show Returns (if comp_id < 0 then _ else _) s₂ _
  have hset : ∀ {evs}, Moved s L evs s₁ L₁ →
      Moved s L (evs ++ [.setThread new { s₁.shm.thread new with comp_id := comp_id }]) s₂ L₁ := by
    intro evs h₁
    obtain ⟨hg₂, hv₂⟩ := h₁.inv.good.setThread new
      (show ({ s₁.shm.thread new with comp_id := comp_id } : Thread).name = _ from rfl)
    exact h₁.trans ⟨{ h₁.inv with good := hg₂ }, hv₂, rfl, rfl, rfl, rfl⟩
  rcases hout with ⟨hno, hneg, h₁⟩ | ⟨hacc, hr0, hb₁, x, c, h₁, hc, hready, -⟩
  · rw [if_pos hneg]
    exact ⟨iff_of_true hE fun he => hno he.toFounds, fun _ => ⟨L₁, _, hset h₁⟩⟩
  rw [if_neg hr0]
  have h₂ := hset h₁
  -- with the component, only the result matters
  refine Returns.mono (Q := fun r _ => r < 0 ↔ ¬ Equips R s.shm s.shm.arena s.rt name) ?_
    fun _ _ hr => ⟨hr, fun hno => absurd hacc hno⟩
  simp only [returns_bind]
  rw [returns_setData]
  set s₃ := s₂.setData (s.hal_shmem_base + (new + THREAD_MAXTIME)) 0 with hs₃
  have h₃ := h₂.setData (s.hal_shmem_base + (new + THREAD_MAXTIME)) 0
  have hcomps₃ : (view s₃.shm L₁).comps = (x, c) :: (view s.shm L).comps := by
    rw [h₃.events]
    rfl
  have hparams₃ : (view s₃.shm L₁).params = (view s.shm L).params := by
    rw [h₃.events]
    rfl
  have hpins₃ : (view s₃.shm L₁).pins = (view s.shm L).pins := by
    rw [h₃.events]
    rfl
  have hf₃ : (view s₃.shm L₁).findComp comp_id = some (x, c) :=
    hc ▸ Registry.findComp_head hcomps₃
  have hb₃ : Arena.Beside .comp (s.shm.arena.alloc .comp).2 s₃.shm.arena := hb₁
  unfold hal_param_s32_new
  by_cases hlock : s.shm.lock &&& HAL_LOCK_LOAD ≠ 0
  · refine (hal_param_new_refines h₃.inv _ _ _ _ _).mono fun r₄ s₄ hr₄ => ?_
    have hr : r₄ ≠ 0 := by
      rw [hr₄.1]
      exact Registry.param_new_locked (h₃.lock.symm ▸ hlock) _ _ _ _ _
    rw [if_pos hr]
    exact iff_of_true hE fun he => he.unlocked hlock
  refine (hal_param_new_found h₃.inv hf₃ hready (h₃.lock.symm ▸ hlock) (rt_snprintf_length _ _)
    (by decide) (.inr rfl) (h₃.base.symm ▸ hin (by decide))).mono fun r₄ s₄ hpost => ?_
  obtain ⟨evs₁, L₄, h₄, hr₄, ha₁, hbe₁, _⟩ := hpost
  rw [h₃.inv.good.shape.param_taken, hparams₃, ← h.good.shape.param_taken, hb₃.full] at ha₁
  rcases ha₁ with ⟨hfits₁, rfl⟩ | ⟨hno, rfl⟩
  swap
  · rw [if_pos fun e => hr₄.mp e rfl]
    exact iff_of_true hE fun he => hno ⟨he.param_free, he.param_room⟩
  rw [if_neg (not_not_intro (hr₄.mpr (List.cons_ne_nil _ _)))]
  simp only [returns_bind]
  have h₃₄ := h₃.trans h₄
  have hf₄ : (view s₄.shm L₄).findComp comp_id = some (x, c) := by
    have hcomps₄ : (view s₄.shm L₄).comps = (x, c) :: (view s.shm L).comps := by
      rw [h₄.events]
      exact hcomps₃
    exact hc ▸ Registry.findComp_head hcomps₄
  have hpins₄ : (view s₄.shm L₄).pins = (view s.shm L).pins := by
    rw [h₄.events]
    exact hpins₃
  have hroom₄ : s₄.shm.arena.Full .pin ↔
      ((s.shm.arena.alloc .comp).2.alloc .param).2.Full .pin :=
    ((hbe₁ (List.cons_ne_nil _ _)).full _).trans ((hb₃.alloc (by decide)).2.full _)
  refine (hal_pin_newf_found h₄.inv hf₄ hready (h₃₄.lock.symm ▸ hlock) (name ++ dotTime)
    (by decide) (h₃₄.base.symm ▸ hin (by decide))).mono fun r₅ s₅ hpost => ?_
  obtain ⟨evs₂, L₅, h₅, hr₅, ha₂, hpin⟩ := hpost
  rw [hpins₄, h.good.shape.pins_free, hroom₄] at ha₂
  rcases ha₂ with ⟨hfits₂, rfl⟩ | ⟨hno, rfl⟩
  swap
  · rw [if_pos fun e => hr₅.mp e rfl]
    exact iff_of_true hE fun he => hno ⟨he.pin_short, he.pin_free, he.pin_room⟩
  have hr0' : r₅ = 0 := hr₅.mpr (List.cons_ne_nil _ _)
  rw [if_neg (not_not_intro hr0')]
  have hcell : s₅.shm.cell (new + THREAD_RUNTIME) ≠ 0 := by
    have := (hpin hr0').2
    rwa [h₃₄.base, Nat.add_sub_cancel_left] at this
  simp only [returns_bind]
  rw [returns_storeThrough hcell]
  have h₆ := h₅.setData (s₅.shm.cell (new + THREAD_RUNTIME)) 0
  refine (hal_ready_refines h₆.inv comp_id).mono fun _ _ _ => ?_
  refine iff_of_false hr0 (not_not_intro ?_)
  exact ⟨hacc, hlock, hfits₁.1, hfits₁.2, hfits₂.1, hfits₂.2.1, hfits₂.2.2⟩

section
variable {t : Nat} {th : Thread} {a : Arena} {rt : σ} {name : CStr}

/-- What the component of a thread needs is as it was before the thread was listed. -/
theorem founds_added (h : Inv s L) (hm : Moved s L [.addThread t th] s' L')
    (hb : Arena.Beside .thread a s'.shm.arena) :
    Founds R s'.shm s'.shm.arena rt name ↔ Founds R s.shm a rt name := by
  have hcomps : (view s'.shm L').comps = (view s.shm L).comps := by
    rw [hm.events]
    rfl
  have hfree : (∀ c, s'.shm.Listed .comp c → (s'.shm.comp c).name ≠ thread_comp_name name) ↔
      ∀ c, s.shm.Listed .comp c → (s.shm.comp c).name ≠ thread_comp_name name := by
    rw [← hm.inv.good.shape.comps_free, hcomps, h.good.shape.comps_free]
  constructor
  · intro he
    exact ⟨he.id, hfree.mp he.comp_free, fun hf => he.comp_room ((hb.full _).mpr hf)⟩
  · intro he
    exact ⟨he.id, hfree.mpr he.comp_free, fun hf => he.comp_room ((hb.full _).mp hf)⟩

theorem equips_added (h : Inv s L) (hm : Moved s L [.addThread t th] s' L')
    (hb : Arena.Beside .thread a s'.shm.arena) :
    Equips R s'.shm s'.shm.arena rt name ↔ Equips R s.shm a rt name := by
  have hparams : (view s'.shm L').params = (view s.shm L).params := by
    rw [hm.events]
    rfl
  have hpins : (view s'.shm L').pins = (view s.shm L).pins := by
    rw [hm.events]
    rfl
  have hb₁ := (hb.alloc (show Kind.comp ≠ .thread by decide)).2
  have hb₂ := (hb₁.alloc (show Kind.param ≠ .thread by decide)).2
  have hpf : s'.shm.ParamTaken (rt_snprintf (HAL_NAME_LEN + 1) (name ++ dotTmax)) ↔
      s.shm.ParamTaken (rt_snprintf (HAL_NAME_LEN + 1) (name ++ dotTmax)) := by
    rw [hm.inv.good.shape.param_taken, hparams, h.good.shape.param_taken]
  have hif : (∀ p, s'.shm.Listed .pin p → (s'.shm.pin p).name ≠ name ++ dotTime) ↔
      ∀ p, s.shm.Listed .pin p → (s.shm.pin p).name ≠ name ++ dotTime := by
    rw [← hm.inv.good.shape.pins_free, hpins, h.good.shape.pins_free]
  constructor
  · intro he
    exact ⟨(founds_added h hm hb).mp he.toFounds, hm.lock ▸ he.unlocked,
      fun ht => he.param_free (hpf.mpr ht), fun hf => he.param_room ((hb₁.full _).mpr hf),
      he.pin_short, hif.mp he.pin_free, fun hf => he.pin_room ((hb₂.full _).mpr hf)⟩
  · intro he
    exact ⟨(founds_added h hm hb).mpr he.toFounds, hm.lock.symm ▸ he.unlocked,
      fun ht => he.param_free (hpf.mp ht), fun hf => he.param_room ((hb₁.full _).mp hf),
      he.pin_short, hif.mpr he.pin_free, fun hf => he.pin_room ((hb₂.full _).mp hf)⟩

end

/-! ### The whole -/

section
variable (R : Rtapi σ) (s : State σ) (L : Lists) (name : CStr) (period_nsec : Nat)
  (uses_fp priority : Int)

/-- `hal_create_thread` passes its checks and gets a structure, and no thread has the name. -/
structure Makes : Prop where
  admits : Admits s name period_nsec
  free : s.shm.halpr_find_thread_by_name name = some 0
  room : ¬ s.shm.arena.Full .thread

/-- Whether the clock is fast enough, and RTAPI then; only the first thread asks. -/
def clocked : Bool × σ :=
  if (s.shm.arena.pool .thread).list_ptr = 0 then clock_fits R period_nsec s.rt else (true, s.rt)

/-- The task for the thread. -/
def tasked : Int × σ :=
  R.task_new (s.hal_shmem_base + (s.shm.arena.alloc .thread).1) priority s.lib_module_id
    HAL_STACKSIZE uses_fp (clocked R s period_nsec).2

/-- Its start. -/
def launched : Int × σ :=
  R.task_start (tasked R s period_nsec uses_fp priority).1 (toInt64 period_nsec)
    (tasked R s period_nsec uses_fp priority).2

/-- The thread gets a task. -/
def Engages : Prop :=
  (clocked R s period_nsec).1 = true ∧ ¬ (tasked R s period_nsec uses_fp priority).1 < 0

/-- The thread gets a task that runs. -/
def Employs : Prop :=
  Engages R s period_nsec uses_fp priority ∧ ¬ (launched R s period_nsec uses_fp priority).1 < 0

/-- RTAPI after the roll-back of a thread that got no running task. -/
def undone_rt : σ :=
  if (clocked R s period_nsec).1 then
    let task := tasked R s period_nsec uses_fp priority
    if task.1 < 0 then unmake R 0 task.2
    else unmake R task.1 (R.task_delete task.1 (launched R s period_nsec uses_fp priority).2).2
  else unmake R 0 (clocked R s period_nsec).2

/-- What `hal_create_thread` comes to. -/
inductive Creates (r : Int) (s' : State σ) : Prop
  | refused {L' : Lists} : ¬ Makes s name period_nsec → r < 0 → Moved s L [] s' L' →
      s'.rt = s.rt → Creates r s'
  | undone {L' : Lists} : Makes s name period_nsec → ¬ Employs R s period_nsec uses_fp priority →
      r < 0 → Moved s L [] s' L' → s'.rt = undone_rt R s period_nsec uses_fp priority →
      Creates r s'
  | done {L' : Lists} : Makes s name period_nsec → Employs R s period_nsec uses_fp priority →
      (r < 0 ↔ ¬ Equips R s.shm (s.shm.arena.alloc .thread).2
        (launched R s period_nsec uses_fp priority).2 name) →
      Inv s' L' → (L'.act .thread).length = (L.act .thread).length + 1 →
      (¬ Founds R s.shm (s.shm.arena.alloc .thread).2
          (launched R s period_nsec uses_fp priority).2 name →
        ∃ L' t th th', Moved s L [.addThread t th, .setThread t th'] s' L') → Creates r s'

variable {s L name period_nsec uses_fp priority}

theorem makes_of (h : Inv s L) (ha : Admits s name period_nsec)
    (hdup : ¬ ∃ t ∈ (view s.shm L).threads, t.thread.name = name)
    (hnew : (s.shm.arena.alloc .thread).1 ≠ 0) : Makes s name period_nsec where
  admits := ha
  free := by
    rcases find_thread_cases h.good.shape name with ⟨hf, -⟩ | ⟨x, hx, -, -, -, hname⟩
    · exact hf
    · exact absurd ⟨slot s.shm L x, List.mem_map_of_mem hx, hname⟩ hdup
  room := fun hf => hnew (by rw [Shape.alloc_full hf])

/-- The task of a thread `th` that has no task yet, when the clock is fast enough. -/
theorem make_task_cases {th : Thread} (hz : th.task_id = 0) (hp : th.priority = priority)
    (hu : th.uses_fp = uses_fp) (hn : th.period = toInt64 period_nsec)
    (hc : (clocked R s period_nsec).1 = true) {p : Making σ}
    (hmake : p = make_task R s.hal_shmem_base s.lib_module_id (s.shm.arena.alloc .thread).1 th
      (clocked R s period_nsec).2) :
    (¬ Employs R s period_nsec uses_fp priority ∧
      p.rt = undone_rt R s period_nsec uses_fp priority ∧ p.made = .error (-EINVAL)) ∨
    (Employs R s period_nsec uses_fp priority ∧
      p.rt = (launched R s period_nsec uses_fp priority).2 ∧
      p.made = .ok { th with task_id := (tasked R s period_nsec uses_fp priority).1 }) := by
  have hnew : R.task_new (s.hal_shmem_base + (s.shm.arena.alloc .thread).1) th.priority
      s.lib_module_id HAL_STACKSIZE th.uses_fp (clocked R s period_nsec).2 =
      tasked R s period_nsec uses_fp priority := by
    rw [hp, hu, tasked]
  have hstart : R.task_start (tasked R s period_nsec uses_fp priority).1 th.period
      (tasked R s period_nsec uses_fp priority).2 =
      launched R s period_nsec uses_fp priority := by
    rw [hn, launched]
  unfold make_task at hmake
  simp only [hnew, hstart, hz] at hmake
  unfold undone_rt
  rw [if_pos hc]
  by_cases ht : (tasked R s period_nsec uses_fp priority).1 < 0
  · rw [if_pos ht] at hmake
    exact .inl ⟨fun he => he.1.2 ht, by rw [hmake, if_pos ht], by rw [hmake]⟩
  rw [if_neg ht] at hmake
  by_cases hl : (launched R s period_nsec uses_fp priority).1 < 0
  · rw [if_pos hl] at hmake
    exact .inl ⟨fun he => he.2 hl, by rw [hmake, if_neg ht], by rw [hmake]⟩
  · rw [if_neg hl] at hmake
    exact .inr ⟨⟨⟨hc, ht⟩, hl⟩, by rw [hmake], by rw [hmake]⟩

variable (uses_fp priority) in
/-- The three ways the part under the mutex ends. -/
theorem making_cases (h : Inv s L) (ha : Admits s name period_nsec) :
    (¬ Makes s name period_nsec ∧ (making R s L name period_nsec uses_fp priority).rt = s.rt ∧
      ∃ e, e < 0 ∧ (making R s L name period_nsec uses_fp priority).made = .error e) ∨
    (Makes s name period_nsec ∧ ¬ Employs R s period_nsec uses_fp priority ∧
      (making R s L name period_nsec uses_fp priority).rt =
        undone_rt R s period_nsec uses_fp priority ∧
      ∃ e, e < 0 ∧ (making R s L name period_nsec uses_fp priority).made = .error e) ∨
    (Makes s name period_nsec ∧ Employs R s period_nsec uses_fp priority ∧
      (making R s L name period_nsec uses_fp priority).rt =
        (launched R s period_nsec uses_fp priority).2 ∧
      ∃ th, th.name = name ∧ th.task_id = (tasked R s period_nsec uses_fp priority).1 ∧
        (making R s L name period_nsec uses_fp priority).made = .ok th) := by
  have hE : -EINVAL < 0 := by decide
  have hM : -ENOMEM < 0 := by decide
  unfold making make_thread
  by_cases hdup : ∃ t ∈ (view s.shm L).threads, t.thread.name = name
  · rw [if_pos hdup]
    refine .inl ⟨fun hm => ?_, rfl, _, hE, rfl⟩
    obtain ⟨t, ht, hname⟩ := hdup
    rcases find_thread_cases h.good.shape name with ⟨-, hv⟩ | ⟨x, -, hx0, hf, -, -⟩
    · exact absurd hname (by simpa using List.find?_eq_none.mp hv t ht)
    · exact hx0 (Option.some.inj (hf.symm.trans hm.free))
  rw [if_neg hdup]
  by_cases hnew : (s.shm.arena.alloc .thread).1 = 0
  · rw [if_pos hnew]
    refine .inl ⟨fun hm => ?_, rfl, _, hM, rfl⟩
    exact (h.good.shape.alloc_thread hm.room).1 hnew
  rw [if_neg hnew]
  have hmakes := makes_of h ha hdup hnew
  have hfit : rt_snprintf (HAL_NAME_LEN + 1) name = name := rt_snprintf_short ha.2.1
  -- what the clock comes to
  have hlist := threads_nil_iff h.good.shape (L := L)
  set th : Thread := { s.shm.thread (s.shm.arena.alloc .thread).1 with
    uses_fp := uses_fp, period := toInt64 period_nsec, priority := priority, task_id := 0
    name := rt_snprintf (HAL_NAME_LEN + 1) name } with hth
  generalize hp : (if (view s.shm L).threads = [] then
      if (clock_fits R period_nsec s.rt).1 then make_task R s.hal_shmem_base s.lib_module_id
        (s.shm.arena.alloc .thread).1 th (clock_fits R period_nsec s.rt).2
      else ⟨.error (-EINVAL), unmake R 0 (clock_fits R period_nsec s.rt).2, [0, 0]⟩
    else make_task R s.hal_shmem_base s.lib_module_id (s.shm.arena.alloc .thread).1 th s.rt :
      Making σ) = p
  simp only [hlist] at hp
  by_cases hc : (clocked R s period_nsec).1 = true
  · have hmake : p = make_task R s.hal_shmem_base s.lib_module_id (s.shm.arena.alloc .thread).1 th
        (clocked R s period_nsec).2 := by
      unfold clocked at hc ⊢
      by_cases hz : (s.shm.arena.pool .thread).list_ptr = 0
      · rw [if_pos hz] at hp hc ⊢
        rw [if_pos hc] at hp
        exact hp.symm
      · rw [if_neg hz] at hp ⊢
        exact hp.symm
    rcases make_task_cases R (by rw [hth]) (by rw [hth]) (by rw [hth]) (by rw [hth]) hc hmake with
      ⟨he, hrt, hm⟩ | ⟨he, hrt, hm⟩
    · exact .inr (.inl ⟨hmakes, he, hrt, _, hE, hm⟩)
    · exact .inr (.inr ⟨hmakes, he, hrt, _, hfit, rfl, hm⟩)
  · have hz : (s.shm.arena.pool .thread).list_ptr = 0 := Decidable.by_contra fun hz => hc (by
      unfold clocked
      rw [if_neg hz])
    have hfits : ¬ (clock_fits R period_nsec s.rt).1 = true := by
      unfold clocked at hc
      rwa [if_pos hz] at hc
    rw [if_pos hz, if_neg hfits] at hp
    refine .inr (.inl ⟨hmakes, fun he => hc he.1.1, ?_, _, hE, by rw [← hp]⟩)
    unfold undone_rt
    rw [if_neg hc, ← hp]
    unfold clocked
    rw [if_pos hz]

/-- **`hal_create_thread`, from the state before it.** -/
theorem hal_create_thread_creates (h : Inv s L) :
    Returns (hal_create_thread R name period_nsec uses_fp priority) s
      (Creates R s L name period_nsec uses_fp priority) := by
  have hE : -EINVAL < 0 := by decide
  have hP : -EPERM < 0 := by decide
  have refused : ∀ e : Int, e < 0 → ¬ Makes s name period_nsec →
      Creates R s L name period_nsec uses_fp priority e s :=
    fun e he hno => .refused hno he (.refl h) rfl
  unfold hal_create_thread
  simp only [returns_bind, returns_get]
  refine .ite (fun h₀ => absurd h₀ h.attached) fun _ => ?_
  refine .ite (fun hp => refused _ hE fun hm => hm.admits.1 hp) fun hp => ?_
  refine .ite (fun hn => refused _ hE fun hm => hm.admits.2.1 hn) fun hn => ?_
  refine .ite (fun hl => refused _ hP fun hm => hm.admits.2.2 hl) fun hl => ?_
  rw [returns_bind]
  refine (create_thread_task_spec R h hn period_nsec uses_fp priority rfl).with_eq.mono
    fun made s₁ hpost => ?_
  obtain ⟨hrun, hmade, ⟨L₁, hm⟩, ht⟩ := hpost
  have hroom := (create_thread_task_room R h name period_nsec uses_fp priority).of_ok hrun
  change made = ((making R s L name period_nsec uses_fp priority).made.map fun _ => _) at hmade
  change Moved s L ((making R s L name period_nsec uses_fp priority).events _) s₁ L₁ at hm
  have hrt : s₁.rt = (making R s L name period_nsec uses_fp priority).rt := ht.rt
  rcases making_cases R uses_fp priority h ⟨hp, hn, hl⟩ with
    ⟨hno, hsame, e, he, hmk⟩ | ⟨hmakes, hno, hundone, e, he, hmk⟩ |
    ⟨hmakes, hemp, hrun, th, hth, -, hmk⟩
  · rw [Making.events, hmk] at hm
    rw [hmade, hmk]
    exact .refused hno he hm (hrt.trans hsame)
  · rw [Making.events, hmk] at hm
    rw [hmade, hmk]
    exact .undone hmakes hno he hm (hrt.trans hundone)
  · rw [Making.events, hmk] at hm
    rw [hmk] at hmade
    rw [hmade]
    obtain ⟨hu, hrec⟩ := Moved.added hm
    have hb := hroom _ hmade
    -- the rest of the call, from the listed thread on
    have hname : (s₁.shm.thread (s.shm.arena.alloc .thread).1).name = name := by rw [hrec, hth]
    refine ((create_thread_comp_found (R := R) hm.inv hu hname).with_eq).mono fun r s' hpost => ?_
    obtain ⟨hcomp, hr, hunfounded⟩ := hpost
    obtain ⟨L', ho⟩ := (create_thread_comp_spec R hm.inv hu rfl).of_ok hcomp
    obtain ⟨evs, hmoved⟩ := ho.moved
    rw [equips_added h hm hb, hrt.trans hrun] at hr
    rw [founds_added h hm hb, hrt.trans hrun] at hunfounded
    refine .done hmakes hemp hr hmoved.inv ?_ fun hno => ?_
    swap
    · obtain ⟨L'', th', hset⟩ := hunfounded hno
      exact ⟨L'', _, _, th', hm.trans hset⟩
    have h₁ : (L₁.act .thread).length = (L.act .thread).length + 1 := by
      have := congrArg (fun g => g.threads.length) hm.events
      simpa [view, Registry.apply] using this
    have h₂ : (L'.act .thread).length = (L₁.act .thread).length := by
      have := congrArg List.length ho.threads
      simpa [view, Registry.apply] using this
    exact h₂.trans h₁

end

end RTS.Hal

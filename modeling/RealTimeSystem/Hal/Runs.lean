import RealTimeSystem.Hal.Removal

/-!
# HAL — runs

HAL comes up, by `hal_app_main` or inside the first `hal_init`, on a segment that is zero-filled;
then the operations follow one another in any order, with cycles of the threads between them.
`Reachable R s₀ s` says that this leads from `s₀` to `s`.  In every such state `Inv` holds, and from
it every operation returns, except on the inputs that `Op.Blocked` names.
-/

namespace RTS.Hal

open RTS.Support

variable {σ : Type} (R : Rtapi σ)

/-! ### HAL comes up -/

/-- No structure anywhere. -/
def Lists.empty : Lists := ⟨fun _ => [], fun _ => [], fun _ => [], fun _ => []⟩

theorem Lists.mem_roots_empty {r : Nat} : r ∈ Lists.empty.roots ↔ r = FUNCT_ENTRY_FREE := by
  simp [Lists.roots, Lists.empty]

/-- The arena that `init_hal_data` leaves: no list, one ring, and all memory free. -/
theorem Shape.empty {a : Arena} (hbrk : a.brk.Span) (hlist : ∀ k, (a.pool k).list_ptr = 0)
    (hfree : ∀ k, (a.pool k).free_ptr = 0) (hcarved : ∀ k, a.carved k = []) :
    Shape (a.list_init_entry FUNCT_ENTRY_FREE) .empty where
  mem :=
    { span := hbrk
      nodup := fun k => by rw [show (a.list_init_entry _).carved k = [] from hcarved k]; exact .nil
      inside := fun k x hx => by simp [Arena.list_init_entry, hcarved] at hx
      apart := fun k k' x x' hx => by simp [Arena.list_init_entry, hcarved] at hx }
  rep k := ⟨hlist k, hfree k, .nil⟩
  whole k hk := by
    rw [show (a.list_init_entry _).carved k = [] from hcarved k]
    exact .nil
  rings :=
    { closed := fun r hr => by
        obtain rfl := Lists.mem_roots_empty.mp hr
        exact Ring.init a.links _
      nodup := fun r _ => List.nodup_singleton r
      apart := fun r hr r' hr' hne =>
        absurd ((Lists.mem_roots_empty.mp hr).trans (Lists.mem_roots_empty.mp hr').symm) hne
      spare := fun _ _ => List.disjoint_nil_right _
      loose_nodup := .nil }
  wheel e := by simp [Arena.list_init_entry, hcarved, Lists.empty]

theorem Registry.Sound.empty (m : Segment) : (view m .empty).Sound := by
  constructor <;> simp [view, Lists.empty, tab, Registry.entries]

/-- `init_hal_data` on a zero-filled segment. -/
theorem init_hal_data_spec {s : State σ} (ha : s.shm.arena = {}) (hmx : s.shm.mutex = false)
    (hp : Plain s.shm) :
    Wp (init_hal_data R) s (fun r s' => r = 0 ∧ s.hal_data ≠ 0 ∧
        ∃ m, s' = closed { s with rt := (R.getpid s.rt).2 } m ∧ Good m .empty ∧ m.state = .active ∧
          m.lock = HAL_LOCK_NONE ∧ m.threads_running = 0)
      fun _ _ => s.hal_data = 0 := by
  by_cases h₀ : s.hal_data = 0
  · unfold init_hal_data rtapi_mutex_get
    simp only [wp_bind, wp_get]
    exact .ite (fun _ => h₀) fun h => absurd h₀ h
  unfold init_hal_data
  rw [wp_bind, wp_open h₀ hmx, wp_bind, wp_change_opened, wp_bind, wp_call_opened, wp_bind,
    wp_change_opened, wp_bind]
  refine (wp_close ?_).mpr ⟨rfl, h₀, _, rfl, ⟨?_, ?_, hp⟩, rfl, rfl, rfl⟩
  · rfl
  · have hpool : s.shm.arena.pool = fun _ => Pool.nil := by rw [ha]
    refine Shape.empty (a := { s.shm.arena with pool := _, brk := s.shm.arena.brk.init })
      (Brk.init_span _) (fun k => ?_) (fun k => ?_) fun k => by rw [ha]
    · rw [hpool]; cases k <;> rfl
    · rw [hpool]; cases k <;> rfl
  · exact .empty _

/-- The process that RTAPI took in under `name` and attached to the segment, from `rt` on. -/
def attach (s : State σ) (name : CStr) (rt : σ) : State σ :=
  let i := R.init name rt
  let n := R.shmem_new HAL_KEY i.1 HAL_SIZE i.2
  let p := R.shmem_getptr n.1 n.2
  { s with
    lib_module_id := i.1, lib_mem_id := n.1, hal_shmem_base := p.1.2, hal_data := p.1.2
    rt := (R.getpid p.2).2 }

/-- HAL is up: the process is attached, and the segment holds an empty registry. -/
structure Up (s₀ : State σ) (name : CStr) (rt : σ) (s : State σ) : Prop where
  eq : ∃ m, s = closed (attach R s₀ name rt) m
  module : 0 ≤ s.lib_module_id
  good : Good s.shm .empty
  attached : s.hal_data ≠ 0
  state : s.shm.state = .active
  lock : s.shm.lock = HAL_LOCK_NONE
  running : s.shm.threads_running = 0

/-- The end of both ways to bring HAL up. -/
theorem init_hal_data_up (s₀ : State σ) (name : CStr) (rt : σ) (m : Segment) {s₁ : State σ}
    {rt' : σ} (hs₁ : s₁ = { attach R s₀ name rt with shm := m, rt := rt' })
    (hrt : (R.getpid rt').2 = (attach R s₀ name rt).rt)
    (hid : ¬ (R.init name rt).1 < 0)
    (ha : m.arena = {}) (hmx : m.mutex = false) (hp : Plain m) {E : Stop → State σ → Prop}
    (hE : ∀ e s, E e s) :
    Wp (init_hal_data R) s₁ (fun r s => r = 0 ∧ Up R s₀ name rt s) E := by
  subst hs₁
  refine (init_hal_data_spec R ha hmx hp).mono
    (fun r s ⟨hr, h₀, m', hs, hg, hst, hl, hrun⟩ => ⟨hr, ?_⟩) fun e s _ => hE e s
  subst hs
  refine ⟨⟨m', ?_⟩, Int.not_lt.mp hid, ⟨hg.shape, hg.sound, hg.plain⟩, h₀, hst, hl, hrun⟩
  simp only [closed, hrt]

/-- The name `hal_app_main` gives to RTAPI. -/
def lib_name : CStr := lit ['H', 'A', 'L', '_', 'L', 'I', 'B']

theorem hal_app_main_spec {s₀ : State σ} (h : s₀.shm = {}) :
    Wp (hal_app_main R) s₀ (fun r s => r = 0 → Up R s₀ lib_name s₀.rt s) fun _ _ => True := by
  have hneg : -EINVAL ≠ 0 := by decide
  unfold hal_app_main
  simp only [wp_bind, wp_call, wp_modify]
  refine .ite (fun _ e => absurd e hneg) fun hid => ?_
  refine .ite (fun _ e => absurd e hneg) fun _ => ?_
  refine .ite (fun _ e => absurd e hneg) fun _ => ?_
  rw [wp_bind, wp_modify, wp_bind, wp_change, wp_bind]
  refine (init_hal_data_up R s₀ lib_name s₀.rt
    { s₀.shm with state := .initializing, error_code := 0 } rfl rfl hid (by rw [h]) (by rw [h])
    (by rw [h]; exact fun _ => ⟨rfl, rfl⟩) fun _ _ => trivial).mono
    (fun r s hpost => ?_) fun _ _ => id
  obtain ⟨hr, hup⟩ := hpost
  subst hr
  exact fun _ => hup

/-- The name `hal_init` gives to RTAPI when it brings HAL up. -/
def lib_pid_name (pid : Int) : CStr :=
  rt_snprintf RTAPI_NAME_LEN (lit ['H', 'A', 'L', '_', 'L', 'I', 'B', '_'] ++
    lit (toString pid).toList)

theorem hal_init_lib_spec {s₀ : State σ} (h : s₀.shm = {}) :
    Wp (hal_init_lib R) s₀
      (fun r s => r = 0 → Up R s₀ (lib_pid_name (R.getpid s₀.rt).1) (R.getpid s₀.rt).2 s)
      fun _ _ => True := by
  have hneg : -EINVAL ≠ 0 := by decide
  unfold hal_init_lib
  simp only [wp_bind, wp_get]
  refine .ite (fun _ e => absurd e hneg) fun _ => ?_
  refine .ite (fun _ e => absurd e hneg) fun hid => ?_
  refine .ite (fun _ e => absurd e hneg) fun _ => ?_
  refine .ite (fun _ e => absurd e hneg) fun _ => ?_
  rw [wp_bind, wp_modify, wp_bind]
  refine (init_hal_data_up R s₀ (lib_pid_name (R.getpid s₀.rt).1) (R.getpid s₀.rt).2 s₀.shm rfl rfl
    hid (by rw [h]) (by rw [h]) (by rw [h]; exact fun _ => ⟨rfl, rfl⟩) fun _ _ => trivial).mono
    (fun r s hpost => ?_) fun _ _ => id
  obtain ⟨hr, hup⟩ := hpost
  subst hr
  exact fun _ => hup

variable {R}

theorem Up.inv {s₀ s : State σ} {name : CStr} {rt : σ} (h : Up R s₀ name rt s)
    (hid : s.lib_mem_id ≠ 0) (hl : s₀.locks = []) : Inv s .empty where
  good := h.good
  idle _ := rfl
  unlocked := by
    obtain ⟨m, rfl⟩ := h.eq
    rfl
  attached := h.attached
  mem_id := hid
  orderly := by
    obtain ⟨m, rfl⟩ := h.eq
    show Orderly (.give true :: .get false :: s₀.locks)
    rw [hl]
    simp [Orderly]

variable (R)

/-! ### The operations -/

/-- The operations of `hal.h`, but for the two that start and end HAL; `teardown` is the part of
`hal_app_exit` that deletes the threads.  `Invocation` has `hal_app_main` besides them. -/
inductive Op where
  | hal_init (name : Option CStr)
  | hal_exit (comp_id : Int)
  | hal_malloc (size : Int)
  | hal_set_constructor (comp_id : Int) (make : Addr)
  | hal_ready (comp_id : Int)
  | hal_unready (comp_id : Int)
  | hal_set_unready (comp_id : Int)
  | hal_comp_name (comp_id : Int)
  | hal_export_funct (name : CStr) (funct arg : Addr) (uses_fp reentrant comp_id : Int)
  | hal_create_thread (name : CStr) (period_nsec : Nat) (uses_fp priority : Int)
  | hal_thread_delete (name : CStr)
  | hal_add_funct_to_thread (funct_name thread_name : Option CStr) (position : Int)
  | hal_del_funct_from_thread (funct_name thread_name : Option CStr)
  | hal_param_new (name : CStr) (type : HalType) (dir : ParamDir) (data_addr : Addr)
      (comp_id : Int)
  | hal_pin_new (name : CStr) (type : HalType) (data_ptr_addr : Addr) (comp_id : Int)
  | hal_get_stats (stats : Bool)
  | hal_set_lock (lock_type : UInt8)
  | hal_get_lock
  | hal_start_threads
  | hal_stop_threads
  | hal_get_state
  | teardown

namespace Op

/-- The operation, its result ignored. -/
def run : Op → Prog σ Unit
  | hal_init name => do let _ ← Hal.hal_init R name
  | hal_exit comp_id => do let _ ← Hal.hal_exit R comp_id
  | hal_malloc size => do let _ ← Hal.hal_malloc size
  | hal_set_constructor comp_id make => do let _ ← Hal.hal_set_constructor comp_id make
  | hal_ready comp_id => do let _ ← Hal.hal_ready comp_id
  | hal_unready comp_id => do let _ ← Hal.hal_unready comp_id
  | hal_set_unready comp_id => do let _ ← Hal.hal_set_unready comp_id
  | hal_comp_name comp_id => do let _ ← Hal.hal_comp_name comp_id
  | hal_export_funct name funct arg uses_fp reentrant comp_id => do
      let _ ← Hal.hal_export_funct name funct arg uses_fp reentrant comp_id
  | hal_create_thread name period_nsec uses_fp priority => do
      let _ ← Hal.hal_create_thread R name period_nsec uses_fp priority
  | hal_thread_delete name => do let _ ← Hal.hal_thread_delete R name
  | hal_add_funct_to_thread funct_name thread_name position => do
      let _ ← Hal.hal_add_funct_to_thread funct_name thread_name position
  | hal_del_funct_from_thread funct_name thread_name => do
      let _ ← Hal.hal_del_funct_from_thread funct_name thread_name
  | hal_param_new name type dir data_addr comp_id => do
      let _ ← Hal.hal_param_new name type dir data_addr comp_id
  | hal_pin_new name type data_ptr_addr comp_id => do
      let _ ← Hal.hal_pin_new name type data_ptr_addr comp_id
  | hal_get_stats stats => do let _ ← Hal.hal_get_stats stats
  | hal_set_lock lock_type => do let _ ← Hal.hal_set_lock lock_type
  | hal_get_lock => do let _ ← Hal.hal_get_lock
  | hal_start_threads => do let _ ← Hal.hal_start_threads
  | hal_stop_threads => do let _ ← Hal.hal_stop_threads
  | hal_get_state => do let _ ← Hal.hal_get_state
  | teardown => hal_app_teardown R

/-- What the callers of `hal_malloc` keep to: a size is not negative.  With a negative one the bounds
cross, and the next structure may lie in the header. -/
def Sane : Op → Prop
  | hal_malloc size => 0 ≤ size
  | _ => True

/-- The inputs on which an operation does not return: the deletion of a thread that has a component,
the addition of a function for which there is no function entry left, and a pin whose cell cannot be
read. -/
def Blocked (s : State σ) : Op → Prop
  | hal_thread_delete name =>
      s.shm.lock &&& HAL_LOCK_CONFIG = 0 ∧ (s.shm.state = .active ∨ s.shm.state = .running) ∧
        ∃ t, t ≠ 0 ∧ s.shm.halpr_find_thread_by_name name = some t ∧ (s.shm.thread t).comp_id ≠ 0
  | hal_add_funct_to_thread (some funct_name) (some thread_name) position =>
      s.shm.lock &&& HAL_LOCK_CONFIG = 0 ∧
        ∃ f t es, f ≠ 0 ∧ t ≠ 0 ∧ s.shm.halpr_find_funct_by_name funct_name = some f ∧
          s.shm.halpr_find_thread_by_name thread_name = some t ∧
          ¬ ((s.shm.funct f).users > 0 ∧ (s.shm.funct f).reentrant = 0) ∧
          ¬ ((s.shm.funct f).uses_fp ≠ 0 ∧ (s.shm.thread t).uses_fp = 0) ∧
          Ring s.shm.arena.links (t + THREAD_FUNCT_LIST) es ∧ t + THREAD_FUNCT_LIST ∉ es ∧
          position ≠ 0 ∧ position.natAbs ≤ es.length + 1 ∧
          s.shm.arena.links.next FUNCT_ENTRY_FREE = FUNCT_ENTRY_FREE ∧
          (shmalloc_dn s.shm.arena.brk Kind.entry.size).1 = none
  | hal_pin_new _ _ data_ptr_addr _ => ¬ s.Reads data_ptr_addr
  | _ => False

end Op

/-! ### Which inputs block -/

section
variable {s : State σ} {L : Lists}

theorem delete_eq_none (h : Inv s L) (name : CStr) :
    (view s.shm L).delete s.shm.lock s.shm.state name = none ↔
      Op.Blocked s (.hal_thread_delete name) := by
  unfold Registry.delete Op.Blocked
  by_cases hl : s.shm.lock &&& HAL_LOCK_CONFIG = 0
  swap
  · rw [if_pos hl]
    exact ⟨(fun e => nomatch e), fun e => absurd e.1 hl⟩
  rw [if_neg (not_not_intro hl)]
  by_cases hst : s.shm.state = .active ∨ s.shm.state = .running
  swap
  · rw [if_pos (not_or.mp hst)]
    exact ⟨(fun e => nomatch e), fun e => absurd e.2.1 hst⟩
  rw [if_neg fun e => hst.elim e.1 e.2]
  rcases find_thread_cases h.good.shape name with ⟨hf, hv⟩ | ⟨t, -, ht0, hf, hv, -⟩
  · rw [hv]
    refine ⟨(fun e => nomatch e), fun ⟨_, _, t, ht0, hf', _⟩ => ?_⟩
    exact absurd (Option.some.inj (hf.symm.trans hf')) ht0.symm
  · rw [hv]
    by_cases hc : (s.shm.thread t).comp_id = 0
    · simp only [slot_thread, hc, ne_eq, not_true_eq_false, if_false]
      refine ⟨(fun e => nomatch e), fun ⟨_, _, t', _, hf', hc'⟩ => ?_⟩
      obtain rfl : t = t' := Option.some.inj (hf.symm.trans hf')
      exact absurd hc hc'
    · simp only [slot_thread, ne_eq, hc, not_false_eq_true, if_true]
      exact ⟨fun _ => ⟨hl, hst, t, ht0, hf, hc⟩, fun _ => trivial⟩

theorem position_isSome {m : Nat} {p : Int} :
    (Registry.position m p).isSome ↔ p ≠ 0 ∧ p.natAbs ≤ m + 1 := by
  unfold Registry.position
  split_ifs <;> simp <;> omega

theorem add_funct_blocked (h : Inv s L) (funct_name thread_name : Option CStr) (p : Int) :
    (((view s.shm L).add_funct s.shm.lock ((s.shm.arena.alloc_entry.map Prod.fst).getD 0)
        funct_name thread_name p).1 = 0 ∧ s.shm.arena.alloc_entry = none) ↔
      Op.Blocked s (.hal_add_funct_to_thread funct_name thread_name p) := by
  have hE : -EINVAL ≠ 0 := by decide
  have hP : -EPERM ≠ 0 := by decide
  unfold Registry.add_funct
  by_cases hl : s.shm.lock &&& HAL_LOCK_CONFIG = 0
  swap
  · rw [if_pos hl]
    refine ⟨fun e => absurd e.1 hP, fun e => ?_⟩
    unfold Op.Blocked at e
    split at e
    · rename_i he; cases he
    · exact absurd e.1 hl
    · rename_i he; cases he
    · exact e.elim
  rw [if_neg (not_not_intro hl)]
  rcases funct_name with _ | fname
  · exact ⟨fun e => absurd e.1 hE, fun e => e.elim⟩
  rcases thread_name with _ | tname
  · simp only [Option.bind_some, Option.bind_none]
    refine ⟨fun e => absurd e.1 ?_, fun e => e.elim⟩
    rcases (view s.shm L).findFunct fname with _ | _ <;> exact hE
  simp only [Option.bind_some, Op.Blocked]
  rcases find_funct_cases h.good.shape fname with ⟨hf, hfv⟩ | ⟨f, -, hf0, hf, hfv, -⟩
  · rw [hfv]
    refine ⟨fun e => absurd e.1 hE, fun ⟨_, f, _, _, hf0, _, hf', _⟩ => ?_⟩
    exact absurd (Option.some.inj (hf.symm.trans hf')) hf0.symm
  rcases find_thread_cases h.good.shape tname with ⟨ht, htv⟩ | ⟨t, htm, ht0, ht, htv, -⟩
  · rw [hfv, htv]
    refine ⟨fun e => absurd e.1 hE, fun ⟨_, _, t, _, _, ht0, _, ht', _⟩ => ?_⟩
    exact absurd (Option.some.inj (ht.symm.trans ht')) ht0.symm
  have hroot : t + THREAD_FUNCT_LIST ∈ L.roots := Shape.thread_root (.inl htm)
  have hring := h.good.shape.rings.closed _ hroot
  have hnot := (List.nodup_cons.mp (h.good.shape.rings.nodup _ hroot)).1
  rw [hfv, htv, Shape.alloc_entry_none h.good.shape]
  simp only [slot_thread, slot_entries, tab, List.length_map]
  constructor
  · rintro ⟨e, hidle, hmem⟩
    split_ifs at e with h₁ h₂
    · exact absurd e hE
    · exact absurd e hE
    rcases hp : Registry.position (L.ring (t + THREAD_FUNCT_LIST)).length p with _ | i
    · rw [hp] at e
      exact absurd e hE
    obtain ⟨hp0, hpm⟩ := position_isSome.mp (by rw [hp]; rfl)
    have hnext := h.good.shape.next_root Shape.free_root
    rw [hidle] at hnext
    exact ⟨hl, f, t, _, hf0, ht0, hf, ht, h₁, h₂, hring, hnot, hp0, hpm, hnext, hmem⟩
  · rintro ⟨-, f', t', es, -, -, hf', ht', h₁, h₂, hes, hes', hp0, hpm, hnext, hmem⟩
    obtain rfl : f = f' := Option.some.inj (hf.symm.trans hf')
    obtain rfl : t = t' := Option.some.inj (ht.symm.trans ht')
    obtain rfl := Arc.unique hring hes hnot hes'
    rw [if_neg h₁, if_neg h₂]
    obtain ⟨i, hi⟩ := Option.isSome_iff_exists.mp (position_isSome.mpr ⟨hp0, hpm⟩)
    rw [hi]
    refine ⟨rfl, ?_, hmem⟩
    have hfree := h.good.shape.next_root Shape.free_root
    rw [hnext] at hfree
    rcases hr : L.ring FUNCT_ENTRY_FREE with _ | ⟨e, es⟩
    · rfl
    · rw [hr] at hfree
      exact absurd hfree.symm
        (h.good.shape.mem.free_ne_entry (h.good.shape.ring_carved Shape.free_root (by simp [hr])))

/-! ### One operation -/

variable {op : Op}

/-- What an operation leaves that does not block. -/
structure Op.After (op : Op) (s s' : State σ) : Prop where
  free : ¬ op.Blocked s
  unlocked : s'.shm.mutex = false
  orderly : Orderly s'.locks
  inv : op.Sane → ∃ L', Inv s' L'

theorem Op.After.of_inv {s' : State σ} (hb : ¬ op.Blocked s) (h : ∃ L', Inv s' L') :
    op.After s s' :=
  ⟨hb, h.choose_spec.unlocked, h.choose_spec.orderly, fun _ => h⟩

/-- An operation that always returns. -/
theorem Op.returns {α : Type} {x : Prog σ α} (hb : ¬ op.Blocked s)
    (h : Returns x s fun _ s' => ∃ L', Inv s' L') {E : Stop → State σ → Prop} :
    Wp (do let _ ← x) s (fun _ s' => op.After s s') E :=
  wp_bind.mpr (h.to_wp.mono (fun _ _ hinv => .of_inv hb hinv) fun _ _ => id)

/-- The same, for one that refines an abstract operation. -/
theorem Op.refines {x : Prog σ Int} {spec : Int × List Event} (hb : ¬ op.Blocked s)
    (h : Returns x s (Refines s L spec)) {E : Stop → State σ → Prop} :
    Wp (do let _ ← x) s (fun _ s' => op.After s s') E :=
  Op.returns hb (h.mono fun _ _ ⟨_, L', hm, _⟩ => ⟨L', hm.inv⟩)

/-- The lock, the state and the flag of the threads are outside `Inv`. -/
theorem Inv.flags (h : Inv s L) (lock : UInt8) (state : HalState) (running : Int) :
    Inv { s with shm := { s.shm with lock := lock, state := state, threads_running := running } }
      L :=
  { h with good := ⟨h.good.shape, h.good.sound, h.good.plain⟩ }

theorem hal_set_lock_inv (h : Inv s L) (lock_type : UInt8) :
    Returns (hal_set_lock lock_type) s fun _ s' => ∃ L', Inv s' L' := by
  unfold hal_set_lock
  simp only [returns_bind, returns_get]
  exact .ite (fun _ => ⟨L, h⟩) fun _ => ⟨L, h.flags lock_type s.shm.state s.shm.threads_running⟩

theorem hal_start_threads_inv (h : Inv s L) :
    Returns hal_start_threads s fun _ s' => ∃ L', Inv s' L' := by
  unfold hal_start_threads
  simp only [returns_bind, returns_get]
  refine .ite (fun _ => ⟨L, h⟩) fun _ => .ite (fun _ => ⟨L, h⟩) fun _ => .ite (fun _ => ⟨L, h⟩)
    fun _ => .ite (fun _ => ⟨L, h⟩) fun _ => ?_
  exact ⟨L, h.flags s.shm.lock .running 1⟩

theorem hal_stop_threads_inv (h : Inv s L) :
    Returns hal_stop_threads s fun _ s' => ∃ L', Inv s' L' := by
  unfold hal_stop_threads
  simp only [returns_bind, returns_get]
  refine .ite (fun _ => ⟨L, h⟩) fun _ => .ite (fun _ => ⟨L, h⟩) fun _ => .ite (fun _ => ⟨L, h⟩)
    fun _ => .ite (fun _ => ⟨L, h⟩) fun _ => ?_
  exact ⟨L, h.flags s.shm.lock .active 0⟩

/-- An operation that only took the mutex and gave it. -/
theorem Inv.looked (h : Inv s L) : Inv (closed s { s.shm with mutex := true }) L :=
  have hm : Moved s L [] (closed s { s.shm with mutex := true }) L :=
    .closed h h.locked h.idle rfl rfl rfl
  hm.inv

theorem hal_malloc_after (h : Inv s L) (size : Int) :
    (Op.hal_malloc size).After s (closed s (({ s.shm with mutex := true } : Segment).grow size)) where
  free := id
  unlocked := rfl
  orderly := (h.orderly.cons (.inl rfl)).cons (.inr rfl)
  inv h₀ := ⟨L, (Moved.grow h (serve_span (r := .up size) h.good.shape.mem.span h₀)).inv⟩

theorem hal_get_lock_inv (h : Inv s L) :
    Returns (hal_get_lock) s fun _ s' => ∃ L', Inv s' L' := by
  unfold hal_get_lock
  simp only [returns_bind, returns_get]
  exact .ite (fun _ => ⟨L, h⟩) fun _ => ⟨L, h⟩

theorem hal_get_state_inv (h : Inv s L) :
    Returns (hal_get_state) s fun _ s' => ∃ L', Inv s' L' := by
  unfold hal_get_state
  simp only [returns_bind, returns_get]
  exact .ite (fun _ => ⟨L, h⟩) fun _ => ⟨L, h⟩

/-- **One operation.**  From a state with `Inv` it returns and keeps the mutex in order, and blocks
on the inputs of `Op.Blocked` only. -/
theorem Op.spec (h : Inv s L) (op : Op) :
    Wp (op.run R) s (fun _ s' => op.After s s') fun e _ => op.Blocked s ∧ e ≠ .endless := by
  cases op with
  | hal_init name =>
      rcases name with _ | name
      · exact Op.returns id ((hal_init_none R s).mpr ⟨L, h⟩)
      · exact Op.returns id ((hal_init_spec R h name).mono fun _ _ ⟨_, ⟨L', hm⟩, _⟩ => ⟨L', hm.inv⟩)
  | hal_exit comp_id =>
      exact Op.returns id
        ((hal_exit_spec R h comp_id).mono fun _ _ ⟨_, ⟨L', hm⟩, _⟩ => ⟨L', hm.inv⟩)
  | hal_malloc size =>
      refine wp_bind.mpr ((hal_malloc_spec h size).to_wp.mono (fun _ s' hs => ?_) fun _ _ => id)
      exact hs.2 ▸ hal_malloc_after h size
  | hal_set_constructor comp_id make =>
      exact Op.refines id (hal_set_constructor_refines h comp_id make)
  | hal_ready comp_id => exact Op.refines id (hal_ready_refines h comp_id)
  | hal_unready comp_id => exact Op.refines id (hal_unready_refines h comp_id)
  | hal_set_unready comp_id => exact Op.refines id (hal_set_unready_refines h comp_id)
  | hal_comp_name comp_id =>
      exact Op.returns id ((hal_comp_name_spec h comp_id).mono fun _ _ ⟨_, hs⟩ =>
        ⟨L, hs ▸ h.looked⟩)
  | hal_export_funct name funct arg uses_fp reentrant comp_id =>
      exact Op.returns id ((hal_export_funct_enrolled h name funct arg uses_fp reentrant
        comp_id).mono fun _ _ ⟨_, L', he⟩ => ⟨L', he.moved.inv⟩)
  | hal_create_thread name period_nsec uses_fp priority =>
      exact Op.returns id ((hal_create_thread_spec R name period_nsec uses_fp priority h).mono
        fun _ _ ⟨L', hc⟩ => ⟨L', Created.inv R hc h⟩)
  | hal_thread_delete name =>
      refine wp_bind.mpr ((hal_thread_delete_spec R h name).mono (fun _ s' hs => ?_) fun e s' hs => ?_)
      · obtain ⟨spec, hspec, -, L', hm⟩ := hs
        refine .of_inv (fun hb => ?_) ⟨L', hm.inv⟩
        rw [(delete_eq_none h name).mpr hb] at hspec
        cases hspec
      · exact ⟨(delete_eq_none h name).mp hs.2, by rw [hs.1]; decide⟩
  | hal_add_funct_to_thread funct_name thread_name position =>
      refine wp_bind.mpr ((hal_add_funct_spec h funct_name thread_name position rfl).mono
        (fun _ s' hs => ?_) fun e s' hs => ?_)
      · obtain ⟨hfree, -, L', hm, -⟩ := hs
        refine .of_inv (fun hb => ?_) ⟨L', hm.inv⟩
        obtain ⟨h₁, h₂⟩ := (add_funct_blocked h funct_name thread_name position).mpr hb
        exact hfree h₁ h₂
      · exact ⟨(add_funct_blocked h funct_name thread_name position).mp hs.2,
          by rw [hs.1]; decide⟩
  | hal_del_funct_from_thread funct_name thread_name =>
      exact Op.refines id (hal_del_funct_refines h funct_name thread_name)
  | hal_param_new name type dir data_addr comp_id =>
      exact Op.refines id (hal_param_new_refines h name type dir data_addr comp_id)
  | hal_pin_new name type data_ptr_addr comp_id =>
      refine wp_bind.mpr ((hal_pin_new_spec h name type data_ptr_addr comp_id).mono
        (fun _ s' hs => ?_) fun e s' hs => ?_)
      · obtain ⟨hread, ⟨_, L', hm, _⟩, -⟩ := hs
        exact .of_inv (not_not_intro hread) ⟨L', hm.inv⟩
      · exact ⟨hs.2, by rw [hs.1]; decide⟩
  | hal_get_stats stats =>
      refine Op.returns id ((hal_get_stats_spec h stats).mono fun _ s' hs => ?_)
      rcases hs with ⟨-, -, rfl⟩ | ⟨-, rfl, -⟩
      · exact ⟨L, h⟩
      · exact ⟨L, h.looked⟩
  | hal_set_lock lock_type => exact Op.returns id (hal_set_lock_inv h lock_type)
  | hal_get_lock => exact Op.returns id (hal_get_lock_inv h)
  | hal_start_threads => exact Op.returns id (hal_start_threads_inv h)
  | hal_stop_threads => exact Op.returns id (hal_stop_threads_inv h)
  | hal_get_state => exact Op.returns id (hal_get_state_inv h)
  | teardown =>
      exact (hal_app_teardown_spec R h).to_wp.mono
        (fun _ _ ⟨L', hinv, _⟩ => .of_inv id ⟨L', hinv⟩) fun _ _ => False.elim

end

/-! ### Runs -/

/-- The structure is on the list in use of its kind. -/
def Segment.Listed (m : Segment) (k : Kind) (x : Nat) : Prop :=
  ∃ xs, Chain (m.arena.pool k).next_ptr (m.arena.pool k).list_ptr xs ∧ x ∈ xs

theorem Shape.listed {m : Segment} {L : Lists} (h : Shape m.arena L) {k : Kind} {x : Nat} :
    m.Listed k x ↔ x ∈ L.act k := by
  refine ⟨fun ⟨xs, hxs, hx⟩ => ?_, fun hx => ⟨_, (h.rep k).used, hx⟩⟩
  rwa [← hxs.unique (h.rep k).used]

/-- A list whose root is null is empty. -/
theorem Segment.not_listed {m : Segment} {k : Kind} {x : Nat}
    (h : (m.arena.pool k).list_ptr = 0) : ¬ m.Listed k x := by
  rintro ⟨xs, hxs, hx⟩
  rw [hxs.unique (show Chain _ _ [] from h)] at hx
  exact absurd hx List.not_mem_nil

/-- A list of one structure. -/
theorem Segment.listed_one {m : Segment} {k : Kind} {x : Nat} (h₀ : (m.arena.pool k).list_ptr ≠ 0)
    (h : (m.arena.pool k).next_ptr (m.arena.pool k).list_ptr = 0) :
    m.Listed k x ↔ x = (m.arena.pool k).list_ptr := by
  have hone : Chain (m.arena.pool k).next_ptr (m.arena.pool k).list_ptr
      [(m.arena.pool k).list_ptr] := ⟨rfl, h₀, h⟩
  refine ⟨fun ⟨xs, hxs, hx⟩ => ?_, fun hx => ⟨_, hone, List.mem_singleton.mpr hx⟩⟩
  rw [hxs.unique hone] at hx
  exact List.mem_singleton.mp hx

/-- A run of operations that are `allowed`, with cycles of the threads between them.  Every step
returned. -/
inductive Runs (allowed : State σ → Op → Prop) (s₀ : State σ) : State σ → Prop
  | start : Runs allowed s₀ s₀
  | op {s s' : State σ} (op : Op) : Runs allowed s₀ s → op.Sane → allowed s op →
      op.run R s = .ok () s' → Runs allowed s₀ s'
  | cycle {s s' : State σ} (code : Addr → Addr → Int → (Addr → Int) → (Addr → Int)) (thread : Nat) :
      Runs allowed s₀ s → s.shm.Listed .thread thread →
      thread_task_cycle R code thread s = .ok () s' → Runs allowed s₀ s'

/-- A call of the library: an operation, or `hal_app_main` once more. -/
inductive Invocation where
  | op (op : Op)
  | hal_app_main

def Invocation.run : Invocation → Prog σ Unit
  | op o => o.run R
  | hal_app_main => do let _ ← Hal.hal_app_main R

/-- A run of calls that are `allowed`, with cycles of the threads between them.  Every step
returned. -/
inductive Invoked (allowed : State σ → Invocation → Prop) (s₀ : State σ) : State σ → Prop
  | start : Invoked allowed s₀ s₀
  | call {s s' : State σ} (c : Invocation) : Invoked allowed s₀ s → allowed s c →
      c.run R s = .ok () s' → Invoked allowed s₀ s'
  | cycle {s s' : State σ} (code : Addr → Addr → Int → (Addr → Int) → (Addr → Int)) (thread : Nat) :
      Invoked allowed s₀ s → s.shm.Listed .thread thread →
      thread_task_cycle R code thread s = .ok () s' → Invoked allowed s₀ s'

/-- HAL came up from a process with a zero-filled segment: `hal_app_main` or the first `hal_init`
succeeded, and the library is initialised. -/
structure Boots (s₀ s : State σ) : Prop where
  zero : s₀.shm = {}
  fresh : s₀.locks = [] ∧ s₀.strikes = [] ∧ s₀.calls = []
  up : hal_app_main R s₀ = .ok 0 s ∨ hal_init_lib R s₀ = .ok 0 s
  mem_id : s.lib_mem_id ≠ 0

/-- The states of a run of HAL. -/
def Reachable (s : State σ) : Prop := ∃ s₀ s₁, Boots R s₀ s₁ ∧ Runs R (fun _ _ => True) s₁ s

variable {R} {s₀ s s' : State σ} {L : Lists} {allowed : State σ → Op → Prop}

theorem Runs.invoked {allowed' : State σ → Invocation → Prop} (hr : Runs R allowed s₀ s)
    (hall : ∀ s op, op.Sane → allowed s op → allowed' s (.op op)) : Invoked R allowed' s₀ s := by
  induction hr with
  | start => exact .start
  | op op _ hsane hop hrun ih => exact .call (.op op) ih (hall _ op hsane hop) hrun
  | cycle code t _ ht hrun ih => exact .cycle code t ih ht hrun

theorem Boots.up_spec (h : Boots R s₀ s) : ∃ name rt, Up R s₀ name rt s := by
  rcases h.up with hup | hup
  · exact ⟨_, _, (hal_app_main_spec R h.zero).of_ok hup rfl⟩
  · exact ⟨_, _, (hal_init_lib_spec R h.zero).of_ok hup rfl⟩

theorem Boots.inv (h : Boots R s₀ s) : Inv s .empty :=
  have ⟨_, _, hup⟩ := h.up_spec
  hup.inv h.mem_id h.fresh.1

/-- Function code and the clock are outside `Inv`. -/
theorem Inv.ran (h : Inv s L) (cs : List Called) (data : Addr → Int) (rt : σ) :
    Inv (s.ran cs data rt) L :=
  { h with good := ⟨h.good.shape, h.good.sound, h.good.plain⟩ }

theorem thread_task_cycle_idle {code : Addr → Addr → Int → (Addr → Int) → (Addr → Int)} {t : Nat}
    (hrun : ¬ s.shm.threads_running > 0) :
    Returns (thread_task_cycle R code t) s fun _ s' => s' = s := by
  unfold thread_task_cycle Returns
  rw [wp_bind, wp_get, if_neg hrun]
  rfl

/-- A cycle leaves everything but values in memory, the record of calls and RTAPI. -/
theorem cycle_ran {code : Addr → Addr → Int → (Addr → Int) → (Addr → Int)} {t : Nat} (h : Inv s L)
    (ht : t ∈ L.act .thread) (hc : thread_task_cycle R code t s = .ok () s') :
    ∃ cs data rt, s' = s.ran cs data rt := by
  by_cases hrun : s.shm.threads_running > 0
  · exact (thread_task_cycle_calls R code h ht hrun
      (Q := fun s' => ∃ cs data rt, s' = s.ran cs data rt) (E := fun _ => True)
      (fun _ data rt => ⟨_, data, rt, rfl⟩) fun _ _ _ _ _ _ _ => trivial).of_ok hc
  · obtain rfl := (thread_task_cycle_idle hrun).of_ok hc
    exact ⟨[], s'.shm.data, s'.rt, rfl⟩

/-- **`Inv` holds in every state of a run.** -/
theorem Runs.inv (hr : Runs R allowed s₀ s) (h : ∃ L, Inv s₀ L) : ∃ L, Inv s L := by
  induction hr with
  | start => exact h
  | op op _ hsane _ hrun ih =>
      obtain ⟨L, hinv⟩ := ih
      exact ((Op.spec R hinv op).of_ok hrun).inv hsane
  | cycle code t _ ht hrun ih =>
      obtain ⟨L, hinv⟩ := ih
      obtain ⟨cs, data, rt, rfl⟩ := cycle_ran hinv (hinv.good.shape.listed.mp ht) hrun
      exact ⟨L, hinv.ran cs data rt⟩

theorem Reachable.inv (h : Reachable R s) : ∃ L, Inv s L :=
  have ⟨_, _, hb, hr⟩ := h
  hr.inv ⟨_, hb.inv⟩

end RTS.Hal

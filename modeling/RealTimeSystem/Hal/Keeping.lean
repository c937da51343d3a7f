import RealTimeSystem.Hal.Runs

/-!
# HAL — what every operation keeps

An operation changes the segment by the functions of `Hal/Segment.lean`, and outside of it what
RTAPI holds and the ghosts.  A relation that holds along each of these steps holds along every
operation.

* `Keeping` — a relation of segments: it may look at the ends of the allocator and at the state and
  the flag of the threads, and at nothing else.
* `Keeps` — a relation of states that follows from it.
* **`Keeps.op`** — every operation, from what the relation says of `hal_init_lib`, of
  `free_thread_struct` and of the operations that set the state and the flag themselves.
-/

namespace RTS.Hal

open RTS.Support

variable {σ α : Type}

/-! ### Functions of the segment -/

/-- `V` holds between a segment and what a function of HAL makes of it. -/
structure Keeping (V : Segment → Segment → Prop) : Prop where
  refl (m : Segment) : V m m
  trans {m m' m'' : Segment} : V m m' → V m' m'' → V m m''
  /-- all but the allocator, the state and the flag -/
  same {m m' : Segment} : m'.arena.brk = m.arena.brk ∧ m'.threads_running = m.threads_running ∧
    m'.state = m.state → V m m'
  up (m : Segment) (size : Int) :
    V m (m.onArena fun a => { a with brk := (shmalloc_up a.brk size).2 })
  dn (m : Segment) (size : Int) :
    V m (m.onArena fun a => { a with brk := (shmalloc_dn a.brk size).2 })

namespace Keeping

variable {V : Segment → Segment → Prop} {m m' m'' : Segment} (h : Keeping V)
include h

theorem free_funct_entry_struct (m : Segment) (e : Nat) : V m (m.free_funct_entry_struct e) := by
  simp only [Segment.free_funct_entry_struct]
  split_ifs <;> exact h.same ⟨rfl, rfl, rfl⟩

/-- Induction on the steps of the walk; what one entry gives back is related. -/
theorem free_entries {root n cur : Nat} {test : Entry → Bool}
    (hf : Segment.free_entries root test n m cur = some m') : V m m' := by
  induction n generalizing m cur with
  | zero => cases hf
  | succ n ih =>
      unfold Segment.free_entries at hf
      split_ifs at hf
      · cases hf
        exact h.refl _
      · have hremove : V m (m.onArena fun a => a.list_remove_entry cur) := h.same ⟨rfl, rfl, rfl⟩
        exact h.trans hremove (h.trans (h.free_funct_entry_struct _ cur) (ih hf))
      · exact ih hf

/-- The same over the threads, a ring at each. -/
theorem free_users {n t : Nat} {test : Entry → Bool}
    (hf : Segment.free_users test n m t = some m') : V m m' := by
  induction n generalizing m t with
  | zero => cases hf
  | succ n ih =>
      unfold Segment.free_users at hf
      split_ifs at hf
      · cases hf
        exact h.refl _
      · obtain ⟨m₁, h₁, h₂⟩ := Option.bind_eq_some_iff.mp hf
        exact h.trans (h.free_entries h₁) (ih h₂)

theorem free_funct_struct {x : Nat} (hf : m.free_funct_struct x = some m') : V m m' := by
  unfold Segment.free_funct_struct at hf
  obtain ⟨m₁, h₁, rfl⟩ := Option.map_eq_some_iff.mp hf
  split_ifs at h₁
  · exact h.trans (h.free_users h₁) (h.same ⟨rfl, rfl, rfl⟩)
  · cases h₁
    exact h.same ⟨rfl, rfl, rfl⟩

theorem free_param_struct (m : Segment) (x : Nat) : V m (m.free_param_struct x) := by
  unfold Segment.free_param_struct
  split_ifs <;> exact h.same ⟨rfl, rfl, rfl⟩

theorem free_pin_struct (m : Segment) (base : Addr) (x : Nat) : V m (m.free_pin_struct base x) := by
  unfold Segment.free_pin_struct
  split_ifs <;> exact h.same ⟨rfl, rfl, rfl⟩

/-- The clean-up loop, for whatever it frees. -/
theorem sweep {k : Kind} {owned : Segment → Nat → Bool} {free : Segment → Nat → Option Segment}
    (hfree : ∀ {m m' x}, free m x = some m' → V m m') {n : Nat} {prev : Link}
    (hs : Segment.sweep k owned free n m prev = some m') : V m m' := by
  induction n generalizing m prev with
  | zero => cases hs
  | succ n ih =>
      simp only [Segment.sweep] at hs
      split_ifs at hs
      · cases hs
        exact h.refl _
      · obtain ⟨m₁, h₁, h₂⟩ := Option.bind_eq_some_iff.mp hs
        have hunlink : V m (m.unlink k prev ((m.arena.pool k).deref prev)) := h.same ⟨rfl, rfl, rfl⟩
        exact h.trans hunlink (h.trans (hfree h₁) (ih h₂))
      · exact ih hs

/-- The functions of the component, its parameters, and the component. -/
theorem free_comp_struct {x : Nat} (hf : m.free_comp_struct x = some m') : V m m' := by
  unfold Segment.free_comp_struct at hf
  obtain ⟨m₁, h₁, hf⟩ := Option.bind_eq_some_iff.mp hf
  obtain ⟨m₂, h₂, rfl⟩ := Option.map_eq_some_iff.mp hf
  have hfuncts : V m m₁ := h.sweep h.free_funct_struct h₁
  have hparams : V m₁ m₂ := h.sweep (fun {m m' x} e => by
    cases e
    exact h.free_param_struct m x) h₂
  exact h.trans hfuncts (h.trans hparams (h.same ⟨rfl, rfl, rfl⟩))

theorem clear_thread {x : Nat} (hc : m.clear_thread x = some m') : V m m' := by
  unfold Segment.clear_thread at hc
  obtain ⟨m₁, h₁, rfl⟩ := Option.map_eq_some_iff.mp hc
  have hset : V m (m.setThread x { m.thread x with
      uses_fp := 0, period := 0, priority := 0, task_id := 0 }) := h.same ⟨rfl, rfl, rfl⟩
  exact h.trans hset (h.trans (h.free_entries h₁) (h.same ⟨rfl, rfl, rfl⟩))

/-- Only links change, so nothing of what `V` sees. -/
theorem insert_sorted {k : Kind} {name : Nat → CStr} {x : Nat} {b : Bool}
    (hi : m.insert_sorted k name x = some (b, m')) : V m m' := by
  unfold Segment.insert_sorted at hi
  obtain ⟨prev, -, hi⟩ := Option.map_eq_some_iff.mp hi
  simp only at hi
  split_ifs at hi <;> cases hi <;> exact h.same ⟨rfl, rfl, rfl⟩

/-- Whatever else is new in a segment, its allocator comes from one request. -/
theorem of_dn {size : Int} (hb : m'.arena.brk = (shmalloc_dn m.arena.brk size).2)
    (hf : m'.threads_running = m.threads_running ∧ m'.state = m.state) : V m m' :=
  h.trans (h.dn m size) (h.same ⟨hb, hf⟩)

/-- A request for a structure: the only place that moves the upper bound. -/
theorem alloc (k : Kind) (hb : m'.arena.brk = (m.arena.alloc k).2.brk)
    (hf : m'.threads_running = m.threads_running ∧ m'.state = m.state) : V m m' := by
  unfold Arena.alloc at hb
  split at hb
  · exact h.same ⟨hb, hf⟩
  · rcases hs : shmalloc_dn m.arena.brk k.size with ⟨_ | off, brk⟩ <;> rw [hs] at hb
    · exact h.same ⟨hb, hf⟩
    · exact h.of_dn (by rw [hs]; exact hb) hf

theorem alloc_funct_entry_struct {e : Nat} (ha : m.alloc_funct_entry_struct = some (e, m')) :
    V m m' := by
  obtain ⟨⟨e', a⟩, he, hm⟩ := Option.map_eq_some_iff.mp ha
  cases hm
  unfold Arena.alloc_entry at he
  simp only at he
  split at he
  · cases he
    exact h.same ⟨rfl, rfl, rfl⟩
  · rcases hs : shmalloc_dn m.arena.brk Kind.entry.size with ⟨_ | off, brk⟩ <;> rw [hs] at he
    · cases he
    · cases he
      exact h.of_dn (by rw [hs]; rfl) ⟨rfl, rfl⟩

theorem halpr_alloc_comp_struct (m : Segment) : V m m.halpr_alloc_comp_struct.2 := by
  refine h.alloc .comp ?_ ⟨?_, ?_⟩ <;> simp only [Segment.halpr_alloc_comp_struct] <;> split_ifs <;> rfl

theorem alloc_funct_struct (m : Segment) : V m m.alloc_funct_struct.2 := by
  refine h.alloc .funct ?_ ⟨?_, ?_⟩ <;> simp only [Segment.alloc_funct_struct] <;> split_ifs <;> rfl

theorem alloc_param_struct (m : Segment) : V m m.alloc_param_struct.2 := by
  refine h.alloc .param ?_ ⟨?_, ?_⟩ <;> simp only [Segment.alloc_param_struct] <;> split_ifs <;> rfl

theorem alloc_pin_struct (m : Segment) : V m m.alloc_pin_struct.2 := by
  refine h.alloc .pin ?_ ⟨?_, ?_⟩ <;> simp only [Segment.alloc_pin_struct] <;> split_ifs <;> rfl

theorem alloc_thread_struct (m : Segment) : V m m.alloc_thread_struct.2 := by
  refine h.alloc .thread ?_ ⟨?_, ?_⟩ <;> simp only [Segment.alloc_thread_struct] <;> split_ifs <;> rfl

end Keeping

/-! ### Programs -/

/-- The calls on RTAPI, but for those on the shared memory of HAL. -/
inductive Rtapi.Step (R : Rtapi σ) (rt : σ) : σ → Prop
  | init (modname : CStr) : R.Step rt (R.init modname rt).2
  | exit (module_id : Int) : R.Step rt (R.exit module_id rt).2
  | clock_set_period (nsecs : Int) : R.Step rt (R.clock_set_period nsecs rt).2
  | task_new (arg : Addr) (prio owner stacksize uses_fp : Int) :
      R.Step rt (R.task_new arg prio owner stacksize uses_fp rt).2
  | task_start (task_id period_nsec : Int) : R.Step rt (R.task_start task_id period_nsec rt).2
  | task_pause (task_id : Int) : R.Step rt (R.task_pause task_id rt).2
  | task_delete (id : Int) : R.Step rt (R.task_delete id rt).2
  | getpid : R.Step rt (R.getpid rt).2

/-- `T` holds where `V` does, and along the steps outside of the segment. -/
structure Keeps (R : Rtapi σ) (V : Segment → Segment → Prop) (T : State σ → State σ → Prop) :
    Prop where
  segment : Keeping V
  put : ∀ (s : State σ) (m : Segment) (locks : List LockEvent) (ref_cnt : Int), V s.shm m →
    T s { s with shm := m, locks := locks, ref_cnt := ref_cnt }
  strike : ∀ (s : State σ) (k : Strike), T s { s with strikes := k :: s.strikes }
  step : ∀ (s : State σ) (rt : σ), R.Step s.rt rt → T s { s with rt := rt }

/-- What the operation does to the state and the flag of the threads, it does to them directly. -/
def Op.Flags : Op → Prop
  | hal_start_threads => True
  | hal_stop_threads => True
  | teardown => True
  | _ => False

namespace Keeps

variable {R : Rtapi σ} {V : Segment → Segment → Prop} {T : State σ → State σ → Prop}

section
variable (h : Keeps R V T)
include h

/-- A store in the segment. -/
theorem change {f : Segment → Segment} (hf : ∀ m, V m (f m)) : Along T (change f : Prog σ Unit) :=
  .modify fun s => h.put s (f s.shm) s.locks s.ref_cnt (hf s.shm)

theorem set {f : Segment → Segment} (hf : ∀ m, (f m).arena.brk = m.arena.brk ∧
      (f m).threads_running = m.threads_running ∧ (f m).state = m.state) :
    Along T (Hal.change f : Prog σ Unit) :=
  h.change fun m => h.segment.same (hf m)

theorem take {f : Segment → α × Segment} (hf : ∀ m, V m (f m).2) :
    Along T (take f : Prog σ α) :=
  .modifyGet fun s => h.put s (f s.shm).2 s.locks s.ref_cnt (hf s.shm)

/-- RTAPI is asked. -/
theorem call {f : σ → α × σ} (hf : ∀ rt, R.Step rt (f rt).2) : Along T (call f : Prog σ α) :=
  .modifyGet fun s => h.step s _ (hf s.rt)

theorem mutex_give : Along T (rtapi_mutex_give : Prog σ Unit) :=
  .modify fun s => h.put s _ _ s.ref_cnt (h.segment.same ⟨rfl, rfl, rfl⟩)

theorem count {n : State σ → Int} :
    Along T (modify fun s => { s with ref_cnt := n s } : Prog σ Unit) :=
  .modify fun s => h.put s s.shm s.locks _ (h.segment.refl _)

theorem struck [IsTrans (State σ) T] {id : Int} {f : σ → Int × σ} (hf : ∀ rt, R.Step rt (f rt).2) :
    Along T (do modify fun s => { s with strikes := ⟨id, s.shm⟩ :: s.strikes }
                Hal.call f : Prog σ Int) :=
  .bind (.modify fun s => h.strike s _) fun _ => h.call hf

end

section
variable [Std.Refl T] (h : Keeps R V T)
include h

/-- A walk that changes the segment. -/
theorem walkTo {f : Segment → Option (α × Segment)}
    (hf : ∀ m a m', f m = some (a, m') → V m m') : Along T (walkTo f : Prog σ α) := by
  intro s
  unfold Hal.walkTo
  rw [wp_bind, wp_get]
  rcases hs : f s.shm with _ | ⟨a, m'⟩
  · exact Std.Refl.refl (r := T) s
  · exact h.put s m' s.locks s.ref_cnt (hf s.shm a m' hs)

theorem walk_free {f : Segment → Option Segment} (hf : ∀ {m m'}, f m = some m' → V m m') :
    Along T (Hal.walkTo fun m => (f m).map ((), ·) : Prog σ Unit) :=
  h.walkTo fun _ _ _ hs => by
    obtain ⟨m₁, h₁, hs⟩ := Option.map_eq_some_iff.mp hs
    cases hs
    exact hf h₁

end

variable [Std.Refl T] [IsTrans (State σ) T]

theorem look {f : Segment → α} : Along T (look f : Prog σ α) := .bind .get fun _ => .pure

theorem walk {f : Segment → Option α} : Along T (walk f : Prog σ α) :=
  .bind .get fun s => by
    cases f s.shm with
    | none => exact .throw
    | some a => exact .pure

variable (h : Keeps R V T)
include h

/-- The mutex is taken, or the process waits for ever in front of it. -/
theorem mutex_get : Along T (rtapi_mutex_get : Prog σ Unit) :=
  .bind .get fun _ => .ite .throw <|
    .bind (.modify fun s => h.put s s.shm _ s.ref_cnt (h.segment.refl _)) fun _ =>
    .ite .throw (h.set fun _ => ⟨rfl, rfl, rfl⟩)

/-- Refused under the mutex. -/
theorem give {a : α} : Along T (do rtapi_mutex_give; return a : Prog σ α) :=
  .bind h.mutex_give fun _ => .pure

omit h in
/-- A read through a pointer: it changes nothing, also where it ends the process. -/
theorem load {p : Addr} : Along T (load p : Prog σ Unit) := .bind .get fun _ => .ite .pure .throw

omit h [IsTrans (State σ) T] in
/-- A call through a pointer, before the code that is called. -/
theorem jump {p : Addr} : Along T (jump p : Prog σ Unit) := .ite .throw .pure

theorem storeThrough {c : Nat} {v : Int} : Along T (storeThrough c v : Prog σ Unit) :=
  .bind look fun _ => .ite .throw (h.set fun _ => ⟨rfl, rfl, rfl⟩)

/-! ### Components -/

/-- A component, once HAL is attached. -/
theorem hal_init_comp (name : CStr) : Along T (hal_init_comp R name) :=
  .bind (h.call fun _ => .init _) fun _ => .ite .pure <| .bind h.mutex_get fun _ =>
    .bind walk fun _ =>
    .ite (.bind h.mutex_give fun _ => .bind (h.call fun _ => .exit _) fun _ => .pure) <|
    .bind (h.take h.segment.halpr_alloc_comp_struct) fun _ =>
    .ite (.bind h.mutex_give fun _ => .bind (h.call fun _ => .exit _) fun _ => .pure) <|
    .bind .get fun _ => .bind (h.set fun _ => ⟨rfl, rfl, rfl⟩) fun _ =>
    .bind (h.set fun _ => ⟨rfl, rfl, rfl⟩) fun _ => .bind h.mutex_give fun _ =>
    .bind (h.set fun _ => ⟨rfl, rfl, rfl⟩) fun _ => .bind h.count fun _ => .pure

/-- `hlib` is about the part under `if (!lib_mem_id)`. -/
theorem hal_init (hlib : ∀ s, s.lib_mem_id = 0 →
    Wp (hal_init_lib R) s (fun _ s' => T s s') fun _ s' => T s s') (name : Option CStr) :
    Along T (hal_init R name) := by
  rcases name with _ | name
  · exact .pure
  refine .ite .pure fun s => ?_
  rw [wp_bind, wp_get]
  refine .ite (fun hid => ?_) fun _ => h.hal_init_comp name s
  rw [wp_bind]
  refine (hlib s hid).mono (fun r s₁ h₁ => ?_) fun _ _ => id
  refine .ite (fun _ => h₁) fun _ => (h.hal_init_comp name s₁).mono (fun _ _ h₂ => ?_) fun _ _ h₂ => ?_
  · exact IsTrans.trans _ _ _ h₁ h₂
  · exact IsTrans.trans _ _ _ h₁ h₂

theorem hal_exit (comp_id : Int) : Along T (hal_exit R comp_id) :=
  .bind .get fun _ => .ite .pure <| .ite .pure <| .bind h.mutex_get fun _ => .bind walk fun _ =>
    .bind look fun _ => .ite h.give <|
    .bind (h.set fun _ => ⟨rfl, rfl, rfl⟩) fun _ =>
    .bind (h.walk_free h.segment.free_comp_struct) fun _ => .bind h.mutex_give fun _ =>
    .bind h.count fun _ => .bind (h.call fun _ => .exit _) fun _ => .pure

theorem hal_malloc (size : Int) : Along T (hal_malloc size : Prog σ (Option Int)) :=
  .bind .get fun _ => .ite .pure <| .bind h.mutex_get fun _ =>
    .bind (h.take fun m => h.segment.up m size) fun _ => h.give

theorem hal_set_constructor (comp_id : Int) (make : Addr) :
    Along T (hal_set_constructor comp_id make : Prog σ Int) :=
  .bind h.mutex_get fun _ => .bind walk fun _ => .ite h.give <|
    .bind (h.set fun _ => ⟨rfl, rfl, rfl⟩) fun _ => h.give

theorem hal_set_unready (comp_id : Int) : Along T (hal_set_unready comp_id : Prog σ Int) :=
  .bind h.mutex_get fun _ => .bind walk fun _ =>
    .ite (.bind (h.set fun _ => ⟨rfl, rfl, rfl⟩) fun _ => h.give) h.give

theorem hal_ready (comp_id : Int) : Along T (hal_ready comp_id : Prog σ Int) :=
  .bind h.mutex_get fun _ => .bind walk fun _ => .ite h.give <| .bind look fun _ =>
    .ite h.give <| .bind (h.set fun _ => ⟨rfl, rfl, rfl⟩) fun _ => h.give

theorem hal_unready (comp_id : Int) : Along T (hal_unready comp_id : Prog σ Int) :=
  .bind h.mutex_get fun _ => .bind walk fun _ => .ite h.give <| .bind look fun _ =>
    .ite h.give <| .bind (h.set fun _ => ⟨rfl, rfl, rfl⟩) fun _ => h.give

theorem hal_comp_name (comp_id : Int) : Along T (hal_comp_name comp_id : Prog σ (Option CStr)) :=
  .bind h.mutex_get fun _ => .bind walk fun _ => .bind look fun _ => h.give

/-! ### Pins, parameters and functions -/

/-- The structure goes into its list, or back to the free ones. -/
theorem insert_new {k : Kind} {names : Segment → Nat → CStr}
    {free : Segment → Nat → Option Segment} {new : Nat}
    (hfree : ∀ {m m' x}, free m x = some m' → V m m') :
    Along T (insert_new k names free new : Prog σ Bool) :=
  .bind (h.walkTo fun _ _ _ hi => h.segment.insert_sorted hi) fun _ => .ite h.give <|
    .bind (h.walk_free hfree) fun _ => h.give

/-- What a pin and a parameter have in common: a structure, its contents, its place in the list. -/
theorem register_new {k : Kind} {names : Segment → Nat → CStr} {alloc : Segment → Nat × Segment}
    {fill : Nat → Nat → Segment → Segment} {free : Segment → Nat → Option Segment} {addr : Addr}
    {comp_id : Int} (halloc : ∀ m, V m (alloc m).2) (hfill : ∀ c x m, V m (fill c x m))
    (hfree : ∀ {m m' x}, free m x = some m' → V m m') :
    Along T (register_new k names alloc fill free addr comp_id : Prog σ Int) :=
  .bind .get fun _ => .bind h.mutex_get fun _ => .bind walk fun _ => .ite h.give <| .ite h.give <|
    .bind look fun _ => .ite h.give <| .bind (h.take halloc) fun _ => .ite h.give <|
    .bind (h.change (hfill _ _)) fun _ => .bind (h.insert_new hfree) fun _ => .ite .pure .pure

theorem hal_param_new (name : CStr) (type : HalType) (dir : ParamDir) (data_addr : Addr)
    (comp_id : Int) : Along T (hal_param_new name type dir data_addr comp_id : Prog σ Int) :=
  .bind .get fun _ => .ite .pure <| .ite .pure <| .ite .pure <| .ite .pure <| .ite .pure <|
    h.register_new h.segment.alloc_param_struct (fun _ _ _ => h.segment.same ⟨rfl, rfl, rfl⟩)
      fun hf => by
        cases hf
        exact h.segment.free_param_struct _ _

theorem hal_pin_new (name : CStr) (type : HalType) (data_ptr_addr : Addr) (comp_id : Int) :
    Along T (hal_pin_new name type data_ptr_addr comp_id : Prog σ Int) :=
  .bind .get fun _ => .ite .pure <| .bind load fun _ => .ite .pure <| .ite .pure <| .ite .pure <|
    h.register_new h.segment.alloc_pin_struct (fun _ _ _ => h.segment.same ⟨rfl, rfl, rfl⟩)
      fun hf => by
        cases hf
        exact h.segment.free_pin_struct _ _ _

theorem hal_pin_newf (type : HalType) (data_ptr_addr : Addr) (comp_id : Int) (full : CStr) :
    Along T (hal_pin_newf type data_ptr_addr comp_id full : Prog σ Int) :=
  .ite .pure (h.hal_pin_new _ _ _ _)

/-- The function, up to its pin and its parameters. -/
theorem export_funct_new (name : CStr) (funct arg : Addr) (uses_fp reentrant comp_id : Int) :
    Along T (export_funct_new name funct arg uses_fp reentrant comp_id :
      Prog σ (Except Int Nat)) :=
  .bind h.mutex_get fun _ => .bind walk fun _ => .ite h.give <| .bind look fun _ =>
    .ite h.give <| .bind look fun _ => .ite h.give <|
    .bind (h.take h.segment.alloc_funct_struct) fun _ => .ite h.give <|
    .bind (h.set fun _ => ⟨rfl, rfl, rfl⟩) fun _ =>
    .bind (h.insert_new h.segment.free_funct_struct) fun _ => .ite .pure .pure

theorem export_funct_pins (name : CStr) (new : Nat) (comp_id : Int) :
    Along T (export_funct_pins name new comp_id : Prog σ Int) :=
  .bind .get fun _ => .bind (h.hal_pin_newf _ _ _ _) fun _ => .ite .pure <|
    .bind h.storeThrough fun _ => .bind (h.set fun _ => ⟨rfl, rfl, rfl⟩) fun _ =>
    .bind (h.hal_param_new _ _ _ _ _) fun _ =>
    .bind (h.set fun _ => ⟨rfl, rfl, rfl⟩) fun _ =>
    .bind (h.hal_param_new _ _ _ _ _) fun _ => .pure

theorem hal_export_funct (name : CStr) (funct arg : Addr) (uses_fp reentrant comp_id : Int) :
    Along T (hal_export_funct name funct arg uses_fp reentrant comp_id : Prog σ Int) :=
  .bind .get fun _ => .ite .pure <| .ite .pure <| .ite .pure <|
    .bind (h.export_funct_new _ _ _ _ _ _) fun made => by
      cases made with
      | error e => exact .pure
      | ok new => exact h.export_funct_pins _ _ _

/-! ### Threads -/

/-- When the flag may be cleared. -/
theorem free_thread_struct (hrun : ∀ m : Segment, V m { m with threads_running := 0 })
    (thread : Nat) : Along T (free_thread_struct R thread) :=
  .bind (h.change hrun) fun _ => .bind look fun _ => .bind (h.struck fun _ => .task_pause _) fun _ =>
    .bind (h.struck fun _ => .task_delete _) fun _ => h.walk_free h.segment.clear_thread

/-- The clock is set by the first thread. -/
theorem create_thread_clock (period_nsec : Nat) : Along T (create_thread_clock R period_nsec) :=
  .bind (h.call fun _ => .clock_set_period _) fun _ =>
    .ite (.bind (h.call fun _ => .clock_set_period _) fun _ => .ite .pure .pure) .pure

section
variable (hfree : ∀ thread, Along T (Hal.free_thread_struct R thread))
include hfree

/-- The thread is listed and its task started, or both are taken back. -/
theorem create_thread_insert (new period_nsec : Nat) (uses_fp priority : Int) :
    Along T (create_thread_insert R new period_nsec uses_fp priority) :=
  .bind .get fun _ => .bind (h.set fun _ => ⟨rfl, rfl, rfl⟩) fun _ =>
    .bind (h.call fun _ => .task_new ..) fun _ =>
    .ite (.bind (hfree _) fun _ => h.give) <| .bind (h.set fun _ => ⟨rfl, rfl, rfl⟩) fun _ =>
    .bind (h.call fun _ => .task_start ..) fun _ =>
    .ite (.bind (h.struck fun _ => .task_delete _) fun _ => .bind (hfree _) fun _ => h.give) <|
    .bind (h.set fun _ => ⟨rfl, rfl, rfl⟩) fun _ => h.give

theorem create_thread_task (name : CStr) (period_nsec : Nat) (uses_fp priority : Int) :
    Along T (create_thread_task R name period_nsec uses_fp priority) :=
  .bind h.mutex_get fun _ => .bind walk fun _ => .ite h.give <|
    .bind (h.take h.segment.alloc_thread_struct) fun _ => .ite h.give <|
    .bind (h.set fun _ => ⟨rfl, rfl, rfl⟩) fun _ => .bind look fun _ =>
    .ite (.bind (h.create_thread_clock _) fun _ =>
      .ite (.bind (h.create_thread_insert hfree _ _ _ _) fun _ => .pure)
        (.bind (hfree _) fun _ => h.give))
      (.bind (h.create_thread_insert hfree _ _ _ _) fun _ => .pure)

/-- A thread, its component, its pin and its parameter.  The attachment is a hypothesis: it initialises
the segment, and a relation need not survive that. -/
theorem hal_create_thread (hlib : ∀ s, s.lib_mem_id = 0 →
      Wp (hal_init_lib R) s (fun _ s' => T s s') fun _ s' => T s s') (name : CStr)
    (period_nsec : Nat) (uses_fp priority : Int) :
    Along T (hal_create_thread R name period_nsec uses_fp priority) := by
  have hcomp : ∀ new, Along T (create_thread_comp R new) := fun new =>
    .bind .get fun _ => .bind (h.hal_init hlib _) fun _ =>
      .bind (h.set fun _ => ⟨rfl, rfl, rfl⟩) fun _ => .ite .pure <|
      .bind (h.set fun _ => ⟨rfl, rfl, rfl⟩) fun _ => .bind (h.hal_param_new _ _ _ _ _) fun _ =>
      .ite .pure <| .bind (h.hal_pin_newf _ _ _ _) fun _ => .ite .pure <|
      .bind h.storeThrough fun _ => .bind (h.hal_ready _) fun _ => .pure
  refine .bind .get fun _ => .ite .pure <| .ite .pure <| .ite .pure <| .ite .pure <|
    .bind (h.create_thread_task hfree name period_nsec uses_fp priority) fun made => ?_
  cases made with
  | error e => exact .pure
  | ok new => exact hcomp new

theorem hal_thread_delete (name : CStr) : Along T (hal_thread_delete R name) :=
  .bind .get fun _ => .ite .pure <| .ite .pure <| .ite .pure <| .bind h.mutex_get fun _ =>
    .bind walk fun _ => .bind look fun _ => .ite h.give <| .bind look fun _ =>
    .ite (.bind (h.hal_exit _) fun _ => .bind (h.set fun _ => ⟨rfl, rfl, rfl⟩) fun _ =>
      .bind (h.set fun _ => ⟨rfl, rfl, rfl⟩) fun _ => .bind (hfree _) fun _ => h.give) <|
    .bind (h.set fun _ => ⟨rfl, rfl, rfl⟩) fun _ => .bind (hfree _) fun _ => h.give

/-- The threads are freed one by one, from the head of the list. -/
theorem teardown_threads (n : Nat) : Along T (teardown_threads R n) := by
  induction n with
  | zero => exact .throw
  | succ n ih =>
      exact .bind look fun _ => .ite (.bind (h.set fun _ => ⟨rfl, rfl, rfl⟩) fun _ =>
        .bind (hfree _) fun _ => ih) .pure

end

theorem hal_add_funct_to_thread (funct_name thread_name : Option CStr) (position : Int) :
    Along T (hal_add_funct_to_thread funct_name thread_name position : Prog σ Int) := by
  refine .bind .get fun _ => .ite .pure <| .ite .pure <| .bind h.mutex_get fun _ => .ite h.give ?_
  rcases funct_name with _ | funct_name
  · exact h.give
  rcases thread_name with _ | thread_name
  · exact h.give
  refine .bind walk fun _ => .ite h.give <| .bind look fun _ => .ite h.give <|
    .bind walk fun _ => .ite h.give <| .bind look fun _ => .ite h.give <|
    .bind walk fun found => ?_
  rcases found with _ | list_entry
  · exact h.give
  intro s
  rw [wp_bind, wp_get]
  rcases ha : s.shm.alloc_funct_entry_struct with _ | ⟨e, m⟩
  · exact Std.Refl.refl (r := T) s
  · -- the entry is filled and linked, the mutex given
    exact h.put s _ _ s.ref_cnt (h.segment.trans (h.segment.alloc_funct_entry_struct ha)
      (h.segment.same ⟨rfl, rfl, rfl⟩))

theorem hal_del_funct_from_thread (funct_name thread_name : Option CStr) :
    Along T (hal_del_funct_from_thread funct_name thread_name : Prog σ Int) := by
  refine .bind .get fun _ => .ite .pure <| .ite .pure <| .bind h.mutex_get fun _ => ?_
  rcases funct_name with _ | funct_name
  · exact h.give
  rcases thread_name with _ | thread_name
  · exact h.give
  refine .bind walk fun _ => .ite h.give <| .bind look fun _ => .ite h.give <|
    .bind walk fun _ => .ite h.give <| .bind walk fun found => ?_
  rcases found with _ | e
  · exact h.give
  · exact .bind (h.set fun _ => ⟨rfl, rfl, rfl⟩) fun _ =>
      .bind (h.change fun m => h.segment.free_funct_entry_struct m e) fun _ => h.give

/-! ### Every operation -/

/-- **Every operation** keeps what its steps keep. -/
theorem op (hlib : ∀ s, s.lib_mem_id = 0 →
      Wp (hal_init_lib R) s (fun _ s' => T s s') fun _ s' => T s s')
    (hfree : ∀ thread, Along T (Hal.free_thread_struct R thread)) (op : Op)
    (hflags : op.Flags → ∀ (m : Segment) (state : HalState) (running : Int),
      V m { m with state := state, threads_running := running }) : Along T (op.run R) := by
  cases op with
  | hal_init name => exact .bind (h.hal_init hlib name) fun _ => .pure
  | hal_exit comp_id => exact .bind (h.hal_exit comp_id) fun _ => .pure
  | hal_malloc size => exact .bind (h.hal_malloc size) fun _ => .pure
  | hal_set_constructor comp_id make => exact .bind (h.hal_set_constructor _ _) fun _ => .pure
  | hal_ready comp_id => exact .bind (h.hal_ready comp_id) fun _ => .pure
  | hal_unready comp_id => exact .bind (h.hal_unready comp_id) fun _ => .pure
  | hal_set_unready comp_id => exact .bind (h.hal_set_unready comp_id) fun _ => .pure
  | hal_comp_name comp_id => exact .bind (h.hal_comp_name comp_id) fun _ => .pure
  | hal_export_funct name funct arg uses_fp reentrant comp_id =>
      exact .bind (h.hal_export_funct _ _ _ _ _ _) fun _ => .pure
  | hal_create_thread name period_nsec uses_fp priority =>
      exact .bind (h.hal_create_thread hfree hlib _ _ _ _) fun _ => .pure
  | hal_thread_delete name => exact .bind (h.hal_thread_delete hfree name) fun _ => .pure
  | hal_add_funct_to_thread funct_name thread_name position =>
      exact .bind (h.hal_add_funct_to_thread _ _ _) fun _ => .pure
  | hal_del_funct_from_thread funct_name thread_name =>
      exact .bind (h.hal_del_funct_from_thread _ _) fun _ => .pure
  | hal_param_new name type dir data_addr comp_id =>
      exact .bind (h.hal_param_new _ _ _ _ _) fun _ => .pure
  | hal_pin_new name type data_ptr_addr comp_id =>
      exact .bind (h.hal_pin_new _ _ _ _) fun _ => .pure
  | hal_get_stats stats =>
      exact .bind (.bind .get fun _ => .ite .pure <| .bind h.mutex_get fun _ => .bind walk fun _ =>
        .bind walk fun _ => .bind walk fun _ => .bind walk fun _ => .bind walk fun _ =>
        .bind look fun _ => h.give) fun _ => .pure
  | hal_set_lock lock_type =>
      exact .bind (.bind .get fun _ => .ite .pure <|
        .bind (h.set fun _ => ⟨rfl, rfl, rfl⟩) fun _ => .pure) fun _ => .pure
  | hal_get_lock => exact .bind (.bind .get fun _ => .ite .pure .pure) fun _ => .pure
  | hal_start_threads =>
      exact .bind (.bind .get fun _ => .ite .pure <| .ite .pure <| .ite .pure <| .ite .pure <|
        .bind (h.change fun m => hflags trivial m _ _) fun _ => .pure) fun _ => .pure
  | hal_stop_threads =>
      exact .bind (.bind .get fun _ => .ite .pure <| .ite .pure <| .ite .pure <| .ite .pure <|
        .bind (h.change fun m => hflags trivial m _ _) fun _ => .pure) fun _ => .pure
  | hal_get_state => exact .bind (.bind .get fun _ => .ite .pure .pure) fun _ => .pure
  | teardown =>
      exact .bind (h.change fun m => hflags trivial m _ _) fun _ => .bind h.mutex_get fun _ =>
        .bind (h.teardown_threads hfree FUEL) fun _ => h.mutex_give

end Keeps

end RTS.Hal
